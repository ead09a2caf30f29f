import Preconditions.Proofs.Json.Unambiguity

/-!
# No document is the beginning of another

A text, a list and an object say themselves where they end. So what follows the value in a document can only be
blanks, also when the value is read in the first part of a longer document.
-/

namespace Preconditions.Json

/-- The last character of the value cannot be missing. -/
inductive Value.Closed : Value → Prop where
  | text (ps : List Piece) : Closed (.text ps)
  | list (vs : List Value) : Closed (.list vs)
  | object (ms : List (List Piece × Value)) : Closed (.object ms)

theorem Layout.closed_of_value? {σ ι α : Type} {β : ι → Type} (L : Layout σ ι β) {f : RecordFormat σ α} {v : Value}
    {a : α} (h : L.value? f v = some a) : v.Closed := by
  cases v with
  | object ms => exact .object ms
  | list vs => exact .list vs
  | _ => cases h

/-- Other than in `Spells.unique`, anything may follow. -/
theorem Spells.rest_unique {v v' : Value} {w w' s t : List Char} (hv : v.Closed) (hv' : v'.Closed) (h : Spells v w)
    (h' : Spells v' w') (e : w ++ s = w' ++ t) : s = t := by
  cases hv with
  | text ps =>
    rcases h with _ | _ | _ | _ | hw
    cases hv' with
    | text qs =>
      rcases h' with _ | _ | _ | _ | hw'
      exact (hw.unique hw' (by simpa using e)).2
    | _ => cases h'; cases e
  | list vs =>
    rcases h with _ | _ | _ | _ | _ | hw
    cases hv' with
    | list vs' =>
      rcases h' with _ | _ | _ | _ | _ | hw'
      exact (hw.unique hw' (by simpa using e)).2
    | _ => cases h'; cases e
  | object ms =>
    rcases h with _ | _ | _ | _ | _ | _ | hw
    cases hv' with
    | object ms' =>
      rcases h' with _ | _ | _ | _ | _ | _ | hw'
      exact (hw.unique hw' (by simpa using e)).2
    | _ => cases h'; cases e

/-- Two documents of which one begins the other differ in blanks at the end. -/
theorem Document.blank_of_append {v v' : Value} {p x : List Char} (hv : v.Closed) (hv' : v'.Closed)
    (h : Document v (p ++ x)) (h' : Document v' p) : Blank x := by
  obtain ⟨b, w, c, hb, hw, hc, e⟩ := h.split
  obtain ⟨b', w', c', hb', hw', hc', rfl⟩ := h'.split
  rw [List.append_assoc] at e
  have e' := congrArg skipBlanks e
  rw [hw.skipBlanks_eq hb, hw'.skipBlanks_eq hb'] at e'
  have hx := hw'.rest_unique hv' hv hw e'
  intro a ha
  exact hc a (hx ▸ List.mem_append_right c' ha)

/-! ## Texts -/

def CutOff (p t : String) : Prop := p.toList <+: t.toList ∧ p ≠ t

instance (p t : String) : Decidable (CutOff p t) := inferInstanceAs (Decidable (_ ∧ _))

def Trimmed (t : String) : Prop := ∀ c, t.toList.getLast? = some c → isBlank c = false

theorem CutOff.exists_append {p t : String} (h : CutOff p t) : ∃ x, p.toList ++ x = t.toList ∧ x ≠ [] := by
  obtain ⟨⟨x, hx⟩, hne⟩ := h
  refine ⟨x, hx, fun hnil => hne (String.toList_injective ?_)⟩
  rw [← hx, hnil, List.append_nil]

theorem Reader.Reads.decode_cutOff {α : Type} {r : Reader α} {m : Value → Option α} (h : r.Reads m)
    (hm : ∀ v a, m v = some a → v.Closed) {t p : String} {a : α} (ht : r.decode t = .ok a) (hend : Trimmed t)
    (hp : CutOff p t) : ∃ e, r.decode p = .error e := by
  cases he : r.decode p with
  | error e => exact ⟨e, rfl⟩
  | ok b =>
    exfalso
    obtain ⟨v, hv, ha⟩ := h.decode_eq_ok_iff.1 ht
    obtain ⟨v', hv', hb⟩ := h.decode_eq_ok_iff.1 he
    obtain ⟨x, hx, hne⟩ := hp.exists_append
    rw [← hx] at hv
    have hblank := hv.blank_of_append (hm v a ha) (hm v' b hb) hv'
    have hlast := hend (x.getLast hne) (by rw [← hx, List.getLast?_append, List.getLast?_eq_some_getLast hne]; rfl)
    rw [hblank _ (List.getLast_mem hne)] at hlast
    cases hlast

end Preconditions.Json
