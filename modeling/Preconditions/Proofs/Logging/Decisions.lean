import Mathlib.Data.List.Induction
import Preconditions.Proofs.Logging.Filters

/-!
# What decides

The directive that decides is the most exact of those about an event. One that is put at the end of a filter for the
very target of the event decides, unless the filter narrows that target to a field that the event has; one that is not
about the event is as good as absent, wherever it stands.
-/

namespace Preconditions.Logging

namespace Directive

/-- A directive for the very target that is narrowed to one of the fields. -/
def Pins (target : List Char) (fields : List (List Char)) (d : Directive) : Prop :=
  d.target = target ∧ ∃ name ∈ fields, d.scope = .field name

instance (target : List Char) (fields : List (List Char)) (d : Directive) : Decidable (d.Pins target fields) :=
  inferInstanceAs (Decidable (d.target = target ∧ ∃ name ∈ fields, d.scope = .field name))

section
variable {target : List Char} {fields : List (List Char)} {b d : Directive} {l : Level}

theorem covers_iff : d.covers target fields = true ↔ d.target <+: target ∧ d.scope.includes fields = true := by
  rw [covers, Bool.and_eq_true, List.isPrefixOf_iff_prefix]

theorem covers_of_not_prefix (h : ¬ d.target <+: target) : d.covers target fields = false := by
  rw [Bool.eq_false_iff]
  exact fun hc => h (covers_iff.1 hc).1

theorem covers_all : covers target fields ⟨target, .all, l⟩ = true :=
  covers_iff.2 ⟨List.prefix_rfl, rfl⟩

theorem Pins.covers (h : d.Pins target fields) : d.covers target fields = true := by
  obtain ⟨ht, name, hname, hs⟩ := h
  refine covers_iff.2 ⟨ht ▸ List.prefix_rfl, ?_⟩
  rw [hs, Scope.includes, List.contains_iff_mem]
  exact hname

theorem scope_of_covers (h : d.covers target fields = true) (ht : d.target = target) (hd : ¬ d.Pins target fields) :
    d.scope = .all := by
  have hi := (covers_iff.1 h).2
  cases hs : d.scope with
  | all => rfl
  | field name =>
    rw [hs, Scope.includes, List.contains_iff_mem] at hi
    exact absurd ⟨ht, name, hi, hs⟩ hd
  | spans =>
    rw [hs] at hi
    cases hi

theorem atMost_of_length_eq (h : b.target.length = d.target.length) : b.atMost d = b.scope.atMost d.scope := by
  simp [atMost, h]

theorem atMost_of_length_lt (h : b.target.length < d.target.length) : b.atMost d = true := by
  simp [atMost, h]

theorem atMost_of_not_pins (hb : b.covers target fields = true) (hn : ¬ b.Pins target fields)
    (hd : d.target = target) : b.atMost d = true := by
  have hp := (covers_iff.1 hb).1
  by_cases he : b.target.length = target.length
  · rw [atMost_of_length_eq (hd ▸ he), scope_of_covers hb (hp.eq_of_length he) hn, Scope.atMost.eq_def]
  · have hl := hp.length_le
    exact atMost_of_length_lt (by rw [hd]; omega)

theorem Pins.of_atMost (hb : b.Pins target fields) (hd : d.covers target fields = true) (h : b.atMost d = true) :
    d.Pins target fields := by
  obtain ⟨ht, name, hname, hs⟩ := hb
  have hp := (covers_iff.1 hd).1
  have hle : target.length ≤ d.target.length := by
    rw [atMost, ht] at h
    simp only [Bool.or_eq_true, decide_eq_true_eq, Bool.and_eq_true, beq_iff_eq] at h
    omega
  have hdt : d.target = target := hp.eq_of_length (Nat.le_antisymm hp.length_le hle)
  refine Classical.byContradiction fun hn => ?_
  rw [atMost_of_length_eq (by rw [ht, hdt]), hs, scope_of_covers hd hdt hn] at h
  cases h

end

end Directive

namespace Filter

open Directive (Pins)

section
variable {target : List Char} {fields : List (List Char)} {d : Directive}

theorem decide?_concat_of_not_covers (f : Filter) (h : d.covers target fields = false) :
    decide? (f ++ [d]) target fields = decide? f target fields := by
  simp [decide?, h]

theorem decide?_concat (f : Filter) (h : d.covers target fields = true) :
    decide? (f ++ [d]) target fields =
      (decide? f target fields).elim (some d) fun b => if b.atMost d then some d else some b := by
  rw [decide?, List.filter_append, List.filter_cons_of_pos h, List.filter_nil, List.foldl_append, ← decide?]
  cases decide? f target fields <;> rfl

theorem decide?_concat_cases (f : Filter) (d : Directive) :
    decide? (f ++ [d]) target fields = decide? f target fields ∨
      decide? (f ++ [d]) target fields = some d ∧ d.covers target fields = true := by
  cases hd : d.covers target fields with
  | false => exact .inl (decide?_concat_of_not_covers f hd)
  | true =>
    rw [decide?_concat f hd]
    cases decide? f target fields with
    | none => exact .inr ⟨rfl, rfl⟩
    | some b =>
      by_cases hb : b.atMost d = true
      · exact .inr ⟨if_pos hb, rfl⟩
      · exact .inl (if_neg hb)

theorem mem_of_decide? {f : Filter} {b : Directive} (h : decide? f target fields = some b) :
    b ∈ f ∧ b.covers target fields = true := by
  induction f using List.reverseRecOn generalizing b with
  | nil => cases h
  | append_singleton f d ih =>
    rcases decide?_concat_cases f d with he | ⟨he, hc⟩
    · obtain ⟨hb, hc⟩ := ih (he ▸ h)
      exact ⟨List.mem_append_left _ hb, hc⟩
    · cases he.symm.trans h
      exact ⟨by simp, hc⟩

theorem decide?_of_pins {f : Filter} (h : ∃ d ∈ f, Pins target fields d) :
    ∃ b, decide? f target fields = some b ∧ Pins target fields b := by
  induction f using List.reverseRecOn with
  | nil =>
    obtain ⟨d, hd, -⟩ := h
    cases hd
  | append_singleton f d ih =>
    obtain ⟨p, hp, hpins⟩ := h
    have hmem : p ∈ f ∨ p = d := by simpa using hp
    cases hd : d.covers target fields with
    | false =>
      rw [decide?_concat_of_not_covers f hd]
      rcases hmem with hp | rfl
      · exact ih ⟨p, hp, hpins⟩
      · rw [hpins.covers] at hd
        cases hd
    | true =>
      rw [decide?_concat f hd]
      rcases hmem with hp | rfl
      · obtain ⟨b, hb, hbp⟩ := ih ⟨p, hp, hpins⟩
        rw [hb, Option.elim_some]
        split
        · rename_i hle
          exact ⟨d, rfl, hbp.of_atMost hd hle⟩
        · exact ⟨b, rfl, hbp⟩
      · cases hb : decide? f target fields with
        | none => exact ⟨p, rfl, hpins⟩
        | some b =>
          rw [Option.elim_some]
          split
          · exact ⟨p, rfl, hpins⟩
          · rename_i hle
            refine ⟨b, rfl, Classical.byContradiction fun hn => hle ?_⟩
            exact Directive.atMost_of_not_pins (mem_of_decide? hb).2 hn hpins.1

/-! ## Levels -/

theorem levelFor_of_ne_nil {f : Filter} (h : f ≠ []) :
    levelFor f target fields = ((decide? f target fields).map (·.level)).getD .off := if_neg h

theorem ne_nil_of_decide? {f : Filter} {b : Directive} (h : decide? f target fields = some b) : f ≠ [] :=
  List.ne_nil_of_mem (mem_of_decide? h).1

theorem levelFor_concat {f : Filter} (h : ∀ d ∈ f, ¬ Pins target fields d) (l : Level) :
    levelFor (f ++ [⟨target, .all, l⟩]) target fields = l := by
  have hd : decide? (f ++ [⟨target, .all, l⟩]) target fields = some ⟨target, .all, l⟩ := by
    rw [decide?_concat f Directive.covers_all]
    cases hb : decide? f target fields with
    | none => rfl
    | some b =>
      obtain ⟨hmem, hc⟩ := mem_of_decide? hb
      rw [Option.elim_some, if_pos (Directive.atMost_of_not_pins hc (h b hmem) rfl)]
  rw [levelFor_of_ne_nil (ne_nil_of_decide? hd), hd]
  rfl

theorem levelFor_concat_of_pins {f : Filter} (h : ∃ d ∈ f, Pins target fields d) (l : Level) :
    levelFor (f ++ [⟨target, .all, l⟩]) target fields = levelFor f target fields := by
  obtain ⟨b, hb, hp⟩ := decide?_of_pins h
  have hle : ¬ b.atMost ⟨target, .all, l⟩ = true := by
    intro hle
    obtain ⟨-, name, -, hs⟩ := hp.of_atMost Directive.covers_all hle
    cases hs
  have hd : decide? (f ++ [⟨target, .all, l⟩]) target fields = decide? f target fields := by
    rw [decide?_concat f Directive.covers_all, hb, Option.elim_some, if_neg hle]
  rw [levelFor_of_ne_nil (ne_nil_of_decide? (hd.trans hb)), hd, levelFor_of_ne_nil (ne_nil_of_decide? hb)]

/-- A directive that is not about the event changes at most which of two levels stands for none, and neither of them
shows details. -/
theorem showsDebug_insert (f g : Filter) {d : Directive} (h : d.covers target fields = false) :
    (levelFor (f ++ d :: g) target fields).showsDebug = (levelFor (f ++ g) target fields).showsDebug := by
  have hd : decide? (f ++ d :: g) target fields = decide? (f ++ g) target fields := by simp [decide?, h]
  rw [levelFor_of_ne_nil (by simp), hd]
  by_cases hfg : f ++ g = []
  · rw [hfg]
    rfl
  · rw [levelFor_of_ne_nil hfg]

end

end Filter

end Preconditions.Logging
