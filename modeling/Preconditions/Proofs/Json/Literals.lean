import Preconditions.Json.Writing
import Preconditions.Proofs.Json.Writing
import Preconditions.Proofs.Text.Escapes

/-!
# The literals of a document

A document tells which texts stand in it: outside of its literals there is no quote, and inside of them every quote is
escaped. So its literals are known from its characters, whatever the texts contain.
-/

namespace Preconditions.Json

open Text (Shielded)

/-! ## Documents by their literals -/

/-- The texts whose literals stand in a document one after the other. Between them there is no quote, and within each
no quote is bare; a reader takes each literal for its text whatever follows. -/
inductive Literals : List String → List Char → Prop
  | nil : Literals [] []
  | other {c : Char} {ts : List String} {s : List Char} (hc : 0x20 ≤ c.toNat) (hq : c ≠ '"') (h : Literals ts s) :
      Literals ts (c :: s)
  | literal {t : String} {body : List Char} {ts : List String} {s : List Char} (hb : Shielded body)
      (ht : ∀ rest, textBody (body ++ '"' :: rest) = .ok (t.toList, rest)) (h : Literals ts s) :
      Literals (t :: ts) ('"' :: (body ++ '"' :: s))

namespace Literals

variable {ts us : List String} {s w : List Char}

theorem append (hs : Literals ts s) (hw : Literals us w) : Literals (ts ++ us) (s ++ w) := by
  induction hs with
  | nil => exact hw
  | other hc hq _ ih => exact .other hc hq ih
  | literal hb ht _ ih =>
    simp only [List.cons_append, List.append_assoc]
    exact .literal hb ht ih

theorem of_other (h : ∀ c ∈ s, 0x20 ≤ c.toNat ∧ c ≠ '"') : Literals [] s := by
  induction s with
  | nil => exact .nil
  | cons c s ih =>
    obtain ⟨hc, hq⟩ := h c (by simp)
    exact .other hc hq (ih fun d hd => h d (by simp [hd]))

theorem no_control (h : Literals ts s) : ∀ c ∈ s, 0x20 ≤ c.toNat := by
  induction h with
  | nil => simp
  | other hc _ _ ih => exact List.forall_mem_cons.2 ⟨hc, ih⟩
  | literal hb _ _ ih =>
    refine List.forall_mem_cons.2 ⟨by decide, List.forall_mem_append.2 ⟨hb.no_control, ?_⟩⟩
    exact List.forall_mem_cons.2 ⟨by decide, ih⟩

theorem at_quote (h : Literals ts ('"' :: w)) :
    ∃ t body us s, ts = t :: us ∧ w = body ++ '"' :: s ∧ Shielded body ∧
      (∀ rest, textBody (body ++ '"' :: rest) = .ok (t.toList, rest)) ∧ Literals us s := by
  cases h with
  | other _ hq _ => exact absurd rfl hq
  | literal hb ht h => exact ⟨_, _, _, _, rfl, rfl, hb, ht, h⟩

theorem unique (hts : Literals ts s) (hus : Literals us s) : ts = us := by
  induction hts generalizing us with
  | nil =>
    cases hus
    rfl
  | other _ hq _ ih =>
    cases hus with
    | other _ _ h => exact ih h
    | literal _ _ _ => exact absurd rfl hq
  | literal hb ht _ ih =>
    obtain ⟨t', body', us', s', rfl, he, hb', ht', h'⟩ := hus.at_quote
    obtain ⟨rfl, rfl⟩ := hb.ends_at_quote hb' he
    have hread := (ht []).symm.trans (ht' [])
    rw [Except.ok.injEq, Prod.mk.injEq] at hread
    rw [String.toList_injective hread.1, ih h']

end Literals

/-! ## What is written -/

theorem shielded_writtenChar (c : Char) : Shielded (writtenChar c) := by
  unfold writtenChar
  split
  · exact .escape (by decide) .nil
  split
  · exact .escape (by decide) .nil
  split
  · exact .escape (by decide) .nil
  split
  · exact .escape (by decide) .nil
  split
  · exact .escape (by decide) .nil
  split
  · exact .escape (by decide) .nil
  split
  · exact .escape (by decide) .nil
  split
  · rename_i hc
    have hlt : c.toNat < 0x20 := of_decide_eq_true hc
    refine .escape (by decide) (.of_bare fun d hd => ?_)
    simp only [List.mem_cons, List.not_mem_nil, or_false] at hd
    rcases hd with rfl | rfl | rfl | rfl
    · rfl
    · rfl
    · exact (Text.isBare_digitChar (by omega)).1
    · exact (Text.isBare_digitChar (by omega)).1
  · rename_i hq hb _ _ _ _ _ hc
    have hle : ¬ c.toNat < 0x20 := of_decide_eq_false (Bool.eq_false_iff.2 hc)
    exact .bare (Text.isBare_iff.2 ⟨by omega, hq, hb⟩) .nil

theorem literals_writtenText (t : String) : Literals [t] (writtenText t) := by
  have h : Literals [t] ('"' :: (t.toList.flatMap writtenChar ++ '"' :: [])) :=
    .literal (Shielded.flatMap shielded_writtenChar _) (textBody_written t.toList) .nil
  exact h

theorem literals_writtenNat (n : Nat) : Literals [] (writtenNat n) := by
  refine .of_other fun c hc => ?_
  obtain ⟨hle, hq, -⟩ := Text.isBare_iff.1 (Text.isBare_of_mem_toDigits (by decide) (by decide) hc)
  exact ⟨hle, hq⟩

inductive Tells : List (String × List Char) → List String → Prop
  | nil : Tells [] []
  | cons {name : String} {w : List Char} {us : List String} {ms : List (String × List Char)} {ts : List String} :
      Literals us w → Tells ms ts → Tells ((name, w) :: ms) (name :: us ++ ts)

theorem Tells.append {ms ms' : List (String × List Char)} {ts ts' : List String} (h : Tells ms ts)
    (h' : Tells ms' ts') : Tells (ms ++ ms') (ts ++ ts') := by
  induction h with
  | nil => exact h'
  | @cons name w us ms ts hw _ ih =>
    rw [List.append_assoc]
    exact .cons hw ih

theorem literals_writtenMember {name : String} {w : List Char} {us : List String} (h : Literals us w) :
    Literals (name :: us) (writtenMember (name, w)) :=
  (literals_writtenText name).append (.other (by decide) (by decide) h)

theorem Tells.members {ms : List (String × List Char)} {ts : List String} (h : Tells ms ts) :
    Literals ts ((ms.map writtenMember).flatMap (',' :: ·)) := by
  induction h with
  | nil => exact .nil
  | cons hw _ ih => exact .other (by decide) (by decide) ((literals_writtenMember hw).append ih)

theorem literals_writtenObject {ms : List (String × List Char)} {ts : List String} (h : Tells ms ts) :
    Literals ts (writtenObject ms) := by
  have hbody : Literals ts ([','].intercalate (ms.map writtenMember)) := by
    cases h with
    | nil => exact .nil
    | cons hw h =>
      rw [List.map_cons, intercalate_cons]
      exact (literals_writtenMember hw).append h.members
  have hclose : Literals [] ['}'] := .other (by decide) (by decide) .nil
  have h := Literals.other (c := '{') (by decide) (by decide) (hbody.append hclose)
  rwa [List.append_nil] at h

end Preconditions.Json
