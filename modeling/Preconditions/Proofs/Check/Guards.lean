import Preconditions.Proofs.Emptiness.Pointers

/-!
# The order of the guards

A check of one value looks at the name first, then whether the value is there, and then at what is in it. The first
of these that fails takes the blame, under the caller's name or under a label of the check's own. Where nothing fails
the value comes back as it was given.
-/

namespace Preconditions.Check

universe u v

/-- What is decided of a value: `absence` is the blame where it is not there, and `empty` says when it is refused
for its content. -/
inductive Verdict {α : Type u} (name : String) (absence : Rejection) (empty : α → Prop) :
    Option α → Except Rejection α → Prop where
  | unnamed {value : Option α} : name = "" → Verdict name absence empty value (.error (.missingArgument "name"))
  | absent : name ≠ "" → Verdict name absence empty none (.error absence)
  | empty {a : α} : name ≠ "" → empty a → Verdict name absence empty (some a) (.error (.emptyArgument name))
  | passed {a : α} : name ≠ "" → ¬ empty a → Verdict name absence empty (some a) (.ok a)

section
variable {α : Type u} {name : String} {absence : Rejection} {empty : α → Prop} {value : Option α}
  {x : Except Rejection α}

theorem Verdict.unique {y : Except Rejection α} (h : Verdict name absence empty value x)
    (h' : Verdict name absence empty value y) : x = y := by
  cases h with
  | unnamed hn =>
    cases h' with
    | unnamed _ => rfl
    | absent hn' | empty hn' _ | passed hn' _ => exact absurd hn hn'
  | absent hn =>
    cases h' with
    | unnamed hn' => exact absurd hn' hn
    | absent _ => rfl
  | empty hn ha =>
    cases h' with
    | unnamed hn' => exact absurd hn' hn
    | empty _ _ => rfl
    | passed _ ha' => exact absurd ha ha'
  | passed hn ha =>
    cases h' with
    | unnamed hn' => exact absurd hn' hn
    | empty _ ha' => exact absurd ha' ha
    | passed _ _ => rfl

theorem Verdict.eq_iff {y : Except Rejection α} (h : Verdict name absence empty value y) :
    y = x ↔ Verdict name absence empty value x :=
  ⟨fun e => e ▸ h, h.unique⟩

theorem verdict_of_content {k : α → Checked α} (hfull : name ≠ "" → ∀ a, ¬ empty a → (k a).result = .ok a)
    (hempty : name ≠ "" → ∀ a, empty a → (k a).result = .error (.emptyArgument name)) :
    (named name ((present (Catalog.announced absence) value).bind k)).result = x ↔
      Verdict name absence empty value x := by
  apply Verdict.eq_iff
  by_cases hn : name = ""
  · subst hn
    rw [named_empty]
    exact .unnamed rfl
  · rw [named_of_ne hn]
    cases value with
    | none => exact .absent hn
    | some a =>
      have hk : ((present (Catalog.announced absence) (some a)).bind k).result = (k a).result := rfl
      rw [hk]
      by_cases ha : empty a
      · rw [hempty hn a ha]
        exact .empty hn ha
      · rw [hfull hn a ha]
        exact .passed hn ha

theorem present_bind_pass (r : Logged Rejection) (value : Option α) :
    (present r value).bind Checked.pass = present r value := by
  cases value <;> rfl

theorem verdict_of_presence : (named name (present (Catalog.announced absence) value)).result = x ↔
    Verdict name absence (fun _ => False) value x := by
  rw [← present_bind_pass]
  apply verdict_of_content
  · intro _ a _
    rfl
  · intro _ a h
    exact absurd h not_false

theorem verdict_presentNotEmpty [Emptiness α] : (presentNotEmpty name value).result = x ↔
    Verdict name (.missingArgument "value") (isEmptyValue · = true) value x := by
  apply verdict_of_content
  · intro hn a ha
    rw [result_notEmpty hn, if_neg ha]
  · intro hn a ha
    rw [result_notEmpty hn, if_pos ha]

/-! ## Two blames for absence -/

theorem Verdict.ok_congr {r r' : Rejection} {a : α} (h : Verdict name r empty value (.ok a)) :
    Verdict name r' empty value (.ok a) := by
  cases h with
  | passed hn ha => exact .passed hn ha

theorem Verdict.error_cases {r : Rejection} (h : Verdict name absence (fun _ => False) value (.error r)) :
    (name = "" ∧ r = .missingArgument "name") ∨ (name ≠ "" ∧ r = absence) := by
  cases h with
  | unnamed hn => exact .inl ⟨hn, rfl⟩
  | absent hn => exact .inr ⟨hn, rfl⟩
  | empty _ h => exact absurd h not_false

theorem notNullStrict_ok_iff {a : α} :
    (notNullStrict name value).result = .ok a ↔ (notNull name value).result = .ok a := by
  rw [notNullStrict, notNull, Catalog.nullReference, Catalog.missingArgument, verdict_of_presence, verdict_of_presence]
  exact ⟨Verdict.ok_congr, Verdict.ok_congr⟩

theorem notNullStrict_blame {r r' : Rejection} (h : (notNull name value).result = .error r)
    (h' : (notNullStrict name value).result = .error r') :
    r.parameter = r'.parameter ∧ r.index = r'.index ∧ r.status = r'.status ∧ (name = "" → r = r') ∧
      (name ≠ "" → r.kind ≠ r'.kind ∧ r.id ≠ r'.id) := by
  rw [notNull, Catalog.missingArgument, verdict_of_presence] at h
  rw [notNullStrict, Catalog.nullReference, verdict_of_presence] at h'
  rcases h.error_cases with ⟨hn, hr⟩ | ⟨hn, hr⟩ <;> rcases h'.error_cases with ⟨hn', hr'⟩ | ⟨hn', hr'⟩
  · rw [hr, hr']
    simp [hn]
  · exact absurd hn hn'
  · exact absurd hn' hn
  · rw [hr, hr']
    simp [hn, Rejection.parameter, Rejection.index, Rejection.status, Rejection.kind, Rejection.id, Kind.status]

end

/-- **The order of the guards.** The five checks of one value decide in the order of `Verdict`; they differ in the
blame for absence and in whether they look at the content. The strict check passes what the general one passes and
blames the same parameter. A value that is there is checked for emptiness in one way. -/
theorem guards_in_order {α : Type u} {β : Type v} [Emptiness β] (name : String) (index : UInt64) (value : Option α)
    (content : Option β) (v : β) :
    (∀ x, (notNull name value).result = x ↔
      Verdict name (.missingArgument name) (fun _ => False) value x) ∧
    (∀ x, (notNullStrict name value).result = x ↔
      Verdict name (.nullReference name) (fun _ => False) value x) ∧
    (∀ x, (notNullElement name index value).result = x ↔
      Verdict name (.missingElement name index) (fun _ => False) value x) ∧
    (∀ x, (notEmpty name v).result = x ↔
      Verdict name (.missingArgument "value") (isEmptyValue · = true) (some v) x) ∧
    (∀ x, (presentNotEmpty name content).result = x ↔
      Verdict name (.missingArgument "value") (isEmptyValue · = true) content x) ∧
    (∀ a, (notNullStrict name value).result = .ok a ↔ (notNull name value).result = .ok a) ∧
    (∀ r r', (notNull name value).result = .error r → (notNullStrict name value).result = .error r' →
      r.parameter = r'.parameter ∧ r.index = r'.index ∧ r.status = r'.status ∧ (name = "" → r = r') ∧
        (name ≠ "" → r.kind ≠ r'.kind ∧ r.id ≠ r'.id)) ∧
    presentNotEmpty name (some v) = notEmpty name v := by
  refine ⟨fun x => verdict_of_presence, fun x => verdict_of_presence, fun x => verdict_of_presence, ?_,
    fun x => verdict_presentNotEmpty, fun a => notNullStrict_ok_iff, fun r r' => notNullStrict_blame,
    presentNotEmpty_some name v⟩
  intro x
  rw [← presentNotEmpty_some]
  exact verdict_presentNotEmpty

/-- A parameter that is called like one of the labels is blamed under its own name where it is absent, except by the
check that asks for content too. -/
theorem guards_in_order_label :
    "name" ≠ "" ∧ (notNull "name" (none : Option Nat)).result = .error (.missingArgument "name") ∧
    (notNullStrict "name" (none : Option Nat)).result = .error (.nullReference "name") ∧
    (Rejection.missingArgument "name").kind ≠ (Rejection.nullReference "name").kind ∧
    (presentNotEmpty "name" (none : Option String)).result = .error (.missingArgument "value") := by
  have hn : "name" ≠ "" := by decide
  obtain ⟨hg, hs, -, -, hp, -, hblame, -⟩ := guards_in_order "name" 0 (none : Option Nat) (none : Option String) "host"
  have hg := (hg _).2 (.absent hn)
  have hs := (hs _).2 (.absent hn)
  exact ⟨hn, hg, hs, ((hblame _ _ hg hs).2.2.2.2 hn).1, (hp _).2 (.absent hn)⟩

end Preconditions.Check
