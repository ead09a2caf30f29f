import Preconditions.Check.Content

/-!
# Emptiness behind pointers

A pointer has the length of its target, and no verdict but the one by that length. So a check treats a value and a
pointer to it alike exactly when the value's own type goes by the length too. A type with a verdict of its own loses
it behind a pointer.
-/

namespace Preconditions

universe u

/-! ## Checks of a value -/

namespace Check
variable {α : Type u} [Emptiness α] {name : String}

theorem result_notEmpty (hn : name ≠ "") (v : α) :
    (notEmpty name v).result = if isEmptyValue v then .error (.emptyArgument name) else .ok v := by
  rw [notEmpty_of_ne hn]
  split <;> rfl

theorem isOk_notEmpty (hn : name ≠ "") (v : α) : (notEmpty name v).result.isOk = !isEmptyValue v := by
  rw [result_notEmpty hn]
  cases isEmptyValue v <;> rfl

end Check

/-! ## Verdicts by length -/

def Emptiness.ByLength {α : Type u} [Emptiness α] (v : α) : Prop := isEmptyValue v = true ↔ valueLen v = 0

namespace Pointed
variable {α : Type u} [Emptiness α]

theorem isEmptyValue_iff (k : PointerKind) (ks : List PointerKind) (v : α) :
    isEmptyValue (wrap (k :: ks) v) = true ↔ valueLen v = 0 := by
  rw [isEmptyValue_wrap_cons, beq_iff_eq]

theorem byLength_wrap (k : PointerKind) (ks : List PointerKind) (v : α) : Emptiness.ByLength (wrap (k :: ks) v) := by
  rw [Emptiness.ByLength, isEmptyValue_iff, valueLen_wrap]

theorem byLength_wrap_of {v : α} (h : Emptiness.ByLength v) (ks : List PointerKind) :
    Emptiness.ByLength (wrap ks v) := by
  cases ks with
  | nil => exact h
  | cons k ks => exact byLength_wrap k ks v

theorem isEmptyValue_eq_iff (k : PointerKind) (ks : List PointerKind) (v : α) :
    isEmptyValue (wrap (k :: ks) v) = isEmptyValue v ↔ Emptiness.ByLength v := by
  rw [Bool.eq_iff_iff, isEmptyValue_iff, Emptiness.ByLength]
  exact iff_comm

theorem isOk_notEmpty_eq_iff (k : PointerKind) (ks : List PointerKind) (v : α) {name : String} (hn : name ≠ "") :
    (Check.notEmpty name (wrap (k :: ks) v)).result.isOk = (Check.notEmpty name v).result.isOk ↔
      Emptiness.ByLength v := by
  rw [Check.isOk_notEmpty hn, Check.isOk_notEmpty hn, Bool.not_inj_iff, isEmptyValue_eq_iff]

/-- **Pointers forward the length.** Behind pointers a value keeps its length, and it is empty, and refused, when
that length is zero, whatever its own type says. The value itself is treated in the same way exactly when its type
goes by the length. -/
theorem verdict_by_length (k : PointerKind) (ks : List PointerKind) (v : α) {name : String} (hn : name ≠ "") :
    valueLen (wrap (k :: ks) v) = valueLen v ∧
    (isEmptyValue (wrap (k :: ks) v) = true ↔ valueLen v = 0) ∧
    (Check.notEmpty name (wrap (k :: ks) v)).result =
      (if valueLen v = 0 then .error (.emptyArgument name) else .ok (wrap (k :: ks) v)) ∧
    (Check.presentNotEmpty name (some (wrap (k :: ks) v))).result =
      (if valueLen v = 0 then .error (.emptyArgument name) else .ok (wrap (k :: ks) v)) ∧
    (isEmptyValue (wrap (k :: ks) v) = isEmptyValue v ↔ Emptiness.ByLength v) ∧
    ((Check.notEmpty name (wrap (k :: ks) v)).result.isOk = (Check.notEmpty name v).result.isOk ↔
      Emptiness.ByLength v) ∧
    ((Check.presentNotEmpty name (some (wrap (k :: ks) v))).result.isOk =
      (Check.presentNotEmpty name (some v)).result.isOk ↔ Emptiness.ByLength v) := by
  have hresult : (Check.notEmpty name (wrap (k :: ks) v)).result =
      if valueLen v = 0 then .error (.emptyArgument name) else .ok (wrap (k :: ks) v) := by
    rw [Check.result_notEmpty hn]
    simp only [isEmptyValue_iff]
  have hok := isOk_notEmpty_eq_iff k ks v hn
  refine ⟨valueLen_wrap _ v, isEmptyValue_iff k ks v, hresult, ?_, isEmptyValue_eq_iff k ks v, hok, ?_⟩
  · rwa [Check.presentNotEmpty_some]
  · rwa [Check.presentNotEmpty_some, Check.presentNotEmpty_some]

end Pointed

/-! ## A type with a verdict of its own -/

structure Judged where
  length : Nat
  empty : Bool
deriving DecidableEq, Hashable, Repr

instance : Emptiness Judged where
  valueLen j := j.length
  isEmptyValue j := j.empty

namespace Judged

open Preconditions.Pointed (wrap)

/-- Nothing is in it and yet it is not empty: it passes as it is, and is refused behind any pointer. -/
theorem verdict_by_length_judged :
    ("gauge" ≠ "") ∧ ¬ Emptiness.ByLength (⟨0, false⟩ : Judged) ∧
    (Check.notEmpty "gauge" (wrap [.shared, .boxed] (⟨0, false⟩ : Judged))).result =
      .error (.emptyArgument "gauge") ∧
    (Check.notEmpty "gauge" (wrap [.shared, .boxed] (⟨0, false⟩ : Judged))).result.isOk ≠
      (Check.notEmpty "gauge" (⟨0, false⟩ : Judged)).result.isOk := by
  have hn : "gauge" ≠ "" := by decide
  have hv : ¬ Emptiness.ByLength (⟨0, false⟩ : Judged) := fun h => Bool.noConfusion (h.2 rfl)
  obtain ⟨-, -, hresult, -, -, hok, -⟩ := Pointed.verdict_by_length .shared [.boxed] (⟨0, false⟩ : Judged) hn
  exact ⟨hn, hv, hresult, fun h => hv (hok.1 h)⟩

theorem verdict_not_forwarded :
    ¬ ∀ (α : Type) [Emptiness α] (v : α) (name : String) (k : PointerKind) (ks : List PointerKind), name ≠ "" →
      isEmptyValue (wrap (k :: ks) v) = isEmptyValue v ∧
      (Check.notEmpty name (wrap (k :: ks) v)).result.isOk = (Check.notEmpty name v).result.isOk ∧
      (Check.presentNotEmpty name (some (wrap (k :: ks) v))).result.isOk =
        (Check.presentNotEmpty name (some v)).result.isOk := by
  intro h
  have hv : isEmptyValue (wrap [.borrowed] (⟨0, false⟩ : Judged)) = isEmptyValue (⟨0, false⟩ : Judged) :=
    (h Judged ⟨0, false⟩ "gauge" .borrowed [] (by decide)).1
  exact Bool.noConfusion hv

end Judged

end Preconditions
