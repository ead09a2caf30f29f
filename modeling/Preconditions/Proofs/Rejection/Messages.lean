import Preconditions.Proofs.Json.Numbers
import Preconditions.Proofs.MessageId.Codes
import Preconditions.Proofs.Report.Documents

/-!
# Messages tell rejections apart

A code has a fixed width and shows its number, so a message splits into its code and its wording. The code tells
which rejection it is, and then the wording gives back what was put into it. Names are put in as they are, and may
look like any part of a message.
-/

namespace Preconditions

namespace Rejection

/-! ## Constructors -/

inductive SameConstructor : Rejection → Rejection → Prop where
  | missingArgument (m n : String) : SameConstructor (.missingArgument m) (.missingArgument n)
  | nullReference (m n : String) : SameConstructor (.nullReference m) (.nullReference n)
  | missingElement (m n : String) (i j : UInt64) : SameConstructor (.missingElement m i) (.missingElement n j)
  | emptyArgument (m n : String) : SameConstructor (.emptyArgument m) (.emptyArgument n)
  | invalidUsage (m n : String) : SameConstructor (.invalidUsage m) (.invalidUsage n)

theorem id_eq_iff {a b : Rejection} : a.id = b.id ↔ SameConstructor a b := by
  constructor
  · intro h
    cases a <;> cases b <;> first | constructor | simp [id] at h
  · intro h
    cases h <;> rfl

theorem SameConstructor.kind_eq {a b : Rejection} (h : SameConstructor a b) : a.kind = b.kind := by
  cases h <;> rfl

/-! ## Wordings -/

theorem text_between {pre post s t : String} (h : pre ++ s ++ post = pre ++ t ++ post) : s = t := by
  rwa [String.append_left_inj, String.append_right_inj] at h

theorem numeral_then_blank {m n : Nat} {s t : List Char}
    (h : Nat.toDigits 10 m ++ ' ' :: s = Nat.toDigits 10 n ++ ' ' :: t) : m = n ∧ s = t := by
  have hd : ∀ k : Nat, ∀ c ∈ Nat.toDigits 10 k, c.isDigit = true := fun k c hc =>
    Nat.isDigit_of_mem_toDigits (by decide) (by decide) hc
  have hb : ∀ u : List Char, Json.NoDigit (' ' :: u) := fun u => Json.noDigit_cons rfl
  have hi := congrArg (List.takeWhile Char.isDigit) h
  rw [Json.takeWhile_digits (hd m) (hb s), Json.takeWhile_digits (hd n) (hb t)] at hi
  obtain rfl : m = n := by rw [← @Nat.ofDigitChars_ten_toDigits m, hi, Nat.ofDigitChars_ten_toDigits]
  rw [List.append_cancel_left_eq, List.cons.injEq] at h
  exact ⟨rfl, h.2⟩

theorem toList_wording_missingElement (name : String) (index : UInt64) :
    (missingElement name index).wording.toList = "Array index ".toList ++ (Nat.toDigits 10 index.toNat ++
      ' ' :: ("of parameter '".toList ++ name.toList ++ "' may not be null".toList)) := by
  unfold wording
  simp [Nat.toString_eq_repr, Nat.toList_repr]

theorem wording_missingElement_inj {m n : String} {i j : UInt64}
    (h : (missingElement m i).wording = (missingElement n j).wording) : m = n ∧ i = j := by
  have hl := congrArg String.toList h
  rw [toList_wording_missingElement, toList_wording_missingElement, List.append_cancel_left_eq] at hl
  obtain ⟨hi, hn⟩ := numeral_then_blank hl
  rw [List.append_cancel_right_eq, List.append_cancel_left_eq] at hn
  exact ⟨String.toList_injective hn, UInt64.toNat_inj.1 hi⟩

theorem eq_of_wording {a b : Rejection} (hc : SameConstructor a b) (h : a.wording = b.wording) : a = b := by
  cases hc with
  | missingArgument m n => rw [text_between h]
  | nullReference m n => rw [text_between h]
  | missingElement m n i j =>
    obtain ⟨rfl, rfl⟩ := wording_missingElement_inj h
    rfl
  | emptyArgument m n => rw [text_between h]
  | invalidUsage m n => rw [(String.append_right_inj _).1 h]

/-! ## Messages -/

theorem message_inj {a b : Rejection} (h : a.message = b.message) : a = b := by
  have hl := congrArg String.toList h
  simp only [message, String.toList_append, List.append_assoc] at hl
  obtain ⟨hcode, hrest⟩ := List.append_inj hl (by rw [a.id.length_code, b.id.length_code])
  have hid : a.id = b.id := MessageId.code_inj (String.toList_injective hcode)
  rw [List.append_cancel_left_eq] at hrest
  exact eq_of_wording (id_eq_iff.1 hid) (String.toList_injective hrest)

theorem written_inj {r s : Report} (h : r.written = s.written) : r = s := by
  have hr := Report.ofJson_written r
  rw [h, Report.ofJson_written] at hr
  cases hr
  rfl

/-- **A rejection is known by its text.** Its message, its report and the document of its report each determine it;
its message number determines how it was built, and so its kind. -/
theorem determined_by_text (a b : Rejection) :
    (a = b ↔ a.message = b.message) ∧ (a = b ↔ a.report = b.report) ∧
    (a = b ↔ a.report.written = b.report.written) ∧
    (a.id = b.id ↔ SameConstructor a b) ∧ (a.id = b.id → a.kind = b.kind) := by
  have hreport : a.report = b.report → a = b := fun h => message_inj (congrArg Report.message h)
  refine ⟨⟨congrArg message, message_inj⟩, ⟨congrArg report, hreport⟩, ⟨?_, fun h => hreport (written_inj h)⟩,
    id_eq_iff, fun h => (id_eq_iff.1 h).kind_eq⟩
  rintro rfl
  rfl

/-- The first name imitates the text that stands before a name. -/
theorem determined_by_text_imitation :
    (missingElement "1 of parameter 'ids" 1).message ≠ (missingElement "ids" 1).message ∧
    (missingElement "1 of parameter 'ids" 1).kind = (missingElement "ids" 1).kind := by
  have h := determined_by_text (missingElement "1 of parameter 'ids" 1) (missingElement "ids" 1)
  exact ⟨fun hm => absurd (h.1.2 hm) (by simp), h.2.2.2.2 rfl⟩

end Rejection

end Preconditions
