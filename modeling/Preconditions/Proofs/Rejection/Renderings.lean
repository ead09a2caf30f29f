import Preconditions.Logging.Record
import Preconditions.Proofs.Json.Literals
import Preconditions.Proofs.Rejection.Messages

/-!
# Renderings that cannot be forged

What is put into a rejection goes into a line of the log and into the document of its report. The line stays one line
and tells the event; the document has the texts of the report and no others, whatever they look like.
-/

namespace Preconditions

/-! ## Lines -/

theorem Kind.title_inj {a b : Kind} (h : a.title = b.title) : a = b := by
  cases a <;> cases b <;> first | rfl | exact absurd h (by decide)

theorem Kind.title_then_blank {a b : Kind} {s t : List Char}
    (h : a.title.toList ++ ' ' :: s = b.title.toList ++ ' ' :: t) : a = b ∧ s = t := by
  have hblank : ∀ k : Kind, ∀ c ∈ k.title.toList, decide (c ≠ ' ') = true := by
    intro k
    cases k <;> exact List.all_eq_true.1 rfl
  have ht := congrArg (List.takeWhile (· ≠ ' ')) h
  rw [List.takeWhile_append_of_pos (hblank a), List.takeWhile_append_of_pos (hblank b)] at ht
  simp only [ne_eq, not_true_eq_false, decide_false, Bool.false_eq_true, not_false_eq_true,
    List.takeWhile_cons_of_neg, List.append_nil] at ht
  obtain rfl := Kind.title_inj (String.toList_injective ht)
  rw [List.append_cancel_left_eq, List.cons.injEq] at h
  exact ⟨rfl, h.2⟩

theorem Kind.no_control_title (k : Kind) : ∀ c ∈ k.title.toList, 0x20 ≤ c.toNat := by
  cases k <;> exact Text.no_control_of_bare rfl

theorem MessageId.no_control_code (id : MessageId) : ∀ c ∈ id.code.toList, 0x20 ≤ c.toNat := by
  rw [toList_code, padded]
  refine List.forall_mem_append.2 ⟨Text.no_control_of_bare rfl, List.forall_mem_append.2 ⟨?_, ?_⟩⟩
  · intro c hc
    rw [List.eq_of_mem_replicate hc]
    decide
  · intro c hc
    exact (Text.isBare_iff.1 (Text.isBare_of_mem_toDigits (by decide) (by decide) hc)).1

namespace Logging

theorem toList_line (e : Event) :
    (line e).toList = "DEBUG param_check::messages: parameter_rejected code=".toList ++ (e.id.code.toList ++
      (" kind=".toList ++ (e.kind.title.toList ++ ' ' :: ("parameter=".toList ++ (Text.quoted e.parameter).toList)))) := by
  unfold line
  simp only [String.toList_append, List.append_assoc]
  rfl

theorem no_control_line (e : Event) : ∀ c ∈ (line e).toList, 0x20 ≤ c.toNat := by
  rw [toList_line]
  refine List.forall_mem_append.2 ⟨Text.no_control_of_bare rfl, List.forall_mem_append.2 ⟨e.id.no_control_code, ?_⟩⟩
  refine List.forall_mem_append.2 ⟨Text.no_control_of_bare rfl, List.forall_mem_append.2 ⟨e.kind.no_control_title, ?_⟩⟩
  refine List.forall_mem_cons.2 ⟨by decide, List.forall_mem_append.2 ⟨Text.no_control_of_bare rfl, ?_⟩⟩
  exact Text.no_control_quoted e.parameter

theorem line_inj {a b : Event} (h : line a = line b) : a = b := by
  have hl := congrArg String.toList h
  rw [toList_line, toList_line, List.append_cancel_left_eq] at hl
  obtain ⟨hcode, hl⟩ := List.append_inj hl (by rw [a.id.length_code, b.id.length_code])
  rw [List.append_cancel_left_eq] at hl
  obtain ⟨hkind, hl⟩ := Kind.title_then_blank hl
  rw [List.append_cancel_left_eq] at hl
  have hid : a.id = b.id := MessageId.code_inj (String.toList_injective hcode)
  have hparameter : a.parameter = b.parameter := Text.quoted_inj (String.toList_injective hl)
  cases a
  cases b
  simp only at hid hkind hparameter
  rw [hid, hkind, hparameter]

theorem compact_record_inj {a b : Event} (h : Format.compact.record a = Format.compact.record b) : a = b := by
  rw [Format.record, Format.record, Record.line.injEq] at h
  exact line_inj h

end Logging

/-! ## Documents -/

namespace Report

/-- The texts of a report as its document has them, each after the name of its field. -/
def texts (r : Report) : List String :=
  ["kind", r.kind.name, "code", r.code, "message", r.message] ++
    (r.parameter.map fun p => ["parameter", p]).getD [] ++ (r.index.map fun _ => ["index"]).getD []

theorem tells_members (r : Report) : Json.Tells r.members r.texts := by
  have hrequired : Json.Tells [("kind", Json.writtenText r.kind.name), ("code", Json.writtenText r.code),
      ("message", Json.writtenText r.message)] ["kind", r.kind.name, "code", r.code, "message", r.message] :=
    .cons (Json.literals_writtenText _) (.cons (Json.literals_writtenText _)
      (.cons (Json.literals_writtenText _) .nil))
  have hparameter : Json.Tells (r.parameter.map fun p => ("parameter", Json.writtenText p)).toList
      ((r.parameter.map fun p => ["parameter", p]).getD []) := by
    cases r.parameter with
    | none => exact .nil
    | some p => exact .cons (Json.literals_writtenText p) .nil
  have hindex : Json.Tells (r.index.map fun i => ("index", Json.writtenNat i.toNat)).toList
      ((r.index.map fun _ => ["index"]).getD []) := by
    cases r.index with
    | none => exact .nil
    | some i => exact .cons (Json.literals_writtenNat i.toNat) .nil
  exact (hrequired.append hparameter).append hindex

theorem literals_written (r : Report) : Json.Literals r.texts r.written.toList := by
  rw [written, String.toList_ofList]
  exact Json.literals_writtenObject r.tells_members

end Report

namespace Rejection

/-- **Renderings that cannot be forged.** Whatever text is put into rejections, the compact record of an event is a
line without control characters, and events with equal records are equal; the document of a report has no control
character either, and the texts of the report are the ones that stand in it between quotes that are not escaped. -/
theorem renderings_unforgeable (a b : Rejection) :
    (∀ e ∈ (Catalog.announced a).events, ∃ text, Logging.Format.compact.record e = .line text ∧
      (∀ c ∈ text.toList, 0x20 ≤ c.toNat) ∧ '\n' ∉ text.toList) ∧
    (∀ e ∈ (Catalog.announced a).events, ∀ e' ∈ (Catalog.announced b).events,
      Logging.Format.compact.record e = Logging.Format.compact.record e' →
        e.id.code = e'.id.code ∧ e.kind = e'.kind ∧ e.parameter = e'.parameter) ∧
    (∀ c ∈ a.report.written.toList, 0x20 ≤ c.toNat) ∧
    ∀ ts, Json.Literals ts a.report.written.toList ↔ ts = a.report.texts := by
  refine ⟨?_, ?_, a.report.literals_written.no_control, ?_⟩
  · intro e _
    have hline := Logging.no_control_line e
    exact ⟨_, rfl, hline, fun h => absurd (hline _ h) (by decide)⟩
  · intro e _ e' _ h
    obtain rfl := Logging.compact_record_inj h
    exact ⟨rfl, rfl, rfl⟩
  · intro ts
    constructor
    · intro h
      exact h.unique a.report.literals_written
    · rintro rfl
      exact a.report.literals_written

/-- A name with a line break, against one that looks like it once it is quoted; the report of the first. -/
theorem renderings_unforgeable_break :
    (∃ text, Logging.Format.compact.record (event (.nullReference "a\nb")) = .line text ∧
      (∀ c ∈ text.toList, 0x20 ≤ c.toNat) ∧ '\n' ∉ text.toList) ∧
    Logging.Format.compact.record (event (.nullReference "a\nb")) ≠
      Logging.Format.compact.record (event (.nullReference "a\\nb")) ∧
    Json.Literals ["kind", "null_reference", "code", "PARAM000038", "message",
      "PARAM000038: Argument a\nb cannot be null (null reference)", "parameter", "a\nb"]
      (report (.nullReference "a\nb")).written.toList := by
  obtain ⟨hline, hrecord, -, htexts⟩ := renderings_unforgeable (.nullReference "a\nb") (.nullReference "a\\nb")
  refine ⟨hline _ (List.mem_singleton_self _), ?_, (htexts _).2 (by decide)⟩
  intro h
  obtain ⟨-, -, hparameter⟩ := hrecord _ (List.mem_singleton_self _) _ (List.mem_singleton_self _) h
  exact absurd hparameter (by decide)

end Rejection

end Preconditions
