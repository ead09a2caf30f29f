import Preconditions.Proofs.Config.Documents
import Preconditions.Proofs.Json.TruncatedRecords
import Preconditions.Proofs.Report.Denotation

/-!
# Documents that are cut off

A document that ends in its value is not read when its end is missing, although members may be left out. Of a
document as it is written, what is missing is always found missing: no first part of it breaks the grammar, or
holds a value of another kind.
-/

namespace Preconditions

open Json

/-! ## Values -/

theorem Kind.closed_of_value? {v : Value} {k : Kind} (h : Kind.value? v = some k) : v.Closed := by
  obtain ⟨h⟩ | h := Kind.value?_eq_some_iff.1 h
  · obtain ⟨h⟩ := h
    exact .text _
  · exact .object _

/-! ## Written documents -/

theorem Observability.tapersOn_written (o : Observability) :
    ∃ v, Spells v (writtenObject o.members) ∧ layout.value? format v = some o ∧ format.reader.TapersOn v := by
  obtain ⟨v, hv, hs⟩ := spells_writtenText o.logLevel
  have hw : Writes o.members [("log_level", v), ("json_logs", .boolean o.jsonLogs)] :=
    .cons hv (.cons (spells_writtenBool o.jsonLogs) .nil)
  refine layout.tapersOn_written (d := ⟨some o.logLevel, some o.jsonLogs⟩) rfl ?_ hw ?_ ?_ rfl ?_
  · intro i
    cases i <;> rfl
  · exact List.forall_mem_cons.2 ⟨⟨.logLevel, rfl⟩, List.forall_mem_singleton.2 ⟨.jsonLogs, rfl⟩⟩
  · intro i
    cases i with
    | logLevel => exact .one (Value.text?_eq_some_iff.2 hs)
    | jsonLogs => exact .one rfl
  · intro i v _ b hb
    cases i with
    | logLevel => exact incremental_text.tapersOn text_reads hb
    | jsonLogs => exact incremental_boolean.tapersOn boolean_reads hb

theorem Config.tapersOn_written (c : Config) :
    ∃ v, Spells v (writtenObject [("observability", writtenObject c.observability.members)]) ∧
      layout.value? format v = some c ∧ format.reader.TapersOn v := by
  obtain ⟨v, hv, ho, ht⟩ := c.observability.tapersOn_written
  have hw : Writes [("observability", writtenObject c.observability.members)] [("observability", v)] :=
    .cons hv .nil
  refine layout.tapersOn_written (d := some c.observability) rfl (fun _ => rfl) hw ?_ (fun _ => .one ho) rfl ?_
  · exact List.forall_mem_singleton.2 ⟨(), rfl⟩
  · intro i v' hv' _ _
    obtain rfl : v' = v := List.mem_singleton.1 hv'
    exact ht

theorem Report.name_of_mem_optional {α : Type} {name : String} {write : α → List Char} {o : Option α}
    {m : String × List Char} (hm : m ∈ (o.map fun a => (name, write a)).toList) : m.1 = name := by
  cases o with
  | none => cases hm
  | some a => rw [List.mem_singleton.1 hm]

theorem Report.tapersOn_written (r : Report) :
    ∃ v, Spells v (writtenObject r.members) ∧ layout.value? format v = some r ∧ format.reader.TapersOn v := by
  obtain ⟨vs, hw, hf⟩ := r.writes_members
  refine layout.tapersOn_written rfl ?_ hw ?_ hf r.finish_filled ?_
  · intro i
    cases i <;> rfl
  · refine List.forall_mem_append.2 ⟨List.forall_mem_append.2 ⟨?_, fun m hm => ⟨.parameter, name_of_mem_optional hm⟩⟩,
      fun m hm => ⟨.index, name_of_mem_optional hm⟩⟩
    exact List.forall_mem_cons.2 ⟨⟨.kind, rfl⟩, List.forall_mem_cons.2 ⟨⟨.code, rfl⟩,
      List.forall_mem_singleton.2 ⟨.message, rfl⟩⟩⟩
  · intro i v _ b hb
    cases i with
    | kind => exact (incremental_variant _).tapersOn variant_reads hb
    | code => exact incremental_text.tapersOn text_reads hb
    | message => exact incremental_text.tapersOn text_reads hb
    | parameter =>
      refine optional_tapersOn (fun b hb => starved_refine _ hb) (fun v a ha => ?_) hb
      exact incremental_text.tapersOn text_reads ha
    | index => exact optional_tapersOn (fun b hb => starved_refine _ hb) (fun v a ha => word64_tapersOn ha) hb

theorem Config.load_of_refused {text : String} {e : Refusal} (h : ofJson text = .error e) :
    (load text).result = .error (malformed e.message) := by
  rw [load, h]
  rfl

/-! ## Cut documents -/

/-- No first part of what is read is read as well, if it does not only miss blanks. -/
def RefusesParts {α : Type} (decode : String → Except Refusal α) : Prop :=
  ∀ t a, decode t = .ok a → Trimmed t → ∀ p, CutOff p t → ∃ e, decode p = .error e

/-- **Documents that are cut off.** They are never read, whatever their members are; and of a written document each
first part is refused because it ends too early. Loading a configuration blames the text. -/
theorem cut_documents_refused :
    (RefusesParts Config.ofJson ∧ RefusesParts Observability.ofJson ∧ RefusesParts Report.ofJson ∧
      RefusesParts Kind.ofJson) ∧
    (∀ (c : Config) (p : String), CutOff p c.written → ∃ e, Config.ofJson p = .error e ∧
      e.cause.category = .truncated ∧ (Config.load p).result = .error (Config.malformed e.message)) ∧
    (∀ (r : Report) (p : String), CutOff p r.written → ∃ e, Report.ofJson p = .error e ∧
      e.cause.category = .truncated) ∧
    ∀ (t : String) (c : Config), Config.ofJson t = .ok c → Trimmed t → ∀ p, CutOff p t →
      ∃ reason, (Config.load p).result = .error (Config.malformed reason) := by
  have hconfig : RefusesParts Config.ofJson := fun _ _ ht hend _ hp =>
    Config.reads_denoted.decode_cutOff (fun _ _ => Config.layout.closed_of_value?) ht hend hp
  have hobservability : RefusesParts Observability.ofJson := fun _ _ ht hend _ hp =>
    Observability.reads_denoted.decode_cutOff (fun _ _ => Observability.layout.closed_of_value?) ht hend hp
  have hreport : RefusesParts Report.ofJson := fun _ _ ht hend _ hp =>
    Report.reads_layout.decode_cutOff (fun _ _ => Report.layout.closed_of_value?) ht hend hp
  have hkind : RefusesParts Kind.ofJson := fun _ _ ht hend _ hp =>
    variant_reads.decode_cutOff (fun _ _ => Kind.closed_of_value?) ht hend hp
  refine ⟨⟨hconfig, hobservability, hreport, hkind⟩, ?_, ?_, ?_⟩
  · intro c p hp
    obtain ⟨v, hv, hc, ht⟩ := c.tapersOn_written
    obtain ⟨e, he, hcat⟩ :=
      Config.reads_denoted.decode_written (fun _ _ => Config.layout.closed_of_value?) hv hc ht hp
    exact ⟨e, he, hcat, Config.load_of_refused he⟩
  · intro r p hp
    obtain ⟨v, hv, hr, ht⟩ := r.tapersOn_written
    exact Report.reads_layout.decode_written (fun _ _ => Report.layout.closed_of_value?) hv hr ht hp
  · intro t c ht hend p hp
    obtain ⟨e, he⟩ := hconfig t c ht hend p hp
    exact ⟨e.message, Config.load_of_refused he⟩

/-- A configuration whose level is cut short is refused, though every member of it may be left out. -/
theorem cut_documents_refused_level :
    Config.ofJson ({} : Config).written = .ok {} ∧ Trimmed ({} : Config).written ∧
      CutOff "\x7b\"observability\":\x7b\"log_level\":\"in" ({} : Config).written ∧
      (∃ reason, (Config.load "\x7b\"observability\":\x7b\"log_level\":\"in").result =
        .error (Config.malformed reason)) ∧
      ∃ e, Config.ofJson "\x7b\"observability\":\x7b\"log_level\":\"in" = .error e ∧
        e.cause.category = .truncated := by
  have hp : CutOff "\x7b\"observability\":\x7b\"log_level\":\"in" ({} : Config).written := by decide
  have hread := Config.ofJson_written {}
  obtain ⟨-, hwritten, -, hload⟩ := cut_documents_refused
  obtain ⟨e, he, hcat, -⟩ := hwritten {} _ hp
  exact ⟨hread, trimmed_written _, hp, hload _ {} hread (trimmed_written _) _ hp, e, he, hcat⟩

end Preconditions
