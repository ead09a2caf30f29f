import Preconditions.Proofs.Json.Writing
import Preconditions.Report

/-!
# Documents of reports

The five fields of a report with the meaning of their values, and the round trip of a report through its document.
-/

namespace Preconditions

open Json

/-! ## Kinds -/

theorem Kind.lookup_name (k : Kind) : (Kind.all.map fun k => (k.name, k)).lookup k.name = some k := by
  cases k <;> rfl

def Kind.value? : Value → Option Kind := Value.variant? (Kind.all.map fun k => (k.name, k))

theorem Kind.value?_of_isText {k : Kind} {v : Value} (h : v.IsText k.name) : Kind.value? v = some k := by
  obtain ⟨hd⟩ := h
  simp [Kind.value?, Value.variant?, decode?_eq_some_iff.2 hd, k.lookup_name]

namespace Report

/-! ## Fields -/

inductive Part where
  | kind
  | code
  | message
  | parameter
  | index
deriving DecidableEq

def Part.Data : Part → Type
  | kind => Kind
  | code | message => String
  | parameter => Option String
  | index => Option UInt64

def layout : Layout Draft Part Part.Data where
  order := [.kind, .code, .message, .parameter, .index]
  name
    | .kind => "kind"
    | .code => "code"
    | .message => "message"
    | .parameter => "parameter"
    | .index => "index"
  get
    | .kind => Draft.kind
    | .code => Draft.code
    | .message => Draft.message
    | .parameter => Draft.parameter
    | .index => Draft.index
  set
    | .kind => fun d k => { d with kind := some k }
    | .code => fun d s => { d with code := some s }
    | .message => fun d s => { d with message := some s }
    | .parameter => fun d p => { d with parameter := some p }
    | .index => fun d i => { d with index := some i }
  reader
    | .kind => Kind.reader
    | .code | .message => .text
    | .parameter => .optional .text
    | .index => .optional .word64
  meaning
    | .kind => Kind.value?
    | .code | .message => Value.text?
    | .parameter => Value.optional? Value.text?
    | .index => Value.optional? Value.word64?
  mem_order i := by cases i <;> decide
  nodup_order := by decide
  name_inj {i j} h := by cases i <;> cases j <;> first | rfl | exact absurd h (by decide)
  get_set i d b := by cases i <;> rfl
  get_set_of_ne {i j} h d b := by cases i <;> cases j <;> first | rfl | exact absurd rfl h
  ext {d e} h := by
    obtain ⟨k, c, m, p, i⟩ := d
    obtain rfl : k = _ := h .kind
    obtain rfl : c = _ := h .code
    obtain rfl : m = _ := h .message
    obtain rfl : p = _ := h .parameter
    obtain rfl : i = _ := h .index
    rfl
  reads
    | .kind => variant_reads
    | .code | .message => text_reads
    | .parameter => optional_reads text_reads
    | .index => optional_reads word64_reads

theorem reads_layout : format.reader.Reads (layout.value? format) := layout.reads_record rfl

theorem ofJson_eq_ok_iff {text : String} {r : Report} :
    ofJson text = .ok r ↔ ∃ v, Document v text.toList ∧ layout.value? format v = some r :=
  reads_layout.decode_eq_ok_iff

/-! ## Round trip -/

theorem writes_optional {α : Type} {m : Value → Option α} {write : α → List Char}
    (h : ∀ a, ∃ v, Spells v (write a) ∧ Value.optional? m v = some (some a)) (name : String) (o : Option α) :
    ∃ vs : List Value, Writes (o.map fun a => (name, write a)).toList (vs.map fun v => (name, v)) ∧
      Fills (Value.optional? m) vs none (o.map some) := by
  cases o with
  | none => exact ⟨[], .nil, .none⟩
  | some a =>
    obtain ⟨v, hv, hm⟩ := h a
    exact ⟨[v], .cons hv .nil, .one hm⟩

theorem writtenText_parameter (s : String) :
    ∃ v, Spells v (writtenText s) ∧ Value.optional? Value.text? v = some (some s) := by
  obtain ⟨v, hv, hs⟩ := spells_writtenText s
  refine ⟨v, hv, ?_⟩
  have ht := Value.text?_eq_some_iff.2 hs
  have hn : v ≠ .null := by rintro rfl; cases hs
  rw [optional?_of_ne_null hn, ht]
  rfl

theorem writtenNat_index (i : UInt64) :
    ∃ v, Spells v (writtenNat i.toNat) ∧ Value.optional? Value.word64? v = some (some i) := by
  obtain ⟨l, hl, hn⟩ := spells_writtenNat i.toNat
  refine ⟨.number l, hl, ?_⟩
  have hlt : i.toNat < UInt64.size := i.toNat_lt
  rw [optional?_of_ne_null (by simp), Value.word64?, hn, Option.bind_some, if_pos hlt, UInt64.ofNat_toNat]
  rfl

def filled (r : Report) : Draft := ⟨some r.kind, some r.code, some r.message, r.parameter.map some, r.index.map some⟩

theorem finish_filled (r : Report) : format.finish r.filled = .ok r := by
  obtain ⟨kind, code, message, parameter, index⟩ := r
  cases parameter <;> cases index <;> rfl

theorem writes_members (r : Report) :
    ∃ vs, Writes r.members vs ∧
      ∀ i, Fills (layout.meaning i) (valuesOf (layout.name i) vs) none (layout.get i r.filled) := by
  obtain ⟨vk, hk, hkind⟩ := spells_writtenText r.kind.name
  obtain ⟨vc, hc, hcode⟩ := spells_writtenText r.code
  obtain ⟨vm, hm, hmessage⟩ := spells_writtenText r.message
  obtain ⟨ps, hp, hparameter⟩ := writes_optional writtenText_parameter "parameter" r.parameter
  obtain ⟨is, hi, hindex⟩ := writes_optional writtenNat_index "index" r.index
  refine ⟨[("kind", vk), ("code", vc), ("message", vm)] ++ ps.map (fun v => ("parameter", v)) ++
    is.map fun v => ("index", v), ((Writes.cons hk (.cons hc (.cons hm .nil))).append hp).append hi, fun i => ?_⟩
  rw [valuesOf_append, valuesOf_append]
  cases i with
  | kind =>
    rw [valuesOf_other (by decide), valuesOf_other (by decide)]
    exact .one (Kind.value?_of_isText hkind)
  | code =>
    rw [valuesOf_other (by decide), valuesOf_other (by decide)]
    exact .one (Value.text?_eq_some_iff.2 hcode)
  | message =>
    rw [valuesOf_other (by decide), valuesOf_other (by decide)]
    exact .one (Value.text?_eq_some_iff.2 hmessage)
  | parameter =>
    rw [show layout.name .parameter = "parameter" from rfl, valuesOf_same, valuesOf_other (by decide),
      List.append_nil]
    exact hparameter
  | index =>
    rw [show layout.name .index = "index" from rfl, valuesOf_other (by decide), valuesOf_same, List.append_nil]
    exact hindex

theorem ofJson_written (r : Report) : ofJson r.written = .ok r := by
  have hnew : ∀ i, layout.get i format.draft = none := by
    intro i
    cases i <;> rfl
  obtain ⟨vs, hw, hf⟩ := r.writes_members
  obtain ⟨ks, -, hks, hr⟩ := layout.value?_written hnew hw hf r.finish_filled
  refine ofJson_eq_ok_iff.2 ⟨.object ks, ?_, hr⟩
  rw [written, String.toList_ofList]
  exact hks.document

/-- **Round trip.** What is written of a report is read back as it is; so a rejection's report keeps its kind, its
code, its message, its parameter and its index. -/
theorem written_reads_back :
    (∀ r : Report, ofJson r.written = .ok r) ∧
    ∀ e : Rejection, ∃ r, ofJson e.report.written = .ok r ∧ r.kind = e.kind ∧ r.code = e.id.code ∧
      r.message = e.message ∧ r.parameter = e.parameter ∧ r.index = e.index :=
  ⟨ofJson_written, fun e => ⟨e.report, ofJson_written e.report, rfl, rfl, rfl, rfl, rfl⟩⟩

end Report

end Preconditions
