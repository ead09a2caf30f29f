import Preconditions.Proofs.Json.Unambiguity
import Preconditions.Proofs.Report.Documents

/-!
# Documents that denote a report

A document denotes a report when its value is an object that gives the kind, the code and the message once, and the
parameter and the index once at most; or a list of these in this order, which may end after the message. Exactly
these documents are read.
-/

namespace Preconditions

open Json

/-! ## Kinds -/

/-- The name of the kind; or an object with the name as its only key, and `null`. -/
inductive Kind.Denoted : Value → Kind → Prop where
  | name {v : Value} {k : Kind} : v.IsText k.name → Denoted v k
  | key {ps : List Piece} {k : Kind} : Decodes ps k.name.toList → Denoted (.object [(ps, .null)]) k

theorem Kind.lookup_eq_some_iff {name : String} {k : Kind} :
    (Kind.all.map fun k => (k.name, k)).lookup name = some k ↔ name = k.name := by
  constructor
  · intro h
    obtain ⟨l, r, hl, -⟩ := List.lookup_eq_some_iff.1 h
    have hm : (name, k) ∈ Kind.all.map fun k => (k.name, k) := by simp [hl]
    obtain ⟨k', -, hk'⟩ := List.mem_map.1 hm
    cases hk'
    rfl
  · rintro rfl
    exact k.lookup_name

theorem Kind.value?_eq_some_iff {v : Value} {k : Kind} : Kind.value? v = some k ↔ Denoted v k := by
  have hname : ∀ {ps : List Piece}, ((decode? ps).bind fun cs =>
      (Kind.all.map fun k => (k.name, k)).lookup (String.ofList cs)) = some k ↔ Decodes ps k.name.toList := by
    intro ps
    simp only [Option.bind_eq_some_iff, decode?_eq_some_iff, Kind.lookup_eq_some_iff]
    constructor
    · intro hx
      obtain ⟨cs, hcs, h⟩ := hx
      rwa [← h, String.toList_ofList]
    · exact fun h => ⟨_, h, String.ofList_toList⟩
  constructor
  · intro h
    unfold value? Value.variant? at h
    split at h
    · exact .name (.mk (hname.1 h))
    · exact .key (hname.1 h)
    · cases h
  · intro hx
    rcases hx with h | h
    · exact value?_of_isText h
    · exact hname.2 h

/-! ## Reports -/

namespace Report

inductive Denoted : Value → Report → Prop where
  | object {ms : List (List Piece × Value)} {r : Report} : KeysDecode ms →
      Required Kind.Denoted (given "kind" ms) r.kind →
      Required Value.IsText (given "code" ms) r.code →
      Required Value.IsText (given "message" ms) r.message →
      Setting (Value.Nullable Value.IsText) none (given "parameter" ms) r.parameter →
      Setting (Value.Nullable Value.IsWord) none (given "index" ms) r.index → Denoted (.object ms) r
  | list {kind code message : Value} {vs : List Value} {r : Report} : Kind.Denoted kind r.kind →
      code.IsText r.code → message.IsText r.message → vs.length ≤ 2 →
      Setting (Value.Nullable Value.IsText) none (vs.take 1) r.parameter →
      Setting (Value.Nullable Value.IsWord) none (vs.drop 1) r.index →
      Denoted (.list (kind :: code :: message :: vs)) r

theorem finish_eq_ok_iff {d : Draft} {r : Report} :
    d.finish = .ok r ↔ d.kind = some r.kind ∧ d.code = some r.code ∧ d.message = some r.message ∧
      d.parameter.join = r.parameter ∧ d.index.join = r.index := by
  obtain ⟨kind, code, message, parameter, index⟩ := d
  obtain ⟨kind', code', message', parameter', index'⟩ := r
  cases kind <;> cases code <;> cases message <;> simp [Draft.finish]

structure Assembles (vals : Part → List Value) (r : Report) : Prop where
  kind : Required Kind.Denoted (vals .kind) r.kind
  code : Required Value.IsText (vals .code) r.code
  message : Required Value.IsText (vals .message) r.message
  parameter : Setting (Value.Nullable Value.IsText) none (vals .parameter) r.parameter
  index : Setting (Value.Nullable Value.IsWord) none (vals .index) r.index

theorem assembles_iff {vals : Part → List Value} {r : Report} :
    Assembles vals r ↔ ∃ d : Draft, (∀ i, Fills (layout.meaning i) (vals i) none (layout.get i d)) ∧ d.finish = .ok r := by
  have hkind : ∀ v k, Kind.value? v = some k ↔ Kind.Denoted v k := fun v k => Kind.value?_eq_some_iff
  have htext : ∀ (v : Value) s, v.text? = some s ↔ v.IsText s := fun v s => Value.text?_eq_some_iff
  have hword : ∀ (v : Value) n, v.word64? = some n ↔ v.IsWord n := fun v n => Value.word64?_eq_some_iff
  constructor
  · intro h
    obtain ⟨p, hp, hpr⟩ := (nullable_setting htext rfl).1 h.parameter
    obtain ⟨i, hi, hir⟩ := (nullable_setting hword rfl).1 h.index
    refine ⟨⟨some r.kind, some r.code, some r.message, p, i⟩, fun part => ?_,
      finish_eq_ok_iff.2 ⟨rfl, rfl, rfl, hpr, hir⟩⟩
    cases part with
    | kind => exact (required_iff hkind).1 h.kind
    | code => exact (required_iff htext).1 h.code
    | message => exact (required_iff htext).1 h.message
    | parameter => exact hp
    | index => exact hi
  · intro hx
    obtain ⟨d, hf, hd⟩ := hx
    obtain ⟨hk, hc, hm, hp, hi⟩ := finish_eq_ok_iff.1 hd
    refine ⟨(required_iff hkind).2 ?_, (required_iff htext).2 ?_, (required_iff htext).2 ?_,
      (nullable_setting htext rfl).2 ⟨_, hf .parameter, hp⟩, (nullable_setting hword rfl).2 ⟨_, hf .index, hi⟩⟩
    · rw [← hk]
      exact hf .kind
    · rw [← hc]
      exact hf .code
    · rw [← hm]
      exact hf .message

theorem placed_list {kind code message : Value} {vs : List Value} (h : vs.length ≤ 2) :
    (fun i => placed i layout.order (kind :: code :: message :: vs)) = fun
      | .kind => [kind]
      | .code => [code]
      | .message => [message]
      | .parameter => vs.take 1
      | .index => vs.drop 1 := by
  funext i
  match vs, h with
  | [], _ | [_], _ | [_, _], _ => cases i <;> rfl

theorem length_list (kind code message : Value) (vs : List Value) :
    (kind :: code :: message :: vs).length ≤ layout.order.length ↔ vs.length ≤ 2 := by
  show vs.length + 1 + 1 + 1 ≤ 5 ↔ vs.length ≤ 2
  omega

theorem assembles_list {kind code message : Value} {vs : List Value} {r : Report} (h : vs.length ≤ 2) :
    Assembles (fun i => placed i layout.order (kind :: code :: message :: vs)) r ↔
      Kind.Denoted kind r.kind ∧ code.IsText r.code ∧ message.IsText r.message ∧
      Setting (Value.Nullable Value.IsText) none (vs.take 1) r.parameter ∧
      Setting (Value.Nullable Value.IsWord) none (vs.drop 1) r.index := by
  rw [placed_list h]
  constructor
  · intro ha
    exact ⟨required_one.1 ha.kind, required_one.1 ha.code, required_one.1 ha.message, ha.parameter, ha.index⟩
  · intro hx
    obtain ⟨hk, hc, hm, hp, hi⟩ := hx
    exact ⟨.mk hk, .mk hc, .mk hm, hp, hi⟩

theorem exists_of_assembles_list {vs : List Value} {r : Report}
    (h : Assembles (fun i => placed i layout.order vs) r) :
    ∃ kind code message rest, vs = kind :: code :: message :: rest := by
  rcases vs with _ | ⟨kind, _ | ⟨code, _ | ⟨message, rest⟩⟩⟩
  · exact absurd h.message required_nil
  · exact absurd h.message required_nil
  · exact absurd h.message required_nil
  · exact ⟨kind, code, message, rest, rfl⟩

theorem value?_eq_some_iff {v : Value} {r : Report} : layout.value? format v = some r ↔ Denoted v r := by
  have hnew : ∀ i, layout.get i format.draft = none := fun i => by cases i <;> rfl
  have hvals : layout.value? format v = some r ↔ ∃ vals, layout.Offers v vals ∧ Assembles vals r := by
    simp only [Layout.value?, Option.bind_eq_some_iff, toOption_eq_some_iff, layout.draft?_eq_some_iff hnew, assembles_iff]
    constructor
    · intro hx
      obtain ⟨d, ⟨vals, hv, hf⟩, hd⟩ := hx
      exact ⟨vals, hv, d, hf, hd⟩
    · intro hx
      obtain ⟨vals, hv, d, hf, hd⟩ := hx
      exact ⟨d, ⟨vals, hv, hf⟩, hd⟩
  rw [hvals]
  constructor
  · intro hx
    obtain ⟨vals, hv, ha⟩ := hx
    cases hv with
    | object hk => exact .object hk ha.kind ha.code ha.message ha.parameter ha.index
    | list hl =>
      obtain ⟨kind, code, message, rest, rfl⟩ := exists_of_assembles_list ha
      have hl := (length_list kind code message rest).1 hl
      obtain ⟨hk, hc, hm, hp, hi⟩ := (assembles_list hl).1 ha
      exact .list hk hc hm hl hp hi
  · intro hx
    rcases hx with ⟨hk, h₁, h₂, h₃, h₄, h₅⟩ | ⟨hk, hc, hm, hl, hp, hi⟩
    · exact ⟨_, .object hk, h₁, h₂, h₃, h₄, h₅⟩
    · exact ⟨_, .list ((length_list _ _ _ _).2 hl), (assembles_list hl).2 ⟨hk, hc, hm, hp, hi⟩⟩

theorem ofJson_iff_denoted {text : String} {r : Report} :
    ofJson text = .ok r ↔ ∃ v, Document v text.toList ∧ Denoted v r := by
  simp only [ofJson_eq_ok_iff, value?_eq_some_iff]

theorem ofJson_iff_of_document {text : String} {v : Value} (hv : Document v text.toList) {r : Report} :
    ofJson text = .ok r ↔ Denoted v r := by
  rw [ofJson_iff_denoted]
  constructor
  · intro hx
    obtain ⟨v', hv', hd⟩ := hx
    rwa [hv.unique hv']
  · exact fun hd => ⟨v, hv, hd⟩

theorem Denoted.unique {v : Value} {r s : Report} (hr : Denoted v r) (hs : Denoted v s) : r = s := by
  have h := value?_eq_some_iff.2 hr
  rw [value?_eq_some_iff.2 hs] at h
  cases h
  rfl

/-! ## Other members -/

def fieldNames : List String := ["kind", "code", "message", "parameter", "index"]

theorem denoted_congr {ms ms' : List (List Piece × Value)} {r : Report} (hk : KeysDecode ms) (hk' : KeysDecode ms')
    (h : ∀ name ∈ fieldNames, given name ms = given name ms') : Denoted (.object ms) r ↔ Denoted (.object ms') r := by
  have himp : ∀ {ms ms' : List (List Piece × Value)}, KeysDecode ms' →
      (∀ name ∈ fieldNames, given name ms = given name ms') → Denoted (.object ms) r → Denoted (.object ms') r := by
    intro ms ms' hk' h hx
    obtain ⟨-, h₁, h₂, h₃, h₄, h₅⟩ := hx
    rw [h _ (by decide)] at h₁ h₂ h₃ h₄ h₅
    exact .object hk' h₁ h₂ h₃ h₄ h₅
  exact ⟨himp hk' h, himp hk fun name hn => (h name hn).symm⟩

/-- **Documents of reports.** A text is read as `r` exactly when it spells a value that denotes `r`, and a text
spells one value at most. Members with other names change nothing, wherever they stand. -/
theorem ofJson_reports (text : String) (r : Report) :
    (ofJson text = .ok r ↔ ∃ v, Document v text.toList ∧ Denoted v r) ∧
    (∀ v, Document v text.toList → (ofJson text = .ok r ↔ Denoted v r)) ∧
    ∀ ms ms', KeysDecode ms → KeysDecode ms' →
      (∀ name ∈ fieldNames, given name ms = given name ms') →
      (Denoted (.object ms) r ↔ Denoted (.object ms') r) := by
  exact ⟨ofJson_iff_denoted, fun v hv => ofJson_iff_of_document hv, fun _ _ hk hk' h => denoted_congr hk hk' h⟩

theorem ofJson_reports_element :
    ∃ v, Document v (Rejection.missingElement "ids" 1).report.written.toList ∧
      Denoted v (Rejection.missingElement "ids" 1).report := by
  have h := ofJson_reports (Rejection.missingElement "ids" 1).report.written (Rejection.missingElement "ids" 1).report
  obtain ⟨v, hv, -⟩ := h.1.1 (ofJson_written _)
  exact ⟨v, hv, (h.2.1 v hv).1 (ofJson_written _)⟩

end Report

end Preconditions
