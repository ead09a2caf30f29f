import Preconditions.Proofs.Config.Validity
import Preconditions.Proofs.Json.Unambiguity
import Preconditions.Proofs.Json.Writing

/-!
# Documents of configurations

A document denotes a configuration when its value is an object or a list that gives each field at most once, with
a value of the right kind. Exactly these documents are read.
-/

namespace Preconditions

open Json

/-! ## What a value denotes -/

/-- At most one `log_level` and one `json_logs`; or a list with the two in this order, which may end early. -/
inductive Observability.Denoted : Value → Observability → Prop where
  | object {ms : List (List Piece × Value)} {o : Observability} : KeysDecode ms →
      Setting Value.IsText "info" (given "log_level" ms) o.logLevel →
      Setting Value.IsBoolean false (given "json_logs" ms) o.jsonLogs → Denoted (.object ms) o
  | list {vs : List Value} {o : Observability} : vs.length ≤ 2 →
      Setting Value.IsText "info" (vs.take 1) o.logLevel →
      Setting Value.IsBoolean false (vs.drop 1) o.jsonLogs → Denoted (.list vs) o

/-- At most one `observability`, or a list with nothing else in it. -/
inductive Config.Denoted : Value → Config → Prop where
  | object {ms : List (List Piece × Value)} {c : Config} : KeysDecode ms →
      Setting Observability.Denoted ⟨"info", false⟩ (given "observability" ms) c.observability →
      Denoted (.object ms) c
  | list {vs : List Value} {c : Config} : vs.length ≤ 1 →
      Setting Observability.Denoted ⟨"info", false⟩ vs c.observability → Denoted (.list vs) c

/-! ## Observability -/

namespace Observability

inductive Part where
  | logLevel
  | jsonLogs
deriving DecidableEq

def Part.Data : Part → Type
  | logLevel => String
  | jsonLogs => Bool

def layout : Layout Draft Part Part.Data where
  order := [.logLevel, .jsonLogs]
  name
    | .logLevel => "log_level"
    | .jsonLogs => "json_logs"
  get
    | .logLevel => Draft.logLevel
    | .jsonLogs => Draft.jsonLogs
  set
    | .logLevel => fun d s => { d with logLevel := some s }
    | .jsonLogs => fun d b => { d with jsonLogs := some b }
  reader
    | .logLevel => .text
    | .jsonLogs => .boolean
  meaning
    | .logLevel => Value.text?
    | .jsonLogs => Value.boolean?
  mem_order i := by cases i <;> decide
  nodup_order := by decide
  name_inj {i j} h := by cases i <;> cases j <;> first | rfl | exact absurd h (by decide)
  get_set i d b := by cases i <;> rfl
  get_set_of_ne {i j} h d b := by cases i <;> cases j <;> first | rfl | exact absurd rfl h
  ext {d e} h := by
    obtain ⟨l, j⟩ := d
    obtain rfl : l = _ := h .logLevel
    obtain rfl : j = _ := h .jsonLogs
    rfl
  reads
    | .logLevel => text_reads
    | .jsonLogs => boolean_reads

theorem placed_logLevel {vs : List Value} (h : vs.length ≤ 2) : placed .logLevel layout.order vs = vs.take 1 := by
  match vs, h with
  | [], _ | [_], _ | [_, _], _ => rfl

theorem placed_jsonLogs {vs : List Value} (h : vs.length ≤ 2) : placed .jsonLogs layout.order vs = vs.drop 1 := by
  match vs, h with
  | [], _ | [_], _ | [_, _], _ => rfl

theorem value?_eq_some_iff {v : Value} {o : Observability} : layout.value? format v = some o ↔ Denoted v o := by
  have hfin : ∀ d : Draft, (format.finish d).toOption = some o ↔ d.finish = o := fun d => by
    simp [format, Except.toOption]
  have hnew : ∀ i, layout.get i format.draft = none := fun i => by cases i <;> rfl
  simp only [Layout.value?, Option.bind_eq_some_iff, hfin, layout.draft?_eq_some_iff hnew]
  constructor
  · intro hx
    obtain ⟨d, ⟨vals, hv, hf⟩, rfl⟩ := hx
    have hl : Setting Value.IsText "info" (vals .logLevel) d.finish.logLevel :=
      text_setting.2 ⟨_, hf .logLevel, rfl⟩
    have hj : Setting Value.IsBoolean false (vals .jsonLogs) d.finish.jsonLogs :=
      boolean_setting.2 ⟨_, hf .jsonLogs, rfl⟩
    cases hv with
    | object hk => exact .object hk hl hj
    | list hn =>
      simp only [placed_logLevel hn] at hl
      simp only [placed_jsonLogs hn] at hj
      exact .list hn hl hj
  · have hfill : ∀ {l j} {vals : Part → List Value}, layout.Offers v vals →
        Setting Value.IsText "info" (vals .logLevel) l → Setting Value.IsBoolean false (vals .jsonLogs) j →
        ∃ d : Draft, (∃ vals, layout.Offers v vals ∧
          ∀ i, Fills (layout.meaning i) (vals i) none (layout.get i d)) ∧ d.finish = ⟨l, j⟩ := by
      intro l j vals hv hl hj
      obtain ⟨x, hx, rfl⟩ := text_setting.1 hl
      obtain ⟨y, hy, rfl⟩ := boolean_setting.1 hj
      exact ⟨⟨x, y⟩, ⟨vals, hv, fun i => by cases i <;> assumption⟩, rfl⟩
    intro hx
    rcases hx with ⟨hk, hl, hj⟩ | ⟨hn, hl, hj⟩
    · exact hfill (.object hk) hl hj
    · rw [← placed_logLevel hn] at hl
      rw [← placed_jsonLogs hn] at hj
      exact hfill (.list hn) hl hj

theorem reads_denoted : format.reader.Reads (layout.value? format) := layout.reads_record rfl

end Observability

/-! ## Configurations -/

namespace Config

def layout : Layout (Option Observability) Unit fun _ => Observability where
  order := [()]
  name _ := "observability"
  get _ := id
  set _ _ o := some o
  reader _ := Observability.format.reader
  meaning _ := Observability.layout.value? Observability.format
  mem_order _ := List.mem_singleton.2 rfl
  nodup_order := by decide
  name_inj _ := rfl
  get_set _ _ _ := rfl
  get_set_of_ne h := absurd rfl h
  ext h := h ()
  reads _ := Observability.reads_denoted

theorem placed_observability {vs : List Value} (h : vs.length ≤ 1) : placed () layout.order vs = vs := by
  match vs, h with
  | [], _ | [_], _ => rfl

theorem value?_eq_some_iff {v : Value} {c : Config} : layout.value? format v = some c ↔ Denoted v c := by
  have hfin : ∀ d, (format.finish d).toOption = some c ↔ ⟨d.getD {}⟩ = c := fun d => by
    simp [format, Except.toOption]
  have hset : ∀ {vs : List Value} {o : Observability}, Setting Observability.Denoted ⟨"info", false⟩ vs o ↔
      ∃ x, Fills (layout.meaning ()) vs none x ∧ x.getD {} = o := fun {vs o} => by
    rw [← setting_iff (m := layout.meaning ())]
    simp only [layout, Observability.value?_eq_some_iff]
  simp only [Layout.value?, Option.bind_eq_some_iff, hfin, layout.draft?_eq_some_iff (d := format.draft) fun _ => rfl]
  constructor
  · intro hx
    obtain ⟨d, ⟨vals, hv, hf⟩, rfl⟩ := hx
    have ho := hset.2 ⟨_, hf (), rfl⟩
    cases hv with
    | object hk => exact .object hk ho
    | list hn =>
      simp only [placed_observability hn] at ho
      exact .list hn ho
  · intro hx
    rcases hx with ⟨hk, ho⟩ | ⟨hn, ho⟩
    · obtain ⟨x, hx, hc⟩ := hset.1 ho
      exact ⟨x, ⟨_, .object hk, fun _ => hx⟩, by rw [hc]⟩
    · rw [← placed_observability hn] at ho
      obtain ⟨x, hx, hc⟩ := hset.1 ho
      exact ⟨x, ⟨_, .list hn, fun _ => hx⟩, by rw [hc]⟩

theorem reads_denoted : format.reader.Reads (layout.value? format) := layout.reads_record rfl

theorem ofJson_eq_ok_iff {text : String} {c : Config} :
    ofJson text = .ok c ↔ ∃ v, Document v text.toList ∧ Denoted v c := by
  simp only [ofJson, reads_denoted.decode_eq_ok_iff, value?_eq_some_iff]

end Config

/-! ## Other members -/

theorem Observability.denoted_congr {ms ms' : List (List Piece × Value)} {o : Observability} (hk : KeysDecode ms)
    (hk' : KeysDecode ms') (hl : given "log_level" ms = given "log_level" ms')
    (hj : given "json_logs" ms = given "json_logs" ms') : Denoted (.object ms) o ↔ Denoted (.object ms') o := by
  constructor
  · intro hx
    obtain ⟨-, h, h'⟩ := hx
    exact .object hk' (hl ▸ h) (hj ▸ h')
  · intro hx
    obtain ⟨-, h, h'⟩ := hx
    exact .object hk (hl ▸ h) (hj ▸ h')

theorem Config.denoted_congr {ms ms' : List (List Piece × Value)} {c : Config} (hk : KeysDecode ms)
    (hk' : KeysDecode ms') (ho : given "observability" ms = given "observability" ms') :
    Denoted (.object ms) c ↔ Denoted (.object ms') c := by
  constructor
  · intro hx
    obtain ⟨-, h⟩ := hx
    exact .object hk' (ho ▸ h)
  · intro hx
    obtain ⟨-, h⟩ := hx
    exact .object hk (ho ▸ h)

/-- **Documents of configurations.** A text is read as `c` exactly when it spells a value that denotes `c`, and a
text spells one value at most. Members with other names change nothing, wherever they stand. -/
theorem Config.ofJson_documents (text : String) (c : Config) :
    (ofJson text = .ok c ↔ ∃ v, Document v text.toList ∧ Denoted v c) ∧
    (∀ v, Document v text.toList → (ofJson text = .ok c ↔ Denoted v c)) ∧
    (∀ ms ms', KeysDecode ms → KeysDecode ms' → given "observability" ms = given "observability" ms' →
      (Denoted (.object ms) c ↔ Denoted (.object ms') c)) ∧
    ∀ ms ms' o, KeysDecode ms → KeysDecode ms' → given "log_level" ms = given "log_level" ms' →
      given "json_logs" ms = given "json_logs" ms' →
      (Observability.Denoted (.object ms) o ↔ Observability.Denoted (.object ms') o) := by
  refine ⟨ofJson_eq_ok_iff, fun v hv => ?_, fun _ _ hk hk' ho => denoted_congr hk hk' ho,
    fun _ _ _ hk hk' hl hj => Observability.denoted_congr hk hk' hl hj⟩
  rw [ofJson_eq_ok_iff]
  constructor
  · intro hx
    obtain ⟨v', hv', hd⟩ := hx
    rwa [hv.unique hv']
  · exact fun hd => ⟨v, hv, hd⟩

/-! ## Round trip -/

theorem Observability.denoted_written (o : Observability) :
    ∃ v, Spells v (writtenObject o.members) ∧ Denoted v o := by
  obtain ⟨v, hv, hs⟩ := spells_writtenText o.logLevel
  have hw : Writes o.members [("log_level", v), ("json_logs", .boolean o.jsonLogs)] :=
    .cons hv (.cons (spells_writtenBool o.jsonLogs) .nil)
  obtain ⟨ks, hks, hk, hg⟩ := spells_writtenObject hw
  refine ⟨.object ks, hks, .object hk ?_ ?_⟩
  · rw [hg]
    exact .present hs
  · rw [hg]
    exact .present (.mk _)

namespace Config

theorem ofJson_written (c : Config) : ofJson c.written = .ok c := by
  obtain ⟨v, hv, ho⟩ := Observability.denoted_written c.observability
  have hw : Writes [("observability", writtenObject c.observability.members)] [("observability", v)] :=
    .cons hv .nil
  obtain ⟨ks, hks, hk, hg⟩ := spells_writtenObject hw
  refine ofJson_eq_ok_iff.2 ⟨.object ks, ?_, .object hk ?_⟩
  · rw [written, String.toList_ofList]
    exact hks.document
  · rw [hg]
    exact .present ho

/-- **Round trip.** What is written of a configuration is read back as it is, valid or not. Loading it gives the
verdict of the validation, and never blames the text. -/
theorem load_written (c : Config) :
    ofJson c.written = .ok c ∧ (c.validate.result = .ok () → (load c.written).result = .ok c) ∧
    (∀ r, c.validate.result = .error r → (load c.written).result = .error r) ∧
    ∀ reason, (load c.written).result ≠ .error (malformed reason) := by
  have hload : (load c.written).result = c.validate.result.map fun _ => c := by
    rw [load, ofJson_written, validated_result]
  rw [hload]
  refine ⟨ofJson_written c, fun h => by rw [h]; rfl, fun r h => by rw [h]; rfl, fun reason h => ?_⟩
  cases hv : c.validate.result with
  | ok u =>
    rw [hv] at h
    cases h
  | error r =>
    rw [hv] at h
    cases h
    exact validate_ne_malformed c reason hv

end Config

end Preconditions
