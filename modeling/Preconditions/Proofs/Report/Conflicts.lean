import Preconditions.Proofs.Config.Documents
import Preconditions.Proofs.Json.Conflicts
import Preconditions.Proofs.Report.Denotation
import Preconditions.Proofs.Text.Escapes

/-!
# Conflicts in documents

A configuration, its settings and a report are refused for the first key that is given again, at either level of a
configuration. A report that gives no field twice is refused only for a field that it has to give, and the first of
these is named.
-/

namespace Preconditions

open Json

/-! ## Configurations -/

def Observability.schema : Schema :=
  [("log_level", fun v => ∃ s, v.IsText s), ("json_logs", fun v => ∃ b, v.IsBoolean b)]

def Config.schema : Schema := [("observability", fun v => ∃ o, Observability.Denoted v o)]

theorem Observability.follows_schema : layout.Follows schema where
  named := rfl
  meant := by
    refine List.forall_mem_cons.2 ⟨⟨.logLevel, rfl, fun v => ?_⟩,
      List.forall_mem_singleton.2 ⟨.jsonLogs, rfl, fun v => ?_⟩⟩
    · exact exists_congr fun s => Value.text?_eq_some_iff.symm
    · exact exists_congr fun b => Value.boolean?_eq_some_iff.symm

theorem Config.follows_schema : layout.Follows schema where
  named := rfl
  meant := by
    refine List.forall_mem_singleton.2 ⟨(), rfl, fun v => ?_⟩
    exact exists_congr fun o => Observability.value?_eq_some_iff.symm

theorem Observability.blamesRepeats : BlamesRepeats ofJson schema :=
  layout.blamesRepeats rfl follows_schema fun i => by cases i <;> rfl

theorem Config.blamesRepeats : BlamesRepeats ofJson schema :=
  layout.blamesRepeats rfl follows_schema fun _ => rfl

theorem Observability.orderly_of_denoted {ms : List (List Piece × Value)} {o : Observability}
    (h : Denoted (.object ms) o) : Orderly schema ms := by
  obtain ⟨d, hd, -⟩ := Option.bind_eq_some_iff.1 (value?_eq_some_iff.2 h)
  exact (layout.orderly_iff follows_schema fun i => by cases i <;> rfl).2 ⟨d, hd⟩

theorem Config.refused_inner {ms ms' : List (List Piece × Value)} {k k' : List Piece} {s s' b : List Char}
    {field : String × (Value → Prop)} (ho : Opened ms k s) (hms : Orderly schema ms)
    (hk : Decodes k "observability".toList) (hnew : given "observability" ms = []) (hb : Blank b)
    (ho' : Opened ms' k' s') (hms' : Orderly Observability.schema ms') (hmem : field ∈ Observability.schema)
    (hk' : Decodes k' field.1.toList) (hgiven : given field.1 ms' ≠ []) (rest : List Char) :
    Refused (ofJson (String.ofList (s ++ (b ++ ':' :: (s' ++ rest))))) .mismatched
      ("duplicate field `" ++ field.1 ++ "`") := by
  have hempty : ∀ i, Observability.layout.get i Observability.format.draft = none := fun i => by cases i <;> rfl
  obtain ⟨d, hd⟩ := (layout.orderly_iff follows_schema (d := format.draft) fun _ => rfl).1 hms
  obtain ⟨d', hd'⟩ := (Observability.layout.orderly_iff Observability.follows_schema hempty).1 hms'
  obtain ⟨i, hi, -⟩ := Observability.follows_schema.meant field hmem
  rw [← hi] at hk' hgiven ⊢
  have hfilled := (Observability.layout.isSome_get_iff hempty hd' i).2 hgiven
  have hinner := Observability.layout.read_repeat (f := Observability.format) rfl ho' hd' hk' hfilled rest
  have hunset : layout.get () d = none := by
    rw [← Option.not_isSome_iff_eq_none, layout.isSome_get_iff (fun _ => rfl) hd ()]
    exact not_not_intro hnew
  exact refused_repeat (layout.read_inner (f := format) rfl ho hd hk hunset hb hinner)

/-! ## Reports -/

namespace Report

def schema : Schema :=
  [("kind", fun v => ∃ k, Kind.Denoted v k), ("code", fun v => ∃ s, v.IsText s), ("message", fun v => ∃ s, v.IsText s),
    ("parameter", fun v => ∃ p, Value.Nullable Value.IsText v p), ("index", fun v => ∃ i, Value.Nullable Value.IsWord v i)]

def required : List String := ["kind", "code", "message"]

def firstAbsent (ms : List (List Piece × Value)) : Option String :=
  required.find? fun name => (given name ms).isEmpty

theorem follows_schema : layout.Follows schema where
  named := rfl
  meant := by
    have htext : ∀ v : Value, (∃ s, v.IsText s) ↔ ∃ s, v.text? = some s := fun v =>
      exists_congr fun s => Value.text?_eq_some_iff.symm
    refine List.forall_mem_cons.2 ⟨⟨.kind, rfl, fun v => ?_⟩, List.forall_mem_cons.2 ⟨⟨.code, rfl, htext⟩,
      List.forall_mem_cons.2 ⟨⟨.message, rfl, htext⟩, List.forall_mem_cons.2 ⟨⟨.parameter, rfl, fun v => ?_⟩,
        List.forall_mem_singleton.2 ⟨.index, rfl, fun v => ?_⟩⟩⟩⟩⟩
    · exact exists_congr fun k => Kind.value?_eq_some_iff.symm
    · exact exists_congr fun p => (Value.optional?_eq_some_iff (fun _ _ => Value.text?_eq_some_iff) rfl).symm
    · exact exists_congr fun i => (Value.optional?_eq_some_iff (fun _ _ => Value.word64?_eq_some_iff) rfl).symm

theorem layout_new (i : Part) : layout.get i format.draft = none := by cases i <;> rfl

theorem blamesRepeats : BlamesRepeats ofJson schema := layout.blamesRepeats rfl follows_schema layout_new

/-! ## Absent fields -/

theorem finish_eq {ms : List (List Piece × Value)} {d : Draft} (hd : layout.takeMembers format.draft ms = some d) :
    (firstAbsent ms = none ∧ ∃ r, format.finish d = .ok r) ∨
      ∃ name, firstAbsent ms = some name ∧ format.finish d = .error name := by
  have hgiven : ∀ i, (given (layout.name i) ms).isEmpty = !(layout.get i d).isSome := by
    intro i
    rw [Bool.eq_not, ne_eq, Bool.eq_iff_iff, layout.isSome_get_iff layout_new hd i, List.isEmpty_iff]
    simp
  have hkind : (given "kind" ms).isEmpty = !d.kind.isSome := hgiven .kind
  have hcode : (given "code" ms).isEmpty = !d.code.isSome := hgiven .code
  have hmessage : (given "message" ms).isEmpty = !d.message.isSome := hgiven .message
  obtain ⟨kind, code, message, parameter, index⟩ := d
  cases kind <;> cases code <;> cases message <;>
    simp [firstAbsent, required, hkind, hcode, hmessage, format, Draft.finish]

theorem firstAbsent_eq_none_iff {ms : List (List Piece × Value)} :
    firstAbsent ms = none ↔ ∀ name ∈ required, given name ms ≠ [] := by
  simp [firstAbsent]

theorem ofJson_orderly {text : String} {ms : List (List Piece × Value)} (hdoc : Document (.object ms) text.toList)
    (hms : Orderly schema ms) :
    (firstAbsent ms = none ∧ ∃ r, ofJson text = .ok r) ∨
      ∃ name, firstAbsent ms = some name ∧
        Refused (ofJson text) .mismatched ("missing field `" ++ name ++ "`") := by
  obtain ⟨d, hd⟩ := (layout.orderly_iff follows_schema layout_new).1 hms
  obtain ⟨hnone, r, hr⟩ | ⟨name, hname, hfin⟩ := finish_eq hd
  · refine .inl ⟨hnone, r, ofJson_eq_ok_iff.2 ⟨_, hdoc, Option.bind_eq_some_iff.2 ⟨d, hd, ?_⟩⟩⟩
    exact toOption_eq_some_iff.2 hr
  · obtain ⟨b, w, c, hb, hw, -, htext⟩ := hdoc.split
    have hrefused := refused_missing (layout.read_missing (f := format) rfl hb hw hd hfin c)
    rw [← htext, String.ofList_toList] at hrefused
    exact .inr ⟨name, hname, hrefused⟩

end Report

/-! ## Both kinds of faults -/

/-- **Conflicting and missing members.** After orderly members, a key that is given again is the fault whatever text
follows it, also in the settings of a configuration; so nothing that is read has given a field twice. An orderly object
is no report exactly when a field that has to be given is absent, and then the first of these is named. -/
theorem conflicts_blamed :
    BlamesRepeats Config.ofJson Config.schema ∧
    BlamesRepeats Observability.ofJson Observability.schema ∧
    BlamesRepeats Report.ofJson Report.schema ∧
    (∀ (ms ms' : List (List Piece × Value)) (k k' : List Piece) (s s' b : List Char) (field : String × (Value → Prop)),
      Opened ms k s → Orderly Config.schema ms → Decodes k "observability".toList → given "observability" ms = [] →
      Blank b → Opened ms' k' s' → Orderly Observability.schema ms' → field ∈ Observability.schema →
      Decodes k' field.1.toList → given field.1 ms' ≠ [] →
      ∀ rest, Refused (Config.ofJson (String.ofList (s ++ (b ++ ':' :: (s' ++ rest))))) .mismatched
        ("duplicate field `" ++ field.1 ++ "`")) ∧
    (∀ (text : String) (ms ms' : List (List Piece × Value)) (c : Config), Document (.object ms) text.toList →
      Config.ofJson text = .ok c → .object ms' ∈ given "observability" ms → Orderly Observability.schema ms') ∧
    ∀ (text : String) (ms : List (List Piece × Value)), Document (.object ms) text.toList →
      Orderly Report.schema ms →
      ((∃ e, Report.ofJson text = .error e) ↔ ∃ name ∈ ["kind", "code", "message"], given name ms = []) ∧
      ∀ name, (["kind", "code", "message"].find? fun name => (given name ms).isEmpty) = some name →
        Refused (Report.ofJson text) .mismatched ("missing field `" ++ name ++ "`") := by
  refine ⟨Config.blamesRepeats, Observability.blamesRepeats, Report.blamesRepeats, ?_, ?_, ?_⟩
  · intro ms ms' k k' s s' b field ho hms hk hnew hb ho' hms' hmem hk' hgiven rest
    exact Config.refused_inner ho hms hk hnew hb ho' hms' hmem hk' hgiven rest
  · intro text ms ms' c hdoc hc hmem
    obtain ⟨o, ho⟩ := (Config.blamesRepeats.orderly hdoc hc).typed _ List.mem_cons_self _ hmem
    exact Observability.orderly_of_denoted ho
  · intro text ms hdoc hms
    obtain ⟨hnone, r, hr⟩ | ⟨name, hname, hrefused⟩ := Report.ofJson_orderly hdoc hms
    · have hgiven := Report.firstAbsent_eq_none_iff.1 hnone
      refine ⟨⟨?_, ?_⟩, fun name hname => ?_⟩
      · intro hx
        obtain ⟨e, he⟩ := hx
        rw [hr] at he
        cases he
      · intro hx
        obtain ⟨name, hmem, habsent⟩ := hx
        exact absurd habsent (hgiven name hmem)
      · rw [Report.firstAbsent] at hnone
        cases hnone.symm.trans hname
    · have habsent := List.find?_some hname
      refine ⟨⟨fun _ => ⟨name, List.mem_of_find?_eq_some hname, List.isEmpty_iff.1 habsent⟩, fun _ => ?_⟩, ?_⟩
      · obtain ⟨e, he, -⟩ := hrefused
        exact ⟨e, he⟩
      · intro other hother
        cases hname.symm.trans hother
        exact hrefused

theorem textSpelled_chars {cs : List Char} (h : cs.all Text.isBare = true) : TextSpelled (cs.map .char) cs := by
  induction cs with
  | nil => exact .nil
  | cons c cs ih =>
    rw [List.all_cons, Bool.and_eq_true, Text.isBare_iff] at h
    obtain ⟨⟨hc, hq, hb⟩, hcs⟩ := h
    exact .cons (.plain hc hq hb) (ih hcs)

/-- In the settings a key comes back with an escape in it, and what follows it is no JSON. -/
theorem conflicts_blamed_settings :
    Refused (Config.ofJson "\x7b\"observability\":\x7b\"json_logs\":true,\"json\\u005flogs\"]]") .mismatched
      "duplicate field `json_logs`" ∧
    Refused (Report.ofJson "\x7b\x7d") .mismatched "missing field `kind`" := by
  obtain ⟨-, -, -, hinner, -, habsent⟩ := conflicts_blamed
  have hword : TextSpelled ("json_logs".toList.map .char) "json_logs".toList := textSpelled_chars rfl
  have hescaped : TextSpelled ("json".toList.map .char ++ .unit 0x5f :: "logs".toList.map .char)
      ("json".toList ++ ("\\u005f".toList ++ "logs".toList)) :=
    textSpelled_append (textSpelled_chars rfl) (.cons (.hexadecimal rfl) (textSpelled_chars rfl))
  have hgiven : given "json_logs" [("json_logs".toList.map .char, .boolean true)] = [.boolean true] := rfl
  have hdenoted : Observability.Denoted (.object [("json_logs".toList.map .char, .boolean true)]) ⟨"info", true⟩ :=
    .object (List.forall_mem_singleton.2 ⟨"json_logs".toList, by decide⟩) .absent (.present (.mk true))
  constructor
  · have houter : Opened [] ("observability".toList.map .char) _ :=
      .mk blank_nil (.nil blank_nil) (.first blank_nil) (textSpelled_chars rfl)
    have hsettings : Opened [("json_logs".toList.map .char, .boolean true)] _ _ :=
      .mk blank_nil (.cons (.first blank_nil) (.mk hword blank_nil blank_nil) .trueWord (.nil blank_nil))
        (.next blank_nil blank_nil) hescaped
    have hrefused := hinner _ _ _ _ _ _ [] _ houter (orderly_nil _) (by decide) rfl blank_nil hsettings
      (Observability.orderly_of_denoted hdenoted) (List.mem_cons_of_mem _ List.mem_cons_self) (by decide)
      (hgiven ▸ List.cons_ne_nil _ _) "]]".toList
    exact hrefused
  · have hdoc : Document (.object []) "\x7b\x7d".toList := (Spells.object (.nil blank_nil)).document
    exact (habsent _ [] hdoc (orderly_nil _)).2 "kind" rfl

end Preconditions
