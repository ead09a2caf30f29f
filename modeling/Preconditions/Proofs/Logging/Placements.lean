import Preconditions.Proofs.Logging.Decisions
import Preconditions.Proofs.Logging.Spellings

/-!
# Filters that a host asks for

A host puts a filter into the environment or into the configuration. There, a directive for the target of the
rejections that it appends decides whether they show, unless the filter narrows that very target to one of their
fields; and a directive for another target that it puts in changes nothing, wherever it stands.
-/

namespace Preconditions.Logging

open Environment (text?)

/-- Where a host puts its filter: into the environment of a process that it initializes with or without a
configuration, or into the configuration, as the level, of a process without a filter in its environment. -/
inductive Placement where
  | environment (e : Environment) (o : Option Observability)
  | level (e : Environment) (json : Bool)

namespace Placement

def surroundings (f : String) : Placement → Environment
  | environment e _ => { e with filter := some f.toUTF8 }
  | level e _ => { e with filter := none }

def first (f : String) : Placement → Step
  | environment _ none => .initDefault
  | environment _ (some o) => .initWith o
  | level _ json => .initWith ⟨f, json⟩

def format : Placement → Format
  | environment e none => Sink.formatOf ((text? e.format).any Environment.asksForJson)
  | environment _ (some o) => Sink.formatOf o.jsonLogs
  | level _ json => Sink.formatOf json

/-- A filter in the environment has to be one throughout; as a level any text will do. -/
def Admits (f : String) : Placement → Prop
  | environment _ _ => Filter.WellFormed f.toList
  | level _ _ => True

/-- What a process writes that is given the filter and does some operations before it is initialized. -/
def run (p : Placement) (f : String) (before later : List Step) : List (List Record) :=
  Logging.run (p.surroundings f) (before ++ p.first f :: later)

section
variable {p : Placement} {f g : String}

theorem sink?_first (h : p.Admits f) :
    (p.first f).sink? (p.surroundings f) = some ⟨p.format, Filter.lenient f.toList⟩ := by
  cases p with
  | level e json =>
    exact congrArg (fun filter => some (Sink.mk (Sink.formatOf json) filter)) (filterOf_of_unset rfl f)
  | environment e o =>
    have hf := filterOf_of_wellFormed (e := { e with filter := some f.toUTF8 }) (Environment.text?_toUTF8 f) h
    cases o with
    | none => exact congrArg (fun filter => some (Sink.mk _ filter)) (hf _)
    | some o => exact congrArg (fun filter => some (Sink.mk _ filter)) (hf _)

theorem run_congr (hf : p.Admits f) (hg : p.Admits g)
    (h : (Filter.lenient f.toList).showsRejections = (Filter.lenient g.toList).showsRejections) {before : List Step}
    (hb : ∀ s ∈ before, ∃ events, s = .operation events) (later : List Step) :
    p.run f before later = p.run g before later :=
  run_alike _ _ hb (sink?_first hf) (sink?_first hg) rfl h later

theorem getElem?_run (hf : p.Admits f) {before : List Step} (hb : ∀ s ∈ before, ∃ events, s = .operation events)
    {later : List Step} {k : Nat} {events : List Event} (hk : later[k]? = some (.operation events)) :
    (p.run f before later)[before.length + 1 + k]? =
      some (if (Filter.lenient f.toList).showsRejections then events.map p.format.record else []) := by
  rw [run, records_after_first hb (sink?_first hf), hk]
  rfl

theorem Admits.of_inserted (hf : p.Admits f) {piece : List Char} (h : Filter.Inserted piece f.toList g.toList)
    (hc : ',' ∉ piece) (hne : piece ≠ []) {d : Directive} (hd : Directive.ofPiece? piece = some d) : p.Admits g := by
  cases p with
  | environment e o => exact h.wellFormed hc hne hd hf
  | level e json => trivial

end

theorem showsRejections_inserted {f g : String} {piece : List Char} (h : Filter.Inserted piece f.toList g.toList)
    (hc : ',' ∉ piece) (hne : piece ≠ []) {d : Directive} (hd : Directive.ofPiece? piece = some d)
    (ht : ¬ d.target <+: Event.target.toList) :
    (Filter.lenient g.toList).showsRejections = (Filter.lenient f.toList).showsRejections := by
  obtain ⟨fs, gs, hf, hg⟩ := h.lenient_eq hc hne hd
  rw [hf, hg]
  exact Filter.showsDebug_insert fs gs (Directive.covers_of_not_prefix ht)

/-! ## A directive at the end -/

/-- A filter with one more directive, by which the target of the rejections has a level of its own. -/
def extended (f word : String) : String := f ++ "," ++ Event.target ++ "=" ++ word

theorem toList_extended (f word : String) :
    (extended f word).toList = f.toList ++ ',' :: (Event.target.toList ++ '=' :: word.toList) := by
  simp [extended]

def Pinned (f : String) : Prop :=
  ∃ d ∈ Filter.lenient f.toList, d.Pins Event.target.toList (Event.fields.map String.toList)

instance (f : String) : Decidable (Pinned f) :=
  inferInstanceAs (Decidable (∃ d ∈ Filter.lenient f.toList, d.Pins Event.target.toList (Event.fields.map String.toList)))

theorem isPlain_target : ∀ c ∈ Event.target.toList, Directive.isPlain c = true :=
  List.all_eq_true.1 (by decide)

theorem target_ne_nil : Event.target.toList ≠ [] := by decide

section
variable (f : String) {l : Level} {word : String} (h : l.Spelled word.toList)
include h

theorem ofPiece?_target : Directive.ofPiece? (Event.target.toList ++ '=' :: word.toList) =
    some ⟨Event.target.toList, .all, l⟩ :=
  Directive.ofPiece?_spelled target_ne_nil isPlain_target h

theorem comma_notMem_target : ',' ∉ Event.target.toList ++ '=' :: word.toList :=
  Directive.comma_notMem_assigned isPlain_target h.comma_notMem

theorem lenient_extended :
    Filter.lenient (extended f word).toList = Filter.lenient f.toList ++ [⟨Event.target.toList, .all, l⟩] := by
  rw [toList_extended, Filter.lenient_append_comma,
    Filter.lenient_eq_singleton (comma_notMem_target h) (by simp) (ofPiece?_target h)]

theorem showsRejections_extended (hf : ¬ Pinned f) :
    (Filter.lenient (extended f word).toList).showsRejections = decide (l = .debug ∨ l = .trace) := by
  rw [lenient_extended f h, Filter.showsRejections, Filter.levelFor_concat fun d hd hp => hf ⟨d, hd, hp⟩]
  cases l <;> rfl

theorem showsRejections_extended_of_pinned (hf : Pinned f) :
    (Filter.lenient (extended f word).toList).showsRejections = (Filter.lenient f.toList).showsRejections := by
  rw [lenient_extended f h, Filter.showsRejections, Filter.showsRejections, Filter.levelFor_concat_of_pins hf]

theorem Admits.extended {p : Placement} {f : String} (hf : p.Admits f) : p.Admits (extended f word) := by
  refine hf.of_inserted ?_ (comma_notMem_target h) (by simp) (ofPiece?_target h)
  rw [toList_extended]
  exact .last f.toList

end

/-- **Visible as the host asks.** Put at the end of a filter, a level for the target of the rejections decides whether
they show, whatever else is in the filter; only where a directive narrows that very target to one of their fields, the
level changes nothing. And nothing is changed by a directive for a target that theirs does not start with, wherever
in the filter it is put. -/
theorem visible_as_asked (p : Placement) (f : String) (hf : p.Admits f) (before later : List Step)
    (hb : ∀ s ∈ before, ∃ events, s = .operation events) :
    (∀ (l : Level) (word : String), l.Spelled word.toList →
      (¬ Pinned f → ∀ (k : Nat) (events : List Event), later[k]? = some (.operation events) →
        (p.run (extended f word) before later)[before.length + 1 + k]? =
          some (if l = .debug ∨ l = .trace then events.map p.format.record else [])) ∧
      (Pinned f → p.run (extended f word) before later = p.run f before later)) ∧
    (∀ (format : Format) (event : Event), Record.Shows event format (format.record event)) ∧
    ∀ (g : String) (target word : List Char), (∀ c ∈ target, Directive.isPlain c = true) →
      ¬ target <+: Event.target.toList → ',' ∉ word →
      (Directive.ofPiece? (target ++ '=' :: word)).isSome = true →
      Filter.Inserted (target ++ '=' :: word) f.toList g.toList →
      p.run g before later = p.run f before later := by
  refine ⟨?_, Record.shows_record, ?_⟩
  · intro l word h
    refine ⟨?_, ?_⟩
    · intro hpin k events hk
      rw [getElem?_run (hf.extended h) hb hk, showsRejections_extended f h hpin]
      simp only [decide_eq_true_eq]
    · intro hpin
      exact run_congr (hf.extended h) hf (showsRejections_extended_of_pinned f h hpin) hb later
  · intro g target word ht hpre hw hwf hins
    obtain ⟨d, hd⟩ := Option.isSome_iff_exists.1 hwf
    have hne : target ≠ [] := by
      rintro rfl
      exact hpre List.nil_prefix
    have hc : ',' ∉ target ++ '=' :: word := Directive.comma_notMem_assigned ht hw
    have hother : ¬ d.target <+: Event.target.toList := by
      rw [Directive.target_of_assigned hne ht hd]
      exact hpre
    exact run_congr (hf.of_inserted hins hc (by simp) hd) hf (showsRejections_inserted hins hc (by simp) hd hother) hb
      later

/-- A level by its number against one for a shorter target, in the environment a directive for another target before
both, and a level that a narrower directive overrules. -/
theorem visible_as_asked_crate :
    ((level {} false).run (extended "param_check=off" "4") []
      [.operation [Rejection.event (.emptyArgument "port")]])[1]? =
      some [.line ("DEBUG param_check::messages: parameter_rejected code=PARAM000040 kind=EmptyArgument " ++
        "parameter=\"port\"")] ∧
    (environment {} none).run "hyper=trace,param_check=4" [] [.operation [Rejection.event (.emptyArgument "port")]] =
      (environment {} none).run "param_check=4" [] [.operation [Rejection.event (.emptyArgument "port")]] ∧
    (level {} false).run (extended "param_check::messages[\x7bcode\x7d]=off" "debug") []
        [.operation [Rejection.event (.emptyArgument "port")]] =
      (level {} false).run "param_check::messages[\x7bcode\x7d]=off" []
        [.operation [Rejection.event (.emptyArgument "port")]] := by
  have hbefore : ∀ s ∈ ([] : List Step), ∃ events, s = .operation events := by simp
  have hnumber : Level.debug.Spelled "4".toList := .number (List.cons_ne_nil _ _) (List.all_eq_true.1 rfl) rfl
  have hwf : Filter.WellFormed "param_check=4".toList := List.all_eq_true.1 (by decide)
  obtain ⟨hasked, -⟩ := visible_as_asked (level {} false) "param_check=off" trivial []
    [.operation [Rejection.event (.emptyArgument "port")]] hbefore
  obtain ⟨-, -, hother⟩ := visible_as_asked (environment {} none) "param_check=4" hwf []
    [.operation [Rejection.event (.emptyArgument "port")]] hbefore
  obtain ⟨hpinned, -⟩ := visible_as_asked (level {} false) "param_check::messages[\x7bcode\x7d]=off" trivial []
    [.operation [Rejection.event (.emptyArgument "port")]] hbefore
  refine ⟨?_, ?_, ?_⟩
  · refine ((hasked .debug "4" hnumber).1 (by decide) 0 _ rfl).trans ?_
    decide
  · exact hother _ "hyper".toList "trace".toList (List.all_eq_true.1 rfl) (by decide) (by decide) (by decide) (.first _)
  · exact (hpinned .debug "debug" (.name rfl)).2 (by decide)

/-- A level for the target of the rejections does not always decide: a directive that narrows the same target to a
field is more exact and hides the events, though the level that is put at the end shows details. -/
theorem extended_overruled :
    ¬ ∀ (p : Placement) (f : String) (l : Level) (word : String) (before later : List Step), p.Admits f →
      l.Spelled word.toList → (∀ s ∈ before, ∃ events, s = .operation events) →
      ∀ (k : Nat) (events : List Event), later[k]? = some (.operation events) →
        (p.run (extended f word) before later)[before.length + 1 + k]? =
          some (if l = .debug ∨ l = .trace then events.map p.format.record else []) := by
  intro h
  have hdebug : Level.debug.Spelled "debug".toList := .name rfl
  have hshown := h (level {} false) "param_check::messages[\x7bcode\x7d]=off" .debug "debug" []
    [.operation [Rejection.event (.nullReference "port")]] trivial hdebug (by simp) 0 _ rfl
  have hhidden : (Filter.lenient (extended "param_check::messages[\x7bcode\x7d]=off" "debug").toList).showsRejections =
      false := by decide
  have hadmits : (level {} false).Admits (extended "param_check::messages[\x7bcode\x7d]=off" "debug") := trivial
  rw [getElem?_run hadmits (by simp) rfl, hhidden] at hshown
  cases hshown

end Placement

end Preconditions.Logging
