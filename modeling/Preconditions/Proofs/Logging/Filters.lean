import Preconditions.Proofs.Logging.Runs

/-!
# The filter of the environment

A filter in the environment counts as a whole or not at all. One of which every piece is a directive is read as a
configured level would be, and the configured level is not read; of one with a malformed piece nothing is read.
-/

namespace Preconditions.Logging

open Environment (text?)

/-! ## Strict and lenient reading -/

theorem mapM_of_isSome {α β : Type} {f : α → Option β} {xs : List α} (h : ∀ x ∈ xs, (f x).isSome = true) :
    xs.mapM f = some (xs.filterMap f) := by
  induction xs with
  | nil => rfl
  | cons x xs ih =>
    obtain ⟨y, hy⟩ := Option.isSome_iff_exists.1 (h x (by simp))
    rw [List.mapM_cons, hy, ih fun x hx => h x (by simp [hx]), List.filterMap_cons_some hy]
    rfl

theorem mapM_of_eq_none {α β : Type} {f : α → Option β} {xs : List α} {x : α} (hx : x ∈ xs) (h : f x = none) :
    xs.mapM f = none := by
  induction xs with
  | nil => cases hx
  | cons y ys ih =>
    rw [List.mapM_cons]
    rcases List.mem_cons.1 hx with rfl | hx
    · rw [h]
      rfl
    · rw [ih hx]
      cases f y <;> rfl

namespace Filter

def showsRejections (f : Filter) : Bool :=
  (f.levelFor Event.target.toList (Event.fields.map String.toList)).showsDebug

def WellFormed (text : List Char) : Prop := ∀ p ∈ pieces text, (Directive.ofPiece? p).isSome = true

theorem strict?_of_wellFormed {text : List Char} (h : WellFormed text) : strict? text = some (lenient text) :=
  mapM_of_isSome h

theorem strict?_of_malformed {text p : List Char} (hp : p ∈ pieces text) (h : Directive.ofPiece? p = none) :
    strict? text = none :=
  mapM_of_eq_none hp h

end Filter

section
variable {e : Environment} {r : String}

theorem filterOf_of_wellFormed (he : text? e.filter = some r) (hr : Filter.WellFormed r.toList) (level : String) :
    Sink.filterOf e level = Filter.lenient r.toList := by
  rw [Sink.filterOf, he, Option.bind_some, Filter.strict?_of_wellFormed hr, Option.getD_some]

theorem filterOf_of_malformed (he : text? e.filter = some r) {p : List Char} (hp : p ∈ Filter.pieces r.toList)
    (h : Directive.ofPiece? p = none) (level : String) : Sink.filterOf e level = Filter.lenient level.toList := by
  rw [Sink.filterOf, he, Option.bind_some, Filter.strict?_of_malformed hp h, Option.getD_none]

theorem filterOf_of_unset (he : text? e.filter = none) (level : String) :
    Sink.filterOf e level = Filter.lenient level.toList := by
  rw [Sink.filterOf, he, Option.bind_none, Option.getD_none]

/-! ## Sinks -/

theorem filter_of_sink? {s : Step} {sink : Sink} (hs : s.sink? e = some sink) :
    ∃ level, sink.filter = Sink.filterOf e level := by
  cases s with
  | initDefault => cases hs; exact ⟨_, rfl⟩
  | initWith o => cases hs; exact ⟨_, rfl⟩
  | operation events => cases hs

theorem sink?_congr {e' : Environment} (h : ∀ level, Sink.filterOf e level = Sink.filterOf e' level)
    (hf : e.format = e'.format) (s : Step) : s.sink? e = s.sink? e' := by
  cases s with
  | initDefault => simp only [Step.sink?, Sink.default, hf, h]
  | initWith o => simp only [Step.sink?, Sink.configured, h]
  | operation events => rfl

theorem runFrom_congr {e' : Environment} (h : ∀ s : Step, s.sink? e = s.sink? e') (current : Option Sink)
    (steps : List Step) : runFrom e current steps = runFrom e' current steps := by
  induction steps generalizing current with
  | nil => rfl
  | cons s steps ih => rw [runFrom, runFrom, Step.install, Step.install, h s, ih]

theorem sink_eq_of_wellFormed (he : text? e.filter = some r) (hr : Filter.WellFormed r.toList) {s : Step}
    {sink : Sink} (hs : s.sink? e = some sink) : sink = ⟨sink.format, Filter.lenient r.toList⟩ := by
  obtain ⟨level, hl⟩ := filter_of_sink? hs
  rw [filterOf_of_wellFormed he hr] at hl
  rw [← hl]

end

/-- **Filter or level.** Under a filter of directives, and be it empty, what a process writes hangs on the filter and
on the format that its first initialization chooses, whatever level that asks for; it writes what a process without a
filter writes that asks for this one as its level. A filter with a malformed piece changes nothing in any run, whatever
directives are in it. -/
theorem filter_or_level (r : String) :
    (Filter.WellFormed r.toList → ∀ (e : Environment) (first : Step) (sink : Sink) (before : List Step),
      text? e.filter = some r → first.sink? e = some sink → (∀ s ∈ before, ∃ events, s = .operation events) →
      (∀ (later : List Step) (k : Nat) (events : List Event), later[k]? = some (.operation events) →
        (run e (before ++ first :: later))[before.length + 1 + k]? =
          some (if (Filter.lenient r.toList).showsRejections then events.map sink.format.record else [])) ∧
      (∀ (e' : Environment) (first' : Step) (sink' : Sink) (later : List Step), text? e'.filter = some r →
        first'.sink? e' = some sink' → sink.format = sink'.format →
        run e (before ++ first :: later) = run e' (before ++ first' :: later)) ∧
      ∀ (e' : Environment) (json : Bool) (later : List Step), text? e'.filter = none →
        sink.format = Sink.formatOf json →
        run e (before ++ first :: later) = run e' (before ++ .initWith ⟨r, json⟩ :: later)) ∧
    ((∃ p ∈ Filter.pieces r.toList, Directive.ofPiece? p = none) →
      ∀ (e : Environment) (steps : List Step), text? e.filter = some r →
        run e steps = run { e with filter := none } steps) ∧
    ∀ (format : Format) (event : Event), Record.Shows event format (format.record event) := by
  refine ⟨?_, ?_, Record.shows_record⟩
  · intro hr e first sink before he hs hb
    have hsink := sink_eq_of_wellFormed he hr hs
    refine ⟨?_, ?_, ?_⟩
    · intro later k events hk
      rw [records_after_first hb hs, hk, hsink]
      rfl
    · intro e' first' sink' later he' hs' hf
      have hsink' := sink_eq_of_wellFormed he' hr hs'
      refine run_alike e e' hb hs hs' hf ?_ later
      rw [hsink, hsink', hf]
    · intro e' json later he' hf
      have hl : Sink.configured e' ⟨r, json⟩ = ⟨Sink.formatOf json, Filter.lenient r.toList⟩ := by
        rw [Sink.configured, filterOf_of_unset he']
      refine run_alike e e' hb hs rfl hf ?_ later
      rw [hl, ← hf, ← hsink]
  · intro hp e steps he
    obtain ⟨p, hp, hnone⟩ := hp
    have hf : ∀ level, Sink.filterOf e level = Sink.filterOf { e with filter := none } level := by
      intro level
      rw [filterOf_of_malformed he hp hnone, filterOf_of_unset rfl]
    exact runFrom_congr (sink?_congr hf rfl) none steps

/-- A filter that shows what the level would hide, the empty one, which counts as set, and one of which the first piece
is a directive and the second is none. -/
theorem filter_or_level_shown :
    (run { filter := some "param_check=4".toUTF8 }
      ([] ++ .initWith ⟨"off", true⟩ :: [.operation [Rejection.event (.emptyArgument "port")]]))[1]? =
      some [.fields (Rejection.event (.emptyArgument "port"))] ∧
    run { filter := some "".toUTF8 }
        ([] ++ .initWith ⟨"trace", false⟩ :: [.operation [Rejection.event (.emptyArgument "port")]]) =
      run { filter := some "".toUTF8 } ([] ++ .initDefault :: [.operation [Rejection.event (.emptyArgument "port")]]) ∧
    run { filter := some "".toUTF8 }
        ([] ++ .initWith ⟨"trace", false⟩ :: [.operation [Rejection.event (.emptyArgument "port")]]) =
      run {} ([] ++ .initWith ⟨"", false⟩ :: [.operation [Rejection.event (.emptyArgument "port")]]) ∧
    run { filter := some "trace,=".toUTF8 } [.initDefault, .operation [Rejection.event (.emptyArgument "port")]] =
      run {} [.initDefault, .operation [Rejection.event (.emptyArgument "port")]] := by
  have hfilter : Filter.WellFormed "param_check=4".toList := List.all_eq_true.1 (by decide)
  have hempty : Filter.WellFormed "".toList := List.all_eq_true.1 (by decide)
  obtain ⟨hshown, -⟩ := (filter_or_level "param_check=4").1 hfilter { filter := some "param_check=4".toUTF8 }
    (.initWith ⟨"off", true⟩) _ [] (Environment.text?_toUTF8 "param_check=4") rfl (by simp)
  obtain ⟨-, hsame, hlevel⟩ := (filter_or_level "").1 hempty { filter := some "".toUTF8 } (.initWith ⟨"trace", false⟩) _
    [] (Environment.text?_toUTF8 "") rfl (by simp)
  refine ⟨?_, ?_, ?_, ?_⟩
  · exact hshown [.operation [Rejection.event (.emptyArgument "port")]] 0 _ rfl
  · exact hsame _ .initDefault _ _ (Environment.text?_toUTF8 "") rfl rfl
  · exact hlevel {} false _ rfl rfl
  · exact (filter_or_level "trace,=").2.1 ⟨['='], by decide, by decide⟩ _ _ (Environment.text?_toUTF8 "trace,=")

end Preconditions.Logging
