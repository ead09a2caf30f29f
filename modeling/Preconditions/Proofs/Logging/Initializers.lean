import Preconditions.Proofs.Config.Environments
import Preconditions.Proofs.Logging.Filters

/-!
# Two ways to initialize

A process that sets no level can be initialized without a configuration, or with the one that its environment gives:
both choose the same format and the same filter, so no run tells them apart.
-/

namespace Preconditions.Logging

open Environment (text?)

section
variable {e : Environment}

theorem run_exchange {s s' : Step} (hs : s.initializes = true) (hs' : s'.initializes = true)
    (h : s.sink? e = s'.sink? e) (pre post : List Step) : run e (pre ++ s :: post) = run e (pre ++ s' :: post) := by
  rw [run_append, run_append, runFrom, runFrom, Step.records_of_initializes hs, Step.records_of_initializes hs',
    Step.install, Step.install, h]

theorem formatOf_default (e : Environment) :
    Sink.formatOf ((text? e.format).any Environment.asksForJson) =
      Sink.formatOf (Observability.ofEnvironment e).jsonLogs := by
  have hjson : (Observability.ofEnvironment e).jsonLogs =
      ((text? e.format).map Environment.asksForJson).getD false := rfl
  rw [hjson]
  cases text? e.format <;> rfl

theorem logLevel_ofEnvironment (he : text? e.level = none) :
    (Observability.ofEnvironment e).logLevel = Sink.defaultLevel := by
  rw [Observability.ofEnvironment, he]
  rfl

theorem default_eq_configured (he : text? e.level = none) :
    Sink.default e = Sink.configured e (.ofEnvironment e) := by
  rw [Sink.default, Sink.configured, formatOf_default, logLevel_ofEnvironment he]

theorem loadEnvironment_ok (he : text? e.level = none) :
    (Config.loadEnvironment e).result = .ok ⟨.ofEnvironment e⟩ := by
  have hv : (Config.validate ⟨.ofEnvironment e⟩).result = .ok () := by
    rw [Config.validate_ok_iff, logLevel_ofEnvironment he]
    decide
  rw [Config.loadEnvironment, Config.validated_result, hv]
  rfl

/-- **Two ways to initialize.** Where no level is set, the environment gives a valid configuration whatever its format
and its filter are, and an initialization by it writes, at every step of every run, what an initialization without
one writes: after the first of them, the events in the format of that configuration, if the filter shows them. -/
theorem initializers_agree (he : text? e.level = none) :
    ∃ c, (Config.loadEnvironment e).result = .ok c ∧
      (∀ pre post, run e (pre ++ .initDefault :: post) = run e (pre ++ .initWith c.observability :: post)) ∧
      (∀ before later : List Step, (∀ s ∈ before, ∃ events, s = .operation events) →
        ∀ k events, later[k]? = some (.operation events) →
          (run e (before ++ .initDefault :: later))[before.length + 1 + k]? =
            some (if (Sink.filterOf e c.observability.logLevel).showsRejections then
              events.map (if c.observability.jsonLogs then Format.json else .compact).record
            else [])) ∧
      ∀ (format : Format) (event : Event), Record.Shows event format (format.record event) := by
  have hsink := default_eq_configured he
  refine ⟨_, loadEnvironment_ok he, run_exchange rfl rfl (congrArg some hsink), ?_, Record.shows_record⟩
  intro before later hb k events hk
  rw [records_after_first hb rfl, hk, hsink]
  rfl

end

/-- The format is in capitals, and a later initialization asks for lines of text. -/
theorem initializers_agree_capitals :
    text? ({ format := some "JSON".toUTF8, filter := some "debug".toUTF8 } : Environment).level = none ∧
    ∃ c, (Config.loadEnvironment { format := some "JSON".toUTF8, filter := some "debug".toUTF8 }).result = .ok c ∧
      run { format := some "JSON".toUTF8, filter := some "debug".toUTF8 }
          [.initDefault, .operation [Rejection.event (.emptyArgument "port")], .initWith ⟨"trace", false⟩] =
        run { format := some "JSON".toUTF8, filter := some "debug".toUTF8 }
          [.initWith c.observability, .operation [Rejection.event (.emptyArgument "port")],
            .initWith ⟨"trace", false⟩] ∧
      (run { format := some "JSON".toUTF8, filter := some "debug".toUTF8 }
          [.initDefault, .operation [Rejection.event (.emptyArgument "port")], .initWith ⟨"trace", false⟩])[1]? =
        some [.fields ⟨⟨40⟩, .emptyArgument, "port"⟩] := by
  have he : text? ({ format := some "JSON".toUTF8, filter := some "debug".toUTF8 } : Environment).level = none := rfl
  obtain ⟨c, hc, hrun, hshown, -⟩ := initializers_agree he
  refine ⟨he, c, hc, hrun [] _, ?_⟩
  have hconfig := Except.ok.inj (hc.symm.trans (loadEnvironment_ok he))
  refine (hshown [] [.operation [Rejection.event (.emptyArgument "port")], .initWith ⟨"trace", false⟩] (by simp) 0 _
    rfl).trans ?_
  subst hconfig
  decide

end Preconditions.Logging
