import Preconditions.Config
import Preconditions.Logging.Filter
import Preconditions.Logging.Record

/-!
# The log of a process

The first initialization of a process decides how its log is written and what it shows; later ones change
nothing. Before it nothing is written.
-/

namespace Preconditions.Logging

structure Sink where
  format : Format
  filter : Filter
deriving DecidableEq, Repr

namespace Sink

def showsEvents (s : Sink) : Bool :=
  (s.filter.levelFor Event.target.toList (Event.fields.map String.toList)).showsDebug

def records (s : Sink) (events : List Event) : List Record :=
  if s.showsEvents then events.map s.format.record else []

/-- A filter from the environment wins over the configured level, unless a piece of it is malformed. -/
def filterOf (e : Environment) (level : String) : Filter :=
  let strict := (Environment.text? e.filter).bind fun text => Filter.strict? text.toList
  strict.getD (Filter.lenient level.toList)

def formatOf (json : Bool) : Format := if json then .json else .compact

def configured (e : Environment) (o : Observability) : Sink := ⟨formatOf o.jsonLogs, filterOf e o.logLevel⟩

def defaultLevel : String := "info"

def default (e : Environment) : Sink :=
  ⟨formatOf ((Environment.text? e.format).any Environment.asksForJson), filterOf e defaultLevel⟩

end Sink

inductive Step where
  | initDefault
  | initWith (o : Observability)
  | operation (events : List Event)
deriving DecidableEq, Repr

def Step.sink? (e : Environment) : Step → Option Sink
  | initDefault => some (.default e)
  | initWith o => some (.configured e o)
  | operation _ => none

def Step.install (e : Environment) (current : Option Sink) (s : Step) : Option Sink := current.or (s.sink? e)

theorem Step.install_some (e : Environment) (sink : Sink) (s : Step) :
    s.install e (some sink) = some sink := rfl

def Step.records (current : Option Sink) : Step → List Record
  | operation events => (current.map (·.records events)).getD []
  | _ => []

def runFrom (e : Environment) : Option Sink → List Step → List (List Record)
  | _, [] => []
  | current, s :: steps => s.records current :: runFrom e (s.install e current) steps

def installed (e : Environment) (current : Option Sink) (steps : List Step) : Option Sink :=
  steps.foldl (Step.install e) current

theorem installed_eq (e : Environment) (current : Option Sink) (steps : List Step) :
    installed e current steps = current.or (steps.findSome? (Step.sink? e)) := by
  induction steps generalizing current with
  | nil => simp [installed]
  | cons s steps ih =>
    have h : installed e current (s :: steps) = installed e (s.install e current) steps := rfl
    rw [h, ih, Step.install, Option.or_assoc, List.findSome?_cons]
    cases s.sink? e <;> rfl

theorem getElem?_runFrom (e : Environment) (current : Option Sink) (steps : List Step) (k : Nat) :
    (runFrom e current steps)[k]? = steps[k]?.map (Step.records (installed e current (steps.take k))) := by
  induction steps generalizing current k with
  | nil => simp [runFrom]
  | cons s steps ih =>
    cases k with
    | zero => simp [runFrom, installed]
    | succ k => simp [runFrom, ih, installed]

def run (e : Environment) (steps : List Step) : List (List Record) := runFrom e none steps

end Preconditions.Logging
