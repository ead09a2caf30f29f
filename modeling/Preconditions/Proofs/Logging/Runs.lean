import Preconditions.Logging.Process
import Preconditions.Proofs.Logging.Records

/-!
# The first initialization

What a step writes depends on the steps before it through the sink alone, and the sink is that of the first
initialization. So a later one can be put in, taken out or changed, and the other steps write what they wrote.
-/

namespace Preconditions.Logging

def Step.initializes : Step → Bool
  | initDefault | initWith _ => true
  | operation _ => false

theorem Step.records_of_initializes {s : Step} (hs : s.initializes = true) (current : Option Sink) :
    s.records current = [] := by
  cases s with
  | operation events => cases hs
  | _ => rfl

section
variable (e : Environment)

/-! ## The sink of a run -/

theorem runFrom_append (current : Option Sink) (pre post : List Step) :
    runFrom e current (pre ++ post) = runFrom e current pre ++ runFrom e (installed e current pre) post := by
  induction pre generalizing current with
  | nil => rfl
  | cons s pre ih =>
    rw [List.cons_append, runFrom, ih, runFrom, List.cons_append]
    rfl

theorem run_append (pre post : List Step) :
    run e (pre ++ post) = run e pre ++ runFrom e (installed e none pre) post :=
  runFrom_append e none pre post

section
variable {e}

theorem run_first {before : List Step} {first : Step} {sink : Sink}
    (hb : ∀ s ∈ before, ∃ events, s = .operation events) (hs : first.sink? e = some sink) (later : List Step) :
    run e (before ++ first :: later) = before.map (fun _ => []) ++ [] :: runFrom e (some sink) later := by
  induction before with
  | nil =>
    have hr : first.records none = [] := by cases first <;> rfl
    rw [List.nil_append, run, runFrom, hr, Step.install, Option.none_or, hs]
    rfl
  | cons s before ih =>
    obtain ⟨events, rfl⟩ := hb s (by simp)
    rw [List.map_cons, List.cons_append, List.cons_append, ← ih fun s hs => hb s (by simp [hs])]
    rfl

theorem records_after_first {before later : List Step} {s : Step} {sink : Sink}
    (hb : ∀ s ∈ before, ∃ events, s = .operation events) (hs : s.sink? e = some sink) (k : Nat) :
    (run e (before ++ s :: later))[before.length + 1 + k]? = later[k]?.map (Step.records (some sink)) := by
  have hget : (before.map (fun _ => []) ++ [] :: runFrom e (some sink) later)[before.length + 1 + k]? =
      (runFrom e (some sink) later)[k]? := by
    rw [List.getElem?_append_right (by simp; omega), List.length_map,
      show before.length + 1 + k - before.length = k + 1 by omega, List.getElem?_cons_succ]
  rw [run_first hb hs, hget, getElem?_runFrom, installed_eq, Option.some_or]

end

theorem runFrom_alike (e' : Environment) {sink sink' : Sink} (hf : sink.format = sink'.format)
    (hs : sink.showsEvents = sink'.showsEvents) (steps : List Step) :
    runFrom e (some sink) steps = runFrom e' (some sink') steps := by
  have hr : ∀ s : Step, s.records (some sink) = s.records (some sink') := by
    intro s
    cases s with
    | operation events => simp only [Step.records, Option.map_some, Option.getD_some, Sink.records, hf, hs]
    | _ => rfl
  induction steps with
  | nil => rfl
  | cons s steps ih => rw [runFrom, runFrom, Step.install_some, Step.install_some, ih, hr s]

theorem run_alike (e' : Environment) {before : List Step} (hb : ∀ s ∈ before, ∃ events, s = .operation events)
    {first first' : Step} {sink sink' : Sink} (h : first.sink? e = some sink) (h' : first'.sink? e' = some sink')
    (hf : sink.format = sink'.format) (hs : sink.showsEvents = sink'.showsEvents) (later : List Step) :
    run e (before ++ first :: later) = run e' (before ++ first' :: later) := by
  rw [run_first hb h, run_first hb h', runFrom_alike e e' hf hs]

end

end Preconditions.Logging
