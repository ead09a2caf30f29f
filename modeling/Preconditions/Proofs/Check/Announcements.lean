import Preconditions.Check.Scan
import Preconditions.Check.Variable
import Preconditions.Config
import Preconditions.Report

/-!
# Announcements

A result is announced when the log is told of nothing but the rejection that the caller gets, and is told of it
once. Going on after a check keeps results announced, so every use of the library does.
-/

namespace Preconditions

universe u v

namespace Checked
variable {α : Type u} {β : Type v}

inductive Announced : Checked α → Prop where
  | passed (a : α) : Announced ⟨.ok a, []⟩
  | rejected (r : Rejection) : Announced ⟨.error r, [r.event]⟩

theorem announced_pass (a : α) : (pass a).Announced := .passed a

theorem announced_reject (r : Rejection) : (reject (Catalog.announced r) : Checked α).Announced := .rejected r

theorem Announced.bind {c : Checked α} (hc : c.Announced) {k : α → Checked β} (hk : ∀ a, (k a).Announced) :
    (c.bind k).Announced := by
  cases hc with
  | passed a => exact hk a
  | rejected r => exact .rejected r

theorem Announced.map {c : Checked α} (hc : c.Announced) (f : α → β) : (c.map f).Announced :=
  hc.bind fun a => announced_pass (f a)

theorem Announced.events_of_error {c : Checked α} (hc : c.Announced) {r : Rejection} (h : c.result = .error r) :
    c.events = [r.event] := by
  cases hc with
  | passed a => cases h
  | rejected r' =>
    cases h
    rfl

end Checked

/-! ## Checks -/

namespace Check
variable {α : Type u}

theorem announced_named (name : String) {check : Checked α} (h : check.Announced) : (named name check).Announced := by
  unfold named
  split
  · exact Checked.announced_reject _
  · exact h

theorem announced_present (r : Rejection) (value : Option α) : (present (Catalog.announced r) value).Announced := by
  cases value with
  | none => exact Checked.announced_reject r
  | some a => exact Checked.announced_pass a

theorem announced_notNull (name : String) (value : Option α) : (notNull name value).Announced :=
  announced_named name (announced_present _ value)

theorem announced_notNullStrict (name : String) (value : Option α) : (notNullStrict name value).Announced :=
  announced_named name (announced_present _ value)

theorem announced_notNullElement (name : String) (index : UInt64) (value : Option α) :
    (notNullElement name index value).Announced :=
  announced_named name (announced_present _ value)

theorem announced_notEmpty [Emptiness α] (name : String) (value : α) : (notEmpty name value).Announced := by
  refine announced_named name ?_
  split
  · exact Checked.announced_reject _
  · exact Checked.announced_pass value

theorem announced_presentNotEmpty [Emptiness α] (name : String) (value : Option α) :
    (presentNotEmpty name value).Announced :=
  announced_named name ((announced_present _ value).bind (announced_notEmpty name))

theorem announced_scanFrom (name : String) (position : Nat) (values : List (Option α)) :
    (scanFrom name position values).found.Announced := by
  induction values generalizing position with
  | nil => exact Checked.announced_pass []
  | cons value values ih =>
    have hc := announced_notNullElement name (.ofNat position) value
    simp only [scanFrom]
    split
    · exact hc.bind fun a => (ih (position + 1)).map (a :: ·)
    · rename_i r hr
      rw [hc.events_of_error hr]
      exact .rejected r

theorem announced_allNotNull (name : String) (values : List (Option α)) : (allNotNull name values).found.Announced := by
  unfold allNotNull
  split
  · exact Checked.announced_reject _
  · exact announced_scanFrom name 0 values

end Check

/-! ## Configuration -/

namespace Config

theorem announced_validate (c : Config) : c.validate.Announced := by
  refine (Check.announced_notEmpty levelLabel _).bind fun level => ?_
  split
  · exact Checked.announced_pass ()
  · exact Checked.announced_reject _

theorem announced_validated (c : Config) : c.validated.Announced := c.announced_validate.map fun _ => c

theorem announced_load (text : String) : (load text).Announced := by
  unfold load
  split
  · exact announced_validated _
  · exact Checked.announced_reject _

end Config

/-! ## Uses of the library -/

inductive Inquiry where
  | construct (r : Rejection)
  | kind (r : Rejection)
  | id (r : Rejection)
  | message (r : Rejection)
  | parameter (r : Rejection)
  | index (r : Rejection)
  | status (r : Rejection)
  | report (r : Rejection)
  | readKind (text : String)
  | readReport (text : String)
  | readId (text : String)
  | readObservability (text : String)
  | readConfig (text : String)

namespace Inquiry

def Answer : Inquiry → Type
  | construct _ => Rejection
  | kind _ => Kind
  | id _ => MessageId
  | message _ => String
  | parameter _ => Option String
  | index _ => Option UInt64
  | status _ => UInt16
  | report _ => Report
  | readKind _ => Except Json.Refusal Kind
  | readReport _ => Except Json.Refusal Report
  | readId _ => Except Json.Refusal MessageId
  | readObservability _ => Except Json.Refusal Observability
  | readConfig _ => Except Json.Refusal Config

def answer : (q : Inquiry) → q.Answer
  | construct r => r
  | kind r => r.kind
  | id r => r.id
  | message r => r.message
  | parameter r => r.parameter
  | index r => r.index
  | status r => r.status
  | report r => r.report
  | readKind text => Kind.ofJson text
  | readReport text => Report.ofJson text
  | readId text => MessageId.ofJson text
  | readObservability text => Observability.ofJson text
  | readConfig text => Config.ofJson text

end Inquiry

/-- A use of the library with its arguments. A check of a parameter by an explicit name is the check itself. -/
inductive Operation : Type (u + 1) where
  | notNull {α : Type u} (name : String) (value : Option α)
  | notNullStrict {α : Type u} (name : String) (value : Option α)
  | notNullElement {α : Type u} (name : String) (index : UInt64) (value : Option α)
  | allNotNull {α : Type u} (name : String) (values : List (Option α))
  | notEmpty {α : Type u} [Emptiness α] (name : String) (value : α)
  | presentNotEmpty {α : Type u} [Emptiness α] (name : String) (value : Option α)
  | variableNotNull {α : Type u} (v : Variable (Option α))
  | variableNotEmpty {α : Type u} [Emptiness α] (v : Variable α)
  | missingArgument (name : String)
  | nullReference (name : String)
  | missingElement (index : UInt64) (name : String)
  | emptyArgument (name : String)
  | invalidUsage (detail : String)
  | validate (c : Config)
  | load (text : String)
  | loadEnvironment (e : Environment)

structure Outcome where
  rejection : Option Rejection
  events : List Event

namespace Outcome

def ofChecked {α : Type u} (c : Checked α) : Outcome where
  rejection :=
    match c.result with
    | .ok _ => none
    | .error r => some r
  events := c.events

def ofLogged (r : Logged Rejection) : Outcome := ⟨some r.value, r.events⟩

theorem events_ofChecked {α : Type u} {c : Checked α} (hc : c.Announced) :
    (ofChecked c).events = ((ofChecked c).rejection.map Rejection.event).toList := by
  cases hc <;> rfl

end Outcome

namespace Operation

def perform : Operation.{u} → Outcome
  | notNull name value => .ofChecked (Check.notNull name value)
  | notNullStrict name value => .ofChecked (Check.notNullStrict name value)
  | notNullElement name index value => .ofChecked (Check.notNullElement name index value)
  | allNotNull name values => .ofChecked (Check.allNotNull name values).found
  | notEmpty name value => .ofChecked (Check.notEmpty name value)
  | presentNotEmpty name value => .ofChecked (Check.presentNotEmpty name value)
  | variableNotNull v => .ofChecked v.notNull
  | variableNotEmpty v => .ofChecked v.notEmpty
  | missingArgument name => .ofLogged (Catalog.missingArgument name)
  | nullReference name => .ofLogged (Catalog.nullReference name)
  | missingElement index name => .ofLogged (Catalog.missingElement index name)
  | emptyArgument name => .ofLogged (Catalog.emptyArgument name)
  | invalidUsage detail => .ofLogged (Catalog.invalidUsage detail)
  | validate c => .ofChecked c.validate
  | load text => .ofChecked (Config.load text)
  | loadEnvironment e => .ofChecked (Config.loadEnvironment e)

theorem events_perform (op : Operation.{u}) :
    op.perform.events = (op.perform.rejection.map Rejection.event).toList := by
  cases op with
  | notNull name value => exact Outcome.events_ofChecked (Check.announced_notNull name value)
  | notNullStrict name value => exact Outcome.events_ofChecked (Check.announced_notNullStrict name value)
  | notNullElement name index value => exact Outcome.events_ofChecked (Check.announced_notNullElement name index value)
  | allNotNull name values => exact Outcome.events_ofChecked (Check.announced_allNotNull name values)
  | notEmpty name value => exact Outcome.events_ofChecked (Check.announced_notEmpty name value)
  | presentNotEmpty name value => exact Outcome.events_ofChecked (Check.announced_presentNotEmpty name value)
  | variableNotNull v => exact Outcome.events_ofChecked (Check.announced_notNull v.name v.value)
  | variableNotEmpty v => exact Outcome.events_ofChecked (Check.announced_notEmpty v.name v.value)
  | validate c => exact Outcome.events_ofChecked c.announced_validate
  | load text => exact Outcome.events_ofChecked (Config.announced_load text)
  | loadEnvironment e => exact Outcome.events_ofChecked (Config.announced_validated _)
  | _ => rfl

end Operation

/-! ## Programs -/

/-- A program that goes on with what it gets: after a use of the library the rejection, if there is one, and after an
inquiry the answer. -/
inductive Program : Type (u + 1) where
  | done
  | use (op : Operation.{u}) (next : Option Rejection → Program)
  | ask (q : Inquiry) (next : q.Answer → Program)

namespace Program

def events : Program.{u} → List Event
  | done => []
  | use op next => op.perform.events ++ (next op.perform.rejection).events
  | ask q next => (next q.answer).events

def rejections : Program.{u} → List Rejection
  | done => []
  | use op next => op.perform.rejection.toList ++ (next op.perform.rejection).rejections
  | ask q next => (next q.answer).rejections

inductive Asks : Program.{u} → Prop
  | done : Asks .done
  | ask {q : Inquiry} {next : q.Answer → Program.{u}} (h : Asks (next q.answer)) : Asks (.ask q next)

theorem events_eq (p : Program.{u}) : p.events = p.rejections.map Rejection.event := by
  induction p with
  | done => rfl
  | use op next ih =>
    rw [events, rejections, List.map_append, op.events_perform, ih]
    cases op.perform.rejection <;> rfl
  | ask q next ih => exact ih q.answer

theorem Asks.rejections_eq_nil {p : Program.{u}} (h : p.Asks) : p.rejections = [] := by
  induction h with
  | done => rfl
  | ask _ ih => exact ih

end Program

namespace Operation

/-- **One event for a rejection.** A use of the library that yields no rejection tells the log nothing. One that
yields a rejection tells it once, with the message, the kind and the parameter of that very rejection. So a program
tells the log of its rejections one by one, whatever it asks between them; and if it only asks, nothing. -/
theorem events_of_rejection (op : Operation.{u}) :
    (op.perform.rejection = none → op.perform.events = []) ∧
    (∀ r, op.perform.rejection = some r → op.perform.events = [⟨r.id, r.kind, r.parameter.getD ""⟩]) ∧
    (∀ p : Program.{u}, p.events = p.rejections.map fun r => ⟨r.id, r.kind, r.parameter.getD ""⟩) ∧
    ∀ p : Program.{u}, p.Asks → p.events = [] := by
  refine ⟨fun h => ?_, fun r h => ?_, Program.events_eq, fun p hp => ?_⟩
  · rw [events_perform, h]
    rfl
  · rw [events_perform, h]
    rfl
  · rw [p.events_eq, hp.rejections_eq_nil]
    rfl

/-- Two elements are absent, and one event is emitted; a document is refused where it is only read, and none is. -/
theorem events_of_rejection_scan :
    (allNotNull "ids" [some 'a', none, none]).perform.rejection = some (.missingElement "ids" 1) ∧
    (allNotNull "ids" [some 'a', none, none]).perform.events = [⟨⟨39⟩, .missingArgument, "ids"⟩] ∧
    (Program.ask.{0} (.readConfig "[") fun _ => .ask (.report (.missingElement "ids" 1)) fun _ => .done).events = [] ∧
    (Program.ask (.readConfig "[") fun _ => .use (allNotNull "ids" [some 'a', none, none]) fun _ => .done).events =
      [⟨⟨39⟩, .missingArgument, "ids"⟩] := by
  obtain ⟨-, htold, hprogram, hasks⟩ := events_of_rejection (allNotNull "ids" [some 'a', none, none])
  exact ⟨rfl, htold _ rfl, hasks _ (.ask (.ask .done)), hprogram _⟩

end Operation

end Preconditions
