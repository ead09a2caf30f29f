import Preconditions.Check.Content
import Preconditions.Environment
import Preconditions.Json.Record

/-!
# Configuration

The configuration of a process says which log level it starts with and whether its log is written as JSON.
It is loaded from a document or from the environment, and is valid when its level is one of five words.
-/

namespace Preconditions

structure Observability where
  logLevel : String := "info"
  jsonLogs : Bool := false
deriving DecidableEq, Repr

structure Config where
  observability : Observability := {}
deriving DecidableEq, Repr

/-! ## Documents -/

namespace Observability

def members (o : Observability) : List (String × List Char) :=
  [("log_level", Json.writtenText o.logLevel), ("json_logs", Json.writtenBool o.jsonLogs)]

def written (o : Observability) : String := String.ofList (Json.writtenObject o.members)

structure Draft where
  logLevel : Option String := none
  jsonLogs : Option Bool := none

def Draft.finish (d : Draft) : Observability where
  logLevel := d.logLevel.getD ({} : Observability).logLevel
  jsonLogs := d.jsonLogs.getD ({} : Observability).jsonLogs

def format : Json.RecordFormat Draft Observability where
  title := "struct ObservabilityConfig"
  fields := [
    .of "log_level" (·.logLevel) (fun d s => { d with logLevel := some s }) .text,
    .of "json_logs" (·.jsonLogs) (fun d b => { d with jsonLogs := some b }) .boolean]
  draft := {}
  finish d := .ok d.finish

def ofJson (text : String) : Except Json.Refusal Observability := format.reader.decode text

end Observability

namespace Config

def written (c : Config) : String :=
  String.ofList (Json.writtenObject [("observability", Json.writtenObject c.observability.members)])

def format : Json.RecordFormat (Option Observability) Config where
  title := "struct Config"
  fields := [.of "observability" id (fun _ o => some o) Observability.format.reader]
  draft := none
  finish d := .ok ⟨d.getD {}⟩

def ofJson (text : String) : Except Json.Refusal Config := format.reader.decode text

/-! ## Validity -/

def levels : List String := ["trace", "debug", "info", "warn", "error"]

def levelLabel : String := "observability.log_level"

def knownLevel (level : String) : Bool := levels.any (Text.sameIgnoringCase level)

def validate (c : Config) : Checked Unit :=
  (Check.notEmpty levelLabel c.observability.logLevel).bind fun level =>
    if knownLevel level then .pass ()
    else .reject (Catalog.invalidUsage ("unknown log level '" ++ level ++ "'"))

def validated (c : Config) : Checked Config := c.validate.map fun _ => c

/-! ## Loading -/

/-- A document that is refused is a misuse of the checks. -/
def load (text : String) : Checked Config :=
  match ofJson text with
  | .ok c => c.validated
  | .error e => .reject (Catalog.invalidUsage ("malformed config: " ++ e.message))

end Config

/-! ## Environment -/

def Observability.ofEnvironment (e : Environment) : Observability where
  logLevel := (Environment.text? e.level).getD ({} : Observability).logLevel
  jsonLogs := ((Environment.text? e.format).map Environment.asksForJson).getD ({} : Observability).jsonLogs

def Config.loadEnvironment (e : Environment) : Checked Config := validated ⟨.ofEnvironment e⟩

end Preconditions
