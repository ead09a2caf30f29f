import Preconditions.Json.Record
import Preconditions.Rejection

/-!
# Reports

A report carries a rejection in the body of an answer. In a document the parameter and the index are left out
where there is none.
-/

namespace Preconditions

structure Report where
  kind : Kind
  code : String
  message : String
  parameter : Option String
  index : Option UInt64
deriving DecidableEq, Repr

def Rejection.report (r : Rejection) : Report where
  kind := r.kind
  code := r.id.code
  message := r.message
  parameter := r.parameter
  index := r.index

namespace Report

def members (r : Report) : List (String × List Char) :=
  [("kind", Json.writtenText r.kind.name), ("code", Json.writtenText r.code),
    ("message", Json.writtenText r.message)] ++
  (r.parameter.map fun p => ("parameter", Json.writtenText p)).toList ++
  (r.index.map fun i => ("index", Json.writtenNat i.toNat)).toList

def written (r : Report) : String := String.ofList (Json.writtenObject r.members)

structure Draft where
  kind : Option Kind := none
  code : Option String := none
  message : Option String := none
  parameter : Option (Option String) := none
  index : Option (Option UInt64) := none

def Draft.finish (d : Draft) : Except String Report :=
  match d.kind, d.code, d.message with
  | some kind, some code, some message => .ok ⟨kind, code, message, d.parameter.join, d.index.join⟩
  | none, _, _ => .error "kind"
  | _, none, _ => .error "code"
  | _, _, none => .error "message"

def format : Json.RecordFormat Draft Report where
  title := "struct ErrorReport"
  fields := [
    .of "kind" (·.kind) (fun d k => { d with kind := some k }) Kind.reader,
    .of "code" (·.code) (fun d s => { d with code := some s }) .text,
    .of "message" (·.message) (fun d s => { d with message := some s }) .text,
    .of "parameter" (·.parameter) (fun d p => { d with parameter := some p }) (.optional .text),
    .of "index" (·.index) (fun d i => { d with index := some i }) (.optional .word64)]
  draft := {}
  finish := Draft.finish

def ofJson (text : String) : Except Json.Refusal Report := format.reader.decode text

end Report

end Preconditions
