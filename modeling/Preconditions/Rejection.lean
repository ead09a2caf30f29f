import Preconditions.MessageId

/-!
# Rejections

Why a check fails. A rejection has a message of the catalog, which starts with its code; a kind, coarser than
the message; and the status that a server answers with.
-/

namespace Preconditions

inductive Kind where
  | missingArgument
  | nullReference
  | emptyArgument
  | invalidUsage
deriving DecidableEq, Repr

namespace Kind

def all : List Kind := [missingArgument, nullReference, emptyArgument, invalidUsage]

def name : Kind → String
  | missingArgument => "missing_argument"
  | nullReference => "null_reference"
  | emptyArgument => "empty_argument"
  | invalidUsage => "invalid_usage"

def title : Kind → String
  | missingArgument => "MissingArgument"
  | nullReference => "NullReference"
  | emptyArgument => "EmptyArgument"
  | invalidUsage => "InvalidUsage"

/-- A caller's mistake is a bad request; a misused check is a fault of the server. -/
def status : Kind → UInt16
  | invalidUsage => 500
  | _ => 400

def written (k : Kind) : String := String.ofList (Json.writtenText k.name)

def reader : Json.Reader Kind := .variant (all.map fun k => (k.name, k))

def ofJson (text : String) : Except Json.Refusal Kind := reader.decode text

end Kind

inductive Rejection where
  | missingArgument (name : String)
  | nullReference (name : String)
  | missingElement (name : String) (index : UInt64)
  | emptyArgument (name : String)
  | invalidUsage (detail : String)
deriving DecidableEq, Repr

namespace Rejection

def kind : Rejection → Kind
  | missingArgument _ | missingElement .. => .missingArgument
  | nullReference _ => .nullReference
  | emptyArgument _ => .emptyArgument
  | invalidUsage _ => .invalidUsage

def id : Rejection → MessageId
  | missingArgument _ => ⟨37⟩
  | nullReference _ => ⟨38⟩
  | missingElement .. => ⟨39⟩
  | emptyArgument _ => ⟨40⟩
  | invalidUsage _ => ⟨41⟩

def wording : Rejection → String
  | missingArgument name => "Argument " ++ name ++ " cannot be null"
  | nullReference name => "Argument " ++ name ++ " cannot be null (null reference)"
  | missingElement name index =>
    "Array index " ++ toString index.toNat ++ " of parameter '" ++ name ++ "' may not be null"
  | emptyArgument name => "Parameter '" ++ name ++ "' may not be empty"
  | invalidUsage detail => "Invalid use of parameter checks: " ++ detail

def message (r : Rejection) : String := r.id.code ++ ": " ++ r.wording

def parameter : Rejection → Option String
  | missingArgument name | nullReference name | missingElement name _ | emptyArgument name => some name
  | invalidUsage _ => none

def index : Rejection → Option UInt64
  | missingElement _ index => some index
  | _ => none

def status (r : Rejection) : UInt16 := r.kind.status

end Rejection

end Preconditions
