import Preconditions.Json.Token
import Preconditions.Text.Position
import Preconditions.Text.Utf8

/-!
# Faults

Why a document is refused, and where. A fault keeps the part of the text that is left, so its place is a
number of bytes counted from the end of the text.
-/

namespace Preconditions.Json

open Text (byteCount byteCount_le_of_suffix utf8)

inductive Cause where
  | endInValue
  | endInText
  | endInList
  | endInObject
  | expectedValue
  | expectedWord
  | expectedColon
  | expectedListComma
  | expectedObjectComma
  | expectedTextKey
  | trailingComma
  | trailingCharacters
  | controlCharacter
  | invalidEscape
  | unpairedSurrogate
  | unfinishedPair
  | invalidNumber
  | numberOutOfRange
  | invalidType (found : Token) (wanted : String)
  | invalidValue (found : Int) (wanted : String)
  | invalidLength (found : Nat) (wanted : String)
  | unknownVariant (found : String) (known : List String)
  | missingField (name : String)
  | duplicateField (name : String)
deriving DecidableEq, Repr

/-- A document ends too early, breaks the grammar, or holds well-formed data of another shape. -/
inductive Category where
  | truncated
  | malformed
  | mismatched
deriving DecidableEq, Repr

namespace Cause

def category : Cause → Category
  | endInValue | endInText | endInList | endInObject => .truncated
  | invalidType .. | invalidValue .. | invalidLength .. => .mismatched
  | unknownVariant .. | missingField .. | duplicateField .. => .mismatched
  | _ => .malformed

def ticked (name : String) : String := "`" ++ name ++ "`"

def message : Cause → String
  | endInValue => "EOF while parsing a value"
  | endInText => "EOF while parsing a string"
  | endInList => "EOF while parsing a list"
  | endInObject => "EOF while parsing an object"
  | expectedValue => "expected value"
  | expectedWord => "expected ident"
  | expectedColon => "expected `:`"
  | expectedListComma => "expected `,` or `]`"
  | expectedObjectComma => "expected `,` or `\x7d`"
  | expectedTextKey => "key must be a string"
  | trailingComma => "trailing comma"
  | trailingCharacters => "trailing characters"
  | controlCharacter => "control character (\\u0000-\\u001F) found while parsing a string"
  | invalidEscape => "invalid escape"
  | unpairedSurrogate => "lone leading surrogate in hex escape"
  | unfinishedPair => "unexpected end of hex escape"
  | invalidNumber => "invalid number"
  | numberOutOfRange => "number out of range"
  | invalidType found wanted => "invalid type: " ++ found.description ++ ", expected " ++ wanted
  | invalidValue found wanted =>
    "invalid value: integer " ++ ticked (toString found) ++ ", expected " ++ wanted
  | invalidLength found wanted => "invalid length " ++ toString found ++ ", expected " ++ wanted
  | unknownVariant found known =>
    "unknown variant " ++ ticked found ++ ", expected one of " ++ String.intercalate ", " (known.map ticked)
  | missingField name => "missing field " ++ ticked name
  | duplicateField name => "duplicate field " ++ ticked name

end Cause

/-- A cause, the text that is left, and how many bytes of it the place of the fault lies ahead. -/
structure Fault where
  cause : Cause
  rest : List Char
  ahead : Nat
deriving DecidableEq, Repr

namespace Fault

def here (cause : Cause) (rest : List Char) : Fault := ⟨cause, rest, 0⟩

def next (cause : Cause) (rest : List Char) : Fault := ⟨cause, rest, 1⟩

end Fault

/-- The number of bytes of a text before the place of a fault. No place lies past the end of the text. -/
def Fault.offset (f : Fault) (text : List Char) : Nat :=
  byteCount text - byteCount f.rest + min f.ahead (byteCount f.rest)

theorem Fault.offset_le {f : Fault} {text : List Char} (h : f.rest <:+ text) :
    f.offset text ≤ byteCount text := by
  have := byteCount_le_of_suffix h
  simp only [offset]
  omega

structure Refusal where
  cause : Cause
  position : Text.Position
deriving DecidableEq, Repr

def Fault.refusal (f : Fault) (text : String) : Refusal :=
  ⟨f.cause, .after ((utf8 text.toList).take (f.offset text.toList))⟩

def Refusal.message (r : Refusal) : String :=
  r.cause.message ++ " at line " ++ toString r.position.line ++ " column " ++ toString r.position.column

end Preconditions.Json
