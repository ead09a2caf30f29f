import Preconditions.Logging.Level
import Preconditions.Text.Alphanumeric
import Preconditions.Text.Numeral
import Preconditions.Text.Pattern
import Preconditions.Text.Utf8
import Preconditions.Text.Whitespace

/-!
# Directives

A directive lets the events of some targets through up to a level. In brackets after the target it may be
narrowed to a span, or to events that have a field.
-/

namespace Preconditions.Logging

-- names are compared by core's own order, also where another library brings its own
attribute [local instance (high)] List.instLE List.decidableLE Char.instLT Char.instDecidableLt instDecidableEqChar

/-- The events of its targets that a directive is about: all, those that have a field, or those inside of
spans. A rejection is announced outside of all spans. -/
inductive Scope where
  | all
  | field (name : List Char)
  | spans
deriving DecidableEq, Repr

namespace Scope

def includes (fields : List (List Char)) : Scope → Bool
  | all => true
  | field name => fields.contains name
  | spans => false

/-- A scope with a field is narrower than one without; of two fields the later name counts as narrower. -/
def atMost : Scope → Scope → Bool
  | field a, field b => a ≤ b
  | field _, _ => false
  | _, _ => true

end Scope

/-- A target matches when it starts with that of the directive; all targets start with the empty one. -/
structure Directive where
  target : List Char
  scope : Scope
  level : Level
deriving DecidableEq, Repr

namespace Directive

def covers (target : List Char) (fields : List (List Char)) (d : Directive) : Bool :=
  d.target.isPrefixOf target && d.scope.includes fields

def atMost (a b : Directive) : Bool :=
  a.target.length < b.target.length || a.target.length == b.target.length && a.scope.atMost b.scope

/-! ## Reading -/

def canStart (c : Char) : Bool :=
  Text.isAlphanumeric c || c == '-' || c == ':' || c == '_' || c == '['

def inTarget (c : Char) : Bool := c != '=' && c != '['

def inSpanName (c : Char) : Bool := c != ']' && c != '{'

/-- A piece from the place on where `rest` stands once the piece is stripped. Places are counted in bytes, and
texts are taken from the piece as it is, so whitespace in front shifts them, whitespace at the end belongs to
them, and there is no text at a place inside of a character. -/
def textAt? (piece body rest : List Char) : Option (List Char) :=
  (Text.splitBytes? (Text.byteCount body - Text.byteCount rest) piece).map (·.2)

def textBetween? (piece body start stop : List Char) : Option (List Char) :=
  (textAt? piece body start).bind fun text =>
    (Text.splitBytes? (Text.byteCount start - Text.byteCount stop) text).map (·.1)

/-- The level after an equals sign; where there is no text all levels pass. -/
def level? (word : List Char) : Option Level := if word = [] then some .trace else Level.ofWord? word

/-- A field between braces, with a value that it should have, if any. A directive that names a span or a value
is about spans alone. -/
def fieldScope? (span field : List Char) : Option Scope :=
  let name := field.takeWhile (· != '=')
  match field.dropWhile (· != '=') with
  | [] => if field = [] then none else some (if span = [] then .field name else .spans)
  | _ :: values =>
    let value := values.takeWhile (· != '=')
    if Text.isNumeral value || Text.Pattern.isWellFormed value then some .spans else none

def scope? (piece body inside : List Char) : Option (Scope × List Char) :=
  let span := inside.takeWhile inSpanName
  match inside.dropWhile inSpanName with
  | ']' :: rest => some (.spans, rest)
  | '{' :: fields =>
    match fields.dropWhile (· != '}') with
    | '}' :: ']' :: rest =>
      ((textBetween? piece body fields ('}' :: ']' :: rest)).bind (fieldScope? span)).map (·, rest)
    | _ => none
  | _ => none

def ofWord (word : List Char) : Directive :=
  ((Level.ofWord? word).map fun l => ⟨[], .all, l⟩).getD ⟨word, .all, .trace⟩

def withLevel? (piece body word target : List Char) (scope : Scope) : Option Directive :=
  ((textAt? piece body word).bind level?).map fun l => ⟨target, scope, l⟩

def ofPiece? (piece : List Char) : Option Directive :=
  let body := Text.stripped piece
  if !body.head?.any canStart then none
  else
    match body.dropWhile inTarget with
    | [] => some (ofWord piece)
    | sign :: rest =>
      (textBetween? piece body body (sign :: rest)).bind fun target =>
        if sign = '=' then withLevel? piece body rest target .all
        else
          match scope? piece body rest with
          | some (scope, []) => some ⟨target, scope, .trace⟩
          | some (scope, '=' :: word) => withLevel? piece body word target scope
          | _ => none

end Directive

end Preconditions.Logging
