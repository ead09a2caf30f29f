import Preconditions.Text.Caseless

/-!
# Levels

A level is the greatest detail that is let through. It is written as a word, in any case, or as a number.
-/

namespace Preconditions.Logging

inductive Level where
  | off
  | error
  | warn
  | info
  | debug
  | trace
deriving DecidableEq, Repr

namespace Level

/-- A level's number is its place in this list. -/
def all : List Level := [off, error, warn, info, debug, trace]

def name : Level → List Char
  | off => ['o', 'f', 'f']
  | error => ['e', 'r', 'r', 'o', 'r']
  | warn => ['w', 'a', 'r', 'n']
  | info => ['i', 'n', 'f', 'o']
  | debug => ['d', 'e', 'b', 'u', 'g']
  | trace => ['t', 'r', 'a', 'c', 'e']

def ofName? (word : List Char) : Option Level := all.find? fun l => Text.lowered word == l.name

def digitsValue (ds : List Char) : Nat := ds.foldl (fun n d => 10 * n + (d.toNat - '0'.toNat)) 0

def ofDigits? (ds : List Char) : Option Level :=
  if ds ≠ [] ∧ ds.all Char.isDigit then all[digitsValue ds]? else none

def ofNumber? : List Char → Option Level
  | '+' :: ds => ofDigits? ds
  | ds => ofDigits? ds

def ofWord? (word : List Char) : Option Level := (ofNumber? word).or (ofName? word)

def showsDebug : Level → Bool
  | debug | trace => true
  | _ => false

end Level

end Preconditions.Logging
