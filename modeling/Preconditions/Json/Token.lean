import Preconditions.Decimal.Shortest
import Preconditions.Text.Quoted

/-!
# Tokens

A token says what a value is as soon as its kind is settled: a word, a number and a text are tokens with
their content, a list and an object are known by the opening bracket alone.
-/

namespace Preconditions.Json

open Decimal (Double)

inductive Number where
  | integer (n : Int)
  | double (x : Double)
deriving DecidableEq, Repr

inductive Token where
  | null
  | boolean (b : Bool)
  | number (n : Number)
  | text (s : String)
  | list
  | object
deriving DecidableEq, Repr

def Token.description : Token → String
  | .null => "null"
  | .boolean true => "boolean `true`"
  | .boolean false => "boolean `false`"
  | .number (.integer n) => "integer `" ++ toString n ++ "`"
  | .number (.double x) => "floating point `" ++ String.ofList x.text ++ "`"
  | .text s => "string " ++ Text.quoted s
  | .list => "sequence"
  | .object => "map"

end Preconditions.Json
