import Preconditions.Json.Document
import Preconditions.Json.Scalar
import Preconditions.Json.Writing

/-!
# Message numbers

A message of the catalog is known by its number. The code of a message shows the number in six digits, so
codes sort as numbers do.
-/

namespace Preconditions

structure MessageId where
  number : UInt16
deriving DecidableEq, Repr

namespace MessageId

def codeWidth : Nat := 6

def padded (width n : Nat) : List Char :=
  let ds := Nat.toDigits 10 n
  List.replicate (width - ds.length) '0' ++ ds

def code (id : MessageId) : String := "PARAM" ++ String.ofList (padded codeWidth id.number.toNat)

instance : Ord MessageId := ⟨fun a b => compare a.number b.number⟩

def dropRepeats : List MessageId → List MessageId
  | a :: b :: ids => if a = b then dropRepeats (b :: ids) else a :: dropRepeats (b :: ids)
  | ids => ids

def sorted (ids : List MessageId) : List MessageId :=
  dropRepeats (ids.mergeSort fun a b => a.number ≤ b.number)

def written (id : MessageId) : String := String.ofList (Json.writtenNat id.number.toNat)

def reader : Json.Reader MessageId := Json.Reader.word16.map MessageId.mk

def ofJson (text : String) : Except Json.Refusal MessageId := reader.decode text

end MessageId

end Preconditions
