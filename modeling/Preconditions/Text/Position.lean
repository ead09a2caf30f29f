/-! # Places in a text, by line and column

A place is reached by a number of bytes of the text's UTF-8 form. Lines count from one; the column
is the number of bytes since the last line break.
-/

namespace Preconditions.Text

structure Position where
  line : Nat
  column : Nat
deriving DecidableEq, Repr

def lineBreak : UInt8 := 10

def Position.after (bytes : List UInt8) : Position where
  line := 1 + bytes.count lineBreak
  column := (bytes.reverse.takeWhile (· != lineBreak)).length

end Preconditions.Text
