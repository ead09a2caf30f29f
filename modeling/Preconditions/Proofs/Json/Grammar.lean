import Preconditions.Json.Document
import Preconditions.Json.Scalar

/-!
# The grammar of documents

A document spells one value. `Value` keeps what a reader can tell apart: the pieces of a text literal, the
digits of a number, the members of an object in their order. `Spells` says which texts spell a value, with any
blanks between tokens; it knows nothing of the readers.
-/

namespace Preconditions.Json

/-! ## Text literals -/

/-- A character that is written or escaped by a letter, or a code unit in hexadecimal. -/
inductive Piece where
  | char (c : Char)
  | unit (u : UInt16)
deriving DecidableEq, Repr

def escapeLetters : List (Char × Char) :=
  [('"', '"'), ('\\', '\\'), ('/', '/'), ('b', '\x08'), ('f', '\x0c'), ('n', '\n'), ('r', '\r'), ('t', '\t')]

inductive Piece.Spelled : Piece → List Char → Prop where
  | plain {c : Char} : 0x20 ≤ c.toNat → c ≠ '"' → c ≠ '\\' → Spelled (.char c) [c]
  | letter {e c : Char} : (e, c) ∈ escapeLetters → Spelled (.char c) ['\\', e]
  | hexadecimal {a b c d : Char} {u : UInt16} : hexUnit? a b c d = some u.toNat →
      Spelled (.unit u) ['\\', 'u', a, b, c, d]

inductive TextSpelled : List Piece → List Char → Prop where
  | nil : TextSpelled [] []
  | cons {p : Piece} {ps : List Piece} {x w : List Char} : p.Spelled x → TextSpelled ps w →
      TextSpelled (p :: ps) (x ++ w)

def codeUnits (c : Char) : List Nat :=
  if c.toNat < 0x10000 then [c.toNat]
  else [0xD800 + (c.toNat - 0x10000) / 0x400, 0xDC00 + (c.toNat - 0x10000) % 0x400]

def Piece.units : Piece → List Nat
  | char c => codeUnits c
  | unit u => [u.toNat]

/-- The pieces have the code units of the characters. A surrogate without its partner fits no characters. -/
def Decodes (ps : List Piece) (cs : List Char) : Prop := ps.flatMap Piece.units = cs.flatMap codeUnits

/-! ## Numbers -/

def IsDigits (w : List Char) : Prop := w ≠ [] ∧ ∀ c ∈ w, c.isDigit = true

inductive FractionSpelled : List Char → List Char → Prop where
  | absent : FractionSpelled [] []
  | present {ds : List Char} : IsDigits ds → FractionSpelled ds ('.' :: ds)

inductive ExponentSpelled : Option Exponent → List Char → Prop where
  | absent : ExponentSpelled none []
  | bare {e : Char} {ds : List Char} : e = 'e' ∨ e = 'E' → IsDigits ds →
      ExponentSpelled (some ⟨false, ds⟩) (e :: ds)
  | plus {e : Char} {ds : List Char} : e = 'e' ∨ e = 'E' → IsDigits ds →
      ExponentSpelled (some ⟨false, ds⟩) (e :: '+' :: ds)
  | minus {e : Char} {ds : List Char} : e = 'e' ∨ e = 'E' → IsDigits ds →
      ExponentSpelled (some ⟨true, ds⟩) (e :: '-' :: ds)

inductive Literal.Spelled : Literal → List Char → Prop where
  | mk {negative : Bool} {whole fraction f e : List Char} {exponent : Option Exponent} : IsDigits whole →
      (whole.head? = some '0' → whole = ['0']) → FractionSpelled fraction f → ExponentSpelled exponent e →
      Spelled ⟨negative, whole, fraction, exponent⟩ ((if negative then ['-'] else []) ++ whole ++ f ++ e)

/-! ## Values -/

inductive Value where
  | null
  | boolean (b : Bool)
  | number (l : Literal)
  | text (ps : List Piece)
  | list (elements : List Value)
  | object (members : List (List Piece × Value))

def Blank (w : List Char) : Prop := ∀ c ∈ w, isBlank c = true

/-- What stands before an element or a member: a comma, unless it is the first. -/
inductive Gap : Bool → List Char → Prop where
  | first {b : List Char} : Blank b → Gap true b
  | next {b b' : List Char} : Blank b → Blank b' → Gap false (b ++ ',' :: b')

inductive KeySpelled : List Piece → List Char → Prop where
  | mk {k : List Piece} {w b b' : List Char} : TextSpelled k w → Blank b → Blank b' →
      KeySpelled k ('"' :: w ++ '"' :: b ++ ':' :: b')

mutual

inductive Spells : Value → List Char → Prop where
  | nullWord : Spells .null ['n', 'u', 'l', 'l']
  | trueWord : Spells (.boolean true) ['t', 'r', 'u', 'e']
  | falseWord : Spells (.boolean false) ['f', 'a', 'l', 's', 'e']
  | number {l : Literal} {w : List Char} : l.Spelled w → Spells (.number l) w
  | text {ps : List Piece} {w : List Char} : TextSpelled ps w → Spells (.text ps) ('"' :: w ++ ['"'])
  | list {vs : List Value} {w : List Char} : Elements true vs w → Spells (.list vs) ('[' :: w ++ [']'])
  | object {ms : List (List Piece × Value)} {w : List Char} : Members true ms w →
      Spells (.object ms) ('{' :: w ++ ['}'])

inductive Elements : Bool → List Value → List Char → Prop where
  | nil {isFirst : Bool} {b : List Char} : Blank b → Elements isFirst [] b
  | cons {isFirst : Bool} {v : Value} {vs : List Value} {g w t : List Char} : Gap isFirst g → Spells v w →
      Elements false vs t → Elements isFirst (v :: vs) (g ++ w ++ t)

inductive Members : Bool → List (List Piece × Value) → List Char → Prop where
  | nil {isFirst : Bool} {b : List Char} : Blank b → Members isFirst [] b
  | cons {isFirst : Bool} {k : List Piece} {v : Value} {ms : List (List Piece × Value)}
      {g x w t : List Char} : Gap isFirst g → KeySpelled k x → Spells v w → Members false ms t →
      Members isFirst ((k, v) :: ms) (g ++ x ++ w ++ t)

end

inductive Document : Value → List Char → Prop where
  | mk {v : Value} {b w b' : List Char} : Blank b → Spells v w → Blank b' → Document v (b ++ w ++ b')

inductive Spaced (P : List Char → Prop) : List Char → Prop where
  | mk {b w b' : List Char} : Blank b → P w → Blank b' → Spaced P (b ++ w ++ b')

theorem spaced_congr {P Q : List Char → Prop} (h : ∀ w, P w ↔ Q w) {s : List Char} : Spaced P s ↔ Spaced Q s := by
  rw [funext fun w => propext (h w)]

theorem exists_document_iff {q : Value → Prop} {s : List Char} :
    (∃ v, Document v s ∧ q v) ↔ Spaced (fun w => ∃ v, Spells v w ∧ q v) s := by
  constructor
  · intro hx
    obtain ⟨v, ⟨hb, hw, hb'⟩, hv⟩ := hx
    exact .mk hb ⟨v, hw, hv⟩ hb'
  · intro hx
    obtain ⟨hb, ⟨v, hw, hv⟩, hb'⟩ := hx
    exact ⟨v, .mk hb hw hb', hv⟩

/-! ## Blanks -/

theorem skipBlanks_append {b : List Char} (hb : Blank b) (s : List Char) : skipBlanks (b ++ s) = skipBlanks s :=
  List.dropWhile_append_of_pos hb

theorem skipBlanks_append_cons {b : List Char} (hb : Blank b) {c : Char} (hc : isBlank c = false) (t : List Char) :
    skipBlanks (b ++ c :: t) = c :: t := by
  rw [skipBlanks_append hb, skipBlanks_eq_self hc]

theorem skipBlanks_blank {b : List Char} (hb : Blank b) : skipBlanks b = [] := by
  simpa [skipBlanks] using skipBlanks_append hb []

theorem exists_blank (s : List Char) : ∃ b, Blank b ∧ s = b ++ skipBlanks s :=
  ⟨s.takeWhile isBlank, List.all_eq_true.1 List.all_takeWhile, List.takeWhile_append_dropWhile.symm⟩

theorem blank_of_skipBlanks {s : List Char} (h : skipBlanks s = []) : Blank s := by
  obtain ⟨b, hb, hs⟩ := exists_blank s
  rw [h, List.append_nil] at hs
  exact hs ▸ hb

theorem split_of_skipBlanks {s t : List Char} (h : skipBlanks s = t) : ∃ b, Blank b ∧ s = b ++ t := h ▸ exists_blank s

theorem blank_nil : Blank [] := fun _ h => nomatch h

theorem blank_append {b b' : List Char} (h : Blank b) (h' : Blank b') : Blank (b ++ b') := by
  intro c hc
  rcases List.mem_append.1 hc with hc | hc
  · exact h c hc
  · exact h' c hc

theorem Spells.document {v : Value} {w : List Char} (h : Spells v w) : Document v w := by
  simpa using Document.mk blank_nil h blank_nil

/-! ## How a value begins -/

def Value.opens : Value → Char → Bool
  | null, c => c == 'n'
  | boolean b, c => c == if b then 't' else 'f'
  | number _, c => startsNumber c
  | text _, c => c == '"'
  | list _, c => c == '['
  | object _, c => c == '{'

theorem Literal.Spelled.head {l : Literal} {w : List Char} (h : l.Spelled w) :
    ∃ c t, w = c :: t ∧ startsNumber c = true := by
  cases h with
  | @mk negative whole fraction f e _ hw _ _ _ =>
    cases negative with
    | true => exact ⟨'-', whole ++ f ++ e, by simp, rfl⟩
    | false =>
      cases whole with
      | nil => exact absurd rfl hw.1
      | cons c t => exact ⟨c, t ++ f ++ e, by simp, by simp [startsNumber, hw.2 c]⟩

theorem Spells.head {v : Value} {w : List Char} (h : Spells v w) : ∃ c t, w = c :: t ∧ v.opens c = true := by
  cases h with
  | nullWord => exact ⟨_, _, rfl, rfl⟩
  | trueWord => exact ⟨_, _, rfl, rfl⟩
  | falseWord => exact ⟨_, _, rfl, rfl⟩
  | number h => exact h.head
  | text _ => exact ⟨_, _, rfl, rfl⟩
  | list _ => exact ⟨_, _, rfl, rfl⟩
  | object _ => exact ⟨_, _, rfl, rfl⟩

theorem isBlank_of_startsNumber {c : Char} (h : startsNumber c = true) : isBlank c = false := by
  rw [Bool.eq_false_iff]
  intro hb
  simp only [isBlank, Bool.or_eq_true, beq_iff_eq] at hb
  rcases hb with ((rfl | rfl) | rfl) | rfl <;> cases h

theorem Value.isBlank_of_opens {v : Value} {c : Char} (h : v.opens c = true) : isBlank c = false := by
  cases v with
  | number l => exact isBlank_of_startsNumber h
  | boolean b => cases b <;> · rw [beq_iff_eq.1 h]; rfl
  | _ => rw [beq_iff_eq.1 h]; rfl

theorem Spells.skipBlanks_eq {v : Value} {b w : List Char} (hb : Blank b) (h : Spells v w) (s : List Char) :
    skipBlanks (b ++ w ++ s) = w ++ s := by
  obtain ⟨c, t, rfl, hc⟩ := h.head
  rw [List.append_assoc]
  exact skipBlanks_append_cons hb (v.isBlank_of_opens hc) (t ++ s)

/-! ## Where a number ends -/

/-- The text does not go on with a number that came before it. -/
def Stops (s : List Char) : Prop :=
  ∀ c, s.head? = some c → c.isDigit = false ∧ c ≠ '.' ∧ c ≠ 'e' ∧ c ≠ 'E'

theorem stops_nil : Stops [] := by simp [Stops]

theorem stops_cons {c : Char} {s : List Char} (hd : c.isDigit = false) (h : c ≠ '.' ∧ c ≠ 'e' ∧ c ≠ 'E') :
    Stops (c :: s) := by
  intro d hc
  cases hc
  exact ⟨hd, h⟩

theorem stops_append {b s : List Char} (hb : Blank b) (hs : Stops s) : Stops (b ++ s) := by
  cases b with
  | nil => exact hs
  | cons c b =>
    have hc := hb c (by simp)
    simp only [isBlank, Bool.or_eq_true, beq_iff_eq] at hc
    rcases hc with ((rfl | rfl) | rfl) | rfl <;> exact stops_cons (by decide) (by decide)

end Preconditions.Json
