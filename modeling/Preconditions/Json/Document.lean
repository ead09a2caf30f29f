import Preconditions.Json.Reader

/-!
# Documents

A document is one value with blanks around it.
-/

namespace Preconditions.Json

def finishDocument {α : Type} (a : α) (s : List Char) : Except Fault α :=
  match skipBlanks s with
  | [] => .ok a
  | c :: t => .error (.next .trailingCharacters (c :: t))

def Reader.document {α : Type} (r : Reader α) (s : List Char) : Except Fault α :=
  match r.run s with
  | .ok (a, rest) => finishDocument a rest
  | .error f => .error f

def Reader.decode {α : Type} (r : Reader α) (text : String) : Except Refusal α :=
  match r.document text.toList with
  | .ok a => .ok a
  | .error f => .error (f.refusal text)

theorem Reader.document_error_suffix {α : Type} {r : Reader α} {s : List Char} {f : Fault}
    (h : r.document s = .error f) : f.rest <:+ s := by
  have hw := r.within s
  unfold Reader.document at h
  cases hr : r.run s with
  | error g =>
    rw [hr] at h hw
    cases h
    exact hw
  | ok p =>
    rw [hr] at h hw
    unfold finishDocument at h
    dsimp only at h
    split at h
    · simp at h
    · rename_i c t ht
      cases h
      exact (suffix_of_skipBlanks ht).trans hw

end Preconditions.Json
