import Preconditions.Logging.Directive

/-!
# Filters

A filter is a list of directives. Of those that are about an event the most exact decides, and of equally
exact ones the last.
-/

namespace Preconditions.Logging

abbrev Filter := List Directive

namespace Filter

def pieces (text : List Char) : List (List Char) := (text.splitOn ',').filter (· ≠ [])

theorem pieces_nil : pieces [] = [] := by simp [pieces]

theorem pieces_eq_singleton {piece : List Char} (hc : ',' ∉ piece) (hne : piece ≠ []) : pieces piece = [piece] := by
  simp [pieces, List.splitOn_eq_singleton hc, hne]

theorem pieces_append_comma (s t : List Char) : pieces (s ++ ',' :: t) = pieces s ++ pieces t := by
  simp [pieces, List.splitOn_append_cons_self]

def strict? (text : List Char) : Option Filter := (pieces text).mapM Directive.ofPiece?

def lenient (text : List Char) : Filter := (pieces text).filterMap Directive.ofPiece?

theorem lenient_eq_singleton {piece : List Char} (hc : ',' ∉ piece) (hne : piece ≠ []) {d : Directive}
    (hd : Directive.ofPiece? piece = some d) : lenient piece = [d] := by
  rw [lenient, pieces_eq_singleton hc hne, List.filterMap_cons_some hd, List.filterMap_nil]

theorem lenient_append_comma (s t : List Char) : lenient (s ++ ',' :: t) = lenient s ++ lenient t := by
  simp [lenient, pieces_append_comma]

/-- The directive that decides: a later one wins over one that is no more exact. -/
def decide? (f : Filter) (target : List Char) (fields : List (List Char)) : Option Directive :=
  (f.filter (Directive.covers target fields)).foldl (fun best d =>
    match best with
    | none => some d
    | some b => if b.atMost d then some d else some b) none

/-- The level for an event. A filter without directives lets errors through; one with directives of which none
is about the event lets nothing through. -/
def levelFor (f : Filter) (target : List Char) (fields : List (List Char)) : Level :=
  if f = [] then .error else ((decide? f target fields).map (·.level)).getD .off

end Filter

end Preconditions.Logging
