import Preconditions.Check.Scan

/-!
# Scans of sources

A source gives its elements one at a time, and may never end. A scan pulls an element, checks it, and pulls the next
one only if that passed. It is run for a number of pulls, which may not be enough for it to come to an end.
-/

namespace Preconditions.Check

universe u v

abbrev Source (σ : Type v) (α : Type u) := σ → Option α × σ

namespace Source
variable {σ : Type v} {α : Type u}

def ofList : Source (List α) α
  | [] => (none, [])
  | a :: as => (some a, as)

def after (next : Source σ α) : Nat → σ → σ
  | 0, s => s
  | n + 1, s => after next n (next s).2

def gives (next : Source σ α) (n : Nat) (s : σ) : Option α := (next (after next n s)).1

theorem gives_ofList (n : Nat) (as : List α) : gives ofList n as = as[n]? := by
  induction n generalizing as with
  | zero => cases as <;> rfl
  | succ n ih =>
    cases as with
    | nil => exact ih []
    | cons a as => exact ih as

end Source

structure SourceScan (σ : Type v) (α : Type u) extends Scan α where
  rest : σ

section
variable {σ : Type v} {α : Type u}

def SourceScan.cons (c : Checked α) (p : SourceScan σ α) : SourceScan σ α := ⟨p.toScan.cons c, p.rest⟩

/-- There is no result where the pulls run out. -/
def scanSource (next : Source σ (Option α)) (name : String) : Nat → Nat → σ → Option (SourceScan σ α)
  | 0, _, _ => none
  | pulls + 1, position, s =>
    match next s with
    | (none, t) => some ⟨⟨.pass [], 0⟩, t⟩
    | (some value, t) =>
      let c := notNullElement name (.ofNat position) value
      match c.result with
      | .ok _ => (scanSource next name pulls (position + 1) t).map (SourceScan.cons c)
      | .error r => some ⟨⟨⟨.error r, c.events⟩, 1⟩, t⟩

def allNotNullFrom (next : Source σ (Option α)) (name : String) (pulls : Nat) (s : σ) : Option (SourceScan σ α) :=
  if name = "" then some ⟨⟨.reject (Catalog.missingArgument nameLabel), 0⟩, s⟩
  else scanSource next name pulls 0 s

variable {next : Source σ (Option α)} {name : String} {position : Nat} {s : σ}

/-! ## One pull -/

theorem scanSource_end (pulls : Nat) (h : (next s).1 = none) :
    scanSource next name (pulls + 1) position s = some ⟨⟨.pass [], 0⟩, (next s).2⟩ := by
  have hnext : next s = (none, (next s).2) := by rw [← h]
  rw [scanSource, hnext]

theorem scanSource_ok (pulls : Nat) {value : Option α} {a : α} (h : (next s).1 = some value)
    (hc : (notNullElement name (.ofNat position) value).result = .ok a) :
    scanSource next name (pulls + 1) position s =
      (scanSource next name pulls (position + 1) (next s).2).map
        (SourceScan.cons (notNullElement name (.ofNat position) value)) := by
  have hnext : next s = (some value, (next s).2) := by rw [← h]
  rw [scanSource, hnext]
  simp only [hc]

theorem scanSource_error (pulls : Nat) {value : Option α} {r : Rejection} (h : (next s).1 = some value)
    (hc : (notNullElement name (.ofNat position) value).result = .error r) :
    scanSource next name (pulls + 1) position s =
      some ⟨⟨⟨.error r, (notNullElement name (.ofNat position) value).events⟩, 1⟩, (next s).2⟩ := by
  have hnext : next s = (some value, (next s).2) := by rw [← h]
  rw [scanSource, hnext]
  simp only [hc]

/-! ## Lists -/

theorem scanSource_ofList (name : String) {pulls : Nat} {values : List (Option α)} (h : values.length < pulls)
    (position : Nat) :
    scanSource Source.ofList name pulls position values =
      some ⟨scanFrom name position values, values.drop (scanFrom name position values).pulled⟩ := by
  induction values generalizing pulls position with
  | nil =>
    obtain ⟨pulls, rfl⟩ := Nat.exists_eq_add_one_of_ne_zero (Nat.ne_of_gt h)
    exact scanSource_end pulls rfl
  | cons value values ih =>
    obtain ⟨pulls, rfl⟩ := Nat.exists_eq_add_one_of_ne_zero (Nat.ne_of_gt (Nat.zero_lt_of_lt h))
    have hpull : (Source.ofList (value :: values)).1 = some value := rfl
    cases hc : (notNullElement name (.ofNat position) value).result with
    | ok a =>
      have htail : values.length < pulls := by simpa using h
      rw [scanSource_ok pulls hpull hc, scanFrom]
      simp only [hc]
      exact congrArg (Option.map _) (ih htail (position + 1))
    | error r =>
      rw [scanSource_error pulls hpull hc, scanFrom]
      simp only [hc]
      rfl

theorem allNotNullFrom_ofList (name : String) {pulls : Nat} {values : List (Option α)} (h : values.length < pulls) :
    allNotNullFrom Source.ofList name pulls values =
      some ⟨allNotNull name values, values.drop (allNotNull name values).pulled⟩ := by
  by_cases hn : name = ""
  · subst hn
    rfl
  · rw [allNotNullFrom, allNotNull, if_neg hn, if_neg hn]
    exact scanSource_ofList name h 0

end

end Preconditions.Check
