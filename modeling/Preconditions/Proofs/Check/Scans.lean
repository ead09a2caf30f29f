import Preconditions.Check.Source

/-!
# Scans stop at the first absent element

A scan of a source pulls the elements in order, as far as the first that is absent and no further. What comes after
it is not looked at, so it has no part in the result. Position by position a scan is the check of one element, and
this also where the source never ends. Under an empty name it does not come to that.
-/

namespace Preconditions.Check

universe u v u' v'

/-! ## Single elements -/

section
variable {α : Type u} {name : String}

theorem notNullElement_none (hn : name ≠ "") (index : UInt64) :
    notNullElement name index (none : Option α) = .reject (Catalog.missingElement index name) :=
  named_of_ne hn _

theorem notNullElement_some (hn : name ≠ "") (index : UInt64) (a : α) :
    notNullElement name index (some a) = .pass a :=
  named_of_ne hn _

theorem notNullElement_unnamed (index : UInt64) (value : Option α) :
    notNullElement "" index value = .reject (Catalog.missingArgument "name") :=
  named_empty _

end

section
variable {σ : Type v} {α : Type u} {next : Source σ (Option α)} {name : String}

/-! ## Pulls -/

def Present (next : Source σ (Option α)) (s : σ) (n : Nat) : Prop := ∃ a, next.gives n s = some (some a)

theorem eq_some_some_iff {value : Option (Option α)} :
    (∃ a, value = some (some a)) ↔ value.map Option.isSome = some true := by
  cases value with
  | none => simp
  | some value => cases value <;> simp

theorem eq_some_none_iff {value : Option (Option α)} : value = some none ↔ value.map Option.isSome = some false := by
  cases value with
  | none => simp
  | some value => cases value <;> simp

theorem Present.after {s : σ} {n : Nat} (h : Present next s (n + 1)) : Present next (next s).2 n := h

theorem scanSource_cons (hn : name ≠ "") (pulls position : Nat) {s : σ} {a : α} (h : next.gives 0 s = some (some a)) :
    scanSource next name (pulls + 1) position s =
      (scanSource next name pulls (position + 1) (next s).2).map (SourceScan.cons (.pass a)) := by
  have hpull : (next s).1 = some (some a) := h
  have hc := notNullElement_some hn (.ofNat position) a
  rw [scanSource_ok pulls hpull (by rw [hc]; rfl), hc]

theorem scanSource_absent (hn : name ≠ "") {s : σ} {i : Nat} (hp : ∀ m < i, Present next s m)
    (ha : next.gives i s = some none) (pulls position : Nat) :
    scanSource next name pulls position s =
      if i < pulls then
        some ⟨⟨.reject (Catalog.missingElement (.ofNat (position + i)) name), i + 1⟩, next.after (i + 1) s⟩
      else none := by
  induction i generalizing pulls position s with
  | zero =>
    cases pulls with
    | zero => rfl
    | succ pulls =>
      have hpull : (next s).1 = some none := ha
      have hc := notNullElement_none (α := α) hn (.ofNat position)
      rw [scanSource_error pulls hpull (by rw [hc]; rfl), hc, if_pos (Nat.zero_lt_succ pulls)]
      rfl
  | succ i ih =>
    cases pulls with
    | zero => rfl
    | succ pulls =>
      obtain ⟨a, h0⟩ := hp 0 (Nat.zero_lt_succ i)
      have htail : ∀ m < i, Present next (next s).2 m := fun m hm => hp (m + 1) (Nat.succ_lt_succ hm)
      rw [scanSource_cons hn pulls position h0, ih htail ha, show position + 1 + i = position + (i + 1) by omega]
      by_cases hi : i < pulls
      · rw [if_pos hi, if_pos (Nat.succ_lt_succ hi)]
        rfl
      · rw [if_neg hi, if_neg (by omega)]
        rfl

theorem scanSource_all (hn : name ≠ "") {s : σ} {n : Nat} (hp : ∀ m < n, Present next s m)
    (he : next.gives n s = none) :
    ∃ as : List α, as.length = n ∧ (∀ m < n, next.gives m s = some as[m]?) ∧ ∀ pulls position,
      scanSource next name pulls position s =
        if n < pulls then some ⟨⟨.pass as, n⟩, next.after (n + 1) s⟩ else none := by
  induction n generalizing s with
  | zero =>
    refine ⟨[], rfl, fun m hm => absurd hm (Nat.not_lt_zero m), fun pulls position => ?_⟩
    cases pulls with
    | zero => rfl
    | succ pulls =>
      have hpull : (next s).1 = none := he
      rw [scanSource_end pulls hpull, if_pos (Nat.zero_lt_succ pulls)]
      rfl
  | succ n ih =>
    obtain ⟨a, h0⟩ := hp 0 (Nat.zero_lt_succ n)
    obtain ⟨as, hlen, has, hscan⟩ := ih (fun m hm => (hp (m + 1) (Nat.succ_lt_succ hm)).after) he
    refine ⟨a :: as, by rw [List.length_cons, hlen], fun m hm => ?_, fun pulls position => ?_⟩
    · cases m with
      | zero => exact h0
      | succ m => exact has m (Nat.lt_of_succ_lt_succ hm)
    · cases pulls with
      | zero => rfl
      | succ pulls =>
        rw [scanSource_cons hn pulls position h0, hscan]
        by_cases hlt : n < pulls
        · rw [if_pos hlt, if_pos (Nat.succ_lt_succ hlt)]
          rfl
        · rw [if_neg hlt, if_neg (by omega)]
          rfl

/-! ## Position by position -/

inductive Elementwise (next : Source σ (Option α)) (name : String) : Nat → σ → Checked (List α) → Prop where
  | done {i : Nat} {s : σ} : (next s).1 = none → Elementwise next name i s (.pass [])
  | refused {i : Nat} {s : σ} {value : Option α} {r : Rejection} : (next s).1 = some value →
      (notNullElement name (.ofNat i) value).result = .error r →
      Elementwise next name i s ⟨.error r, (notNullElement name (.ofNat i) value).events⟩
  | passed {i : Nat} {s : σ} {value : Option α} {a : α} {c : Checked (List α)} : (next s).1 = some value →
      (notNullElement name (.ofNat i) value).result = .ok a → Elementwise next name (i + 1) (next s).2 c →
      Elementwise next name i s ((notNullElement name (.ofNat i) value).bind fun a => c.map (a :: ·))

theorem elementwise_of_scanSource {pulls position : Nat} {s : σ} {p : SourceScan σ α}
    (h : scanSource next name pulls position s = some p) : Elementwise next name position s p.found := by
  induction pulls generalizing position s p with
  | zero => cases h
  | succ pulls ih =>
    cases hs : (next s).1 with
    | none =>
      rw [scanSource_end pulls hs] at h
      cases h
      exact .done hs
    | some value =>
      cases hc : (notNullElement name (.ofNat position) value).result with
      | error r =>
        rw [scanSource_error pulls hs hc] at h
        cases h
        exact .refused hs hc
      | ok a =>
        rw [scanSource_ok pulls hs hc] at h
        obtain ⟨q, hq, rfl⟩ := Option.map_eq_some_iff.1 h
        exact .passed hs hc (ih hq)

theorem scanSource_of_elementwise {position : Nat} {s : σ} {c : Checked (List α)}
    (h : Elementwise next name position s c) :
    ∃ pulls p, scanSource next name pulls position s = some p ∧ p.found = c := by
  induction h with
  | done hs => exact ⟨1, _, scanSource_end 0 hs, rfl⟩
  | refused hs hc => exact ⟨1, _, scanSource_error 0 hs hc, rfl⟩
  | @passed i s value a c hs hc _ ih =>
    obtain ⟨pulls, p, hp, rfl⟩ := ih
    refine ⟨pulls + 1, p.cons (notNullElement name (.ofNat i) value), ?_, rfl⟩
    rw [scanSource_ok pulls hs hc, hp]
    rfl

theorem elementwise_unnamed {i : Nat} {s : σ} (hs : (next s).1.isSome) {c : Checked (List α)} :
    Elementwise next "" i s c ↔ c = .reject (Catalog.missingArgument "name") := by
  obtain ⟨value, hs⟩ := Option.isSome_iff_exists.1 hs
  constructor
  · intro h
    cases h with
    | done hd => rw [hs] at hd; cases hd
    | refused _ hc =>
      rw [notNullElement_unnamed] at hc ⊢
      cases hc
      rfl
    | passed _ hc _ =>
      rw [notNullElement_unnamed] at hc
      cases hc
  · intro h
    subst h
    have hc := notNullElement_unnamed (.ofNat i) value
    have hr := Elementwise.refused (r := .missingArgument "name") hs (by rw [hc]; rfl)
    rw [hc] at hr
    exact hr

theorem allNotNullFrom_of_ne (hn : name ≠ "") (pulls : Nat) (s : σ) :
    allNotNullFrom next name pulls s = scanSource next name pulls 0 s :=
  if_neg hn

theorem elementwise_iff {s : σ} (h : name ≠ "" ∨ (next s).1.isSome) {c : Checked (List α)} :
    (∃ pulls p, allNotNullFrom next name pulls s = some p ∧ p.found = c) ↔ Elementwise next name 0 s c := by
  by_cases hn : name = ""
  · subst hn
    rw [elementwise_unnamed (h.resolve_left (fun hn => hn rfl))]
    constructor
    · intro hx
      obtain ⟨pulls, p, hp, hc⟩ := hx
      cases hp
      exact hc.symm
    · intro hc
      exact ⟨0, _, rfl, hc.symm⟩
  · simp only [allNotNullFrom_of_ne hn]
    constructor
    · intro hx
      obtain ⟨pulls, p, hp, rfl⟩ := hx
      exact elementwise_of_scanSource hp
    · exact scanSource_of_elementwise

end

/-- **Scans stop at the first absent element.** Nothing is pulled under an empty name. Otherwise the first absent
element is blamed by its position and the source is left right after it; another source whose elements are there
and absent in the same places so far gets the same blame, whatever follows. A source that ends with nothing absent
is pulled to its end, and its values come back in their order. A scan is the check of one element at each position,
unless there is neither a name nor an element. Lists are scanned as sources are. -/
theorem scan_stops_at_first_absent {σ : Type v} {α : Type u} (next : Source σ (Option α)) (s : σ) (name : String) :
    (∀ pulls, allNotNullFrom next "" pulls s = some ⟨⟨.reject (Catalog.missingArgument "name"), 0⟩, s⟩) ∧
    (name ≠ "" → ∀ i, (∀ m < i, Present next s m) → next.gives i s = some none →
      (∀ pulls, allNotNullFrom next name pulls s =
        if i < pulls then some ⟨⟨.reject (Catalog.missingElement (.ofNat i) name), i + 1⟩, next.after (i + 1) s⟩
        else none) ∧
      ∀ (τ : Type v') (β : Type u') (next' : Source τ (Option β)) (s' : τ),
        (∀ m ≤ i, (next'.gives m s').map Option.isSome = (next.gives m s).map Option.isSome) →
        ∀ pulls, allNotNullFrom next' name pulls s' =
          if i < pulls then some ⟨⟨.reject (Catalog.missingElement (.ofNat i) name), i + 1⟩, next'.after (i + 1) s'⟩
          else none) ∧
    (name ≠ "" → ∀ n, (∀ m < n, Present next s m) → next.gives n s = none →
      ∃ as : List α, as.length = n ∧ (∀ m < n, next.gives m s = some as[m]?) ∧
        ∀ pulls, allNotNullFrom next name pulls s =
          if n < pulls then some ⟨⟨.pass as, n⟩, next.after (n + 1) s⟩ else none) ∧
    (name ≠ "" ∨ (next s).1.isSome → ∀ c,
      (∃ pulls p, allNotNullFrom next name pulls s = some p ∧ p.found = c) ↔ Elementwise next name 0 s c) ∧
    ∀ (values : List (Option α)) (pulls : Nat), values.length < pulls →
      allNotNullFrom Source.ofList name pulls values =
        some ⟨allNotNull name values, values.drop (allNotNull name values).pulled⟩ := by
  refine ⟨fun _ => rfl, fun hn i hp ha => ⟨fun pulls => ?_, fun τ β next' s' hsame pulls => ?_⟩,
    fun hn n hp he => ?_, fun h c => elementwise_iff h, fun _ _ h => allNotNullFrom_ofList name h⟩
  · rw [allNotNullFrom_of_ne hn, scanSource_absent hn hp ha, Nat.zero_add]
  · have hp' : ∀ m < i, Present next' s' m := by
      intro m hm
      rw [Present, eq_some_some_iff, hsame m (Nat.le_of_lt hm), ← eq_some_some_iff]
      exact hp m hm
    have ha' : next'.gives i s' = some none := by
      rw [eq_some_none_iff, hsame i (Nat.le_refl i), ← eq_some_none_iff]
      exact ha
    rw [allNotNullFrom_of_ne hn, scanSource_absent hn hp' ha', Nat.zero_add]
  · obtain ⟨as, hlen, has, hscan⟩ := scanSource_all hn hp he
    refine ⟨as, hlen, has, fun pulls => ?_⟩
    rw [allNotNullFrom_of_ne hn, hscan]

def numbersButTwo : Source Nat (Option Nat) := fun n => (some (if n = 2 then none else some n), n + 1)

theorem scan_stops_at_first_absent_endless :
    "ids" ≠ "" ∧ (∀ m < 2, Present numbersButTwo 0 m) ∧ numbersButTwo.gives 2 0 = some none ∧
    allNotNullFrom numbersButTwo "ids" 3 0 = some ⟨⟨.reject (Catalog.missingElement 2 "ids"), 3⟩, 3⟩ := by
  have hn : "ids" ≠ "" := by decide
  have hp : ∀ m < 2, Present numbersButTwo 0 m := by
    intro m hm
    match m, hm with
    | 0, _ => exact ⟨0, rfl⟩
    | 1, _ => exact ⟨1, rfl⟩
  obtain ⟨-, habsent, -⟩ := scan_stops_at_first_absent.{0, 0, 0, 0} numbersButTwo 0 "ids"
  exact ⟨hn, hp, rfl, (habsent hn 2 hp rfl).1 3⟩

/-- Without a name no scan passes, also where there is no element that the check of one element could refuse. -/
theorem scan_not_elementwise_unnamed :
    ¬ ∀ (name : String) (values : List (Option String)) (c : Checked (List String)),
      Elementwise Source.ofList name 0 values c → (allNotNull name values).found.result = c.result := by
  intro h
  have hx := h "" [] (.pass []) (.done rfl)
  cases hx

end Preconditions.Check
