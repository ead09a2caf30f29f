import Preconditions.Proofs.Check.Announcements
import Preconditions.Proofs.Check.Scans
import Preconditions.Proofs.Config.Validity

/-!
# Rejections tell nothing of values

A rejection, its message, its report and its event are made from the parameter's name and a position alone. So two
uses of a check cannot be told apart by them when the names and the positions are the same and the values are alike
in what the check asks of them. A configuration that is refused, and the detail of a misuse, stay out of the log.
-/

namespace Preconditions

universe u v u' v'

/-! ## What shows of a use -/

structure Exposure where
  rejection : Option Rejection
  message : Option String
  report : Option String
  events : List Event

def Outcome.exposure (o : Outcome) : Exposure where
  rejection := o.rejection
  message := o.rejection.map Rejection.message
  report := o.rejection.map fun r => r.report.written
  events := o.events

/-! ## Values that are alike -/

/-- Two sequences have elements that are there and elements that are absent in the same places, as far as the first
that is absent. -/
def SamePresence {α : Type u} {β : Type v} (as : Nat → Option (Option α)) (bs : Nat → Option (Option β)) : Prop :=
  ∀ n, (∀ m < n, ∃ a, as m = some (some a)) → (as n).map Option.isSome = (bs n).map Option.isSome

/-- The same check of the same parameter, given values that are there or absent, and empty or not, alike. -/
inductive Operation.Alike : Operation.{u} → Operation.{v} → Prop where
  | notNull {α : Type u} {β : Type v} {a : Option α} {b : Option β} (name : String) : a.isSome = b.isSome →
      Alike (.notNull name a) (.notNull name b)
  | notNullStrict {α : Type u} {β : Type v} {a : Option α} {b : Option β} (name : String) : a.isSome = b.isSome →
      Alike (.notNullStrict name a) (.notNullStrict name b)
  | notNullElement {α : Type u} {β : Type v} {a : Option α} {b : Option β} (name : String) (index : UInt64) :
      a.isSome = b.isSome → Alike (.notNullElement name index a) (.notNullElement name index b)
  | allNotNull {α : Type u} {β : Type v} {as : List (Option α)} {bs : List (Option β)} (name : String) :
      SamePresence (as[·]?) (bs[·]?) → Alike (.allNotNull name as) (.allNotNull name bs)
  | notEmpty {α : Type u} {β : Type v} [Emptiness α] [Emptiness β] {a : α} {b : β} (name : String) :
      isEmptyValue a = isEmptyValue b → Alike (.notEmpty name a) (.notEmpty name b)
  | presentNotEmpty {α : Type u} {β : Type v} [Emptiness α] [Emptiness β] {a : Option α} {b : Option β}
      (name : String) : a.map isEmptyValue = b.map isEmptyValue →
      Alike (.presentNotEmpty name a) (.presentNotEmpty name b)

namespace Outcome
variable {α : Type u} {β : Type v}

theorem ofChecked_pass (a : α) (b : β) : ofChecked (.pass a) = ofChecked (.pass b) := rfl

theorem ofChecked_reject (r : Logged Rejection) :
    ofChecked (.reject r : Checked α) = ofChecked (.reject r : Checked β) := rfl

theorem ofChecked_named (name : String) {c : Checked α} {d : Checked β} (h : ofChecked c = ofChecked d) :
    ofChecked (Check.named name c) = ofChecked (Check.named name d) := by
  by_cases hn : name = ""
  · subst hn
    exact ofChecked_reject _
  · rw [Check.named_of_ne hn, Check.named_of_ne hn]
    exact h

theorem ofChecked_present (r : Logged Rejection) {a : Option α} {b : Option β} (h : a.isSome = b.isSome) :
    ofChecked (Check.present r a) = ofChecked (Check.present r b) := by
  cases a with
  | none =>
    cases b with
    | none => exact ofChecked_reject r
    | some b => cases h
  | some a =>
    cases b with
    | none => cases h
    | some b => exact ofChecked_pass a b

theorem ofChecked_notEmpty [Emptiness α] [Emptiness β] (name : String) {a : α} {b : β}
    (h : isEmptyValue a = isEmptyValue b) : ofChecked (Check.notEmpty name a) = ofChecked (Check.notEmpty name b) := by
  apply ofChecked_named
  rw [h]
  by_cases hb : isEmptyValue b = true
  · rw [if_pos hb, if_pos hb]
    exact ofChecked_reject _
  · rw [if_neg hb, if_neg hb]
    exact ofChecked_pass a b

theorem ofChecked_presentNotEmpty [Emptiness α] [Emptiness β] (name : String) {a : Option α} {b : Option β}
    (h : a.map isEmptyValue = b.map isEmptyValue) :
    ofChecked (Check.presentNotEmpty name a) = ofChecked (Check.presentNotEmpty name b) := by
  cases a with
  | none =>
    cases b with
    | none => exact ofChecked_named name (ofChecked_reject _)
    | some b => cases h
  | some a =>
    cases b with
    | none => cases h
    | some b =>
      rw [Check.presentNotEmpty_some, Check.presentNotEmpty_some]
      exact ofChecked_notEmpty name (Option.some.inj h)

end Outcome

/-! ## Sequences -/

section
variable {σ : Type v} {α : Type u} {τ : Type v'} {β : Type u'}

open Check (Source SourceScan scanSource allNotNullFrom)

theorem Outcome.ofChecked_cons (a : α) (p : SourceScan σ α) :
    ofChecked (SourceScan.cons (.pass a) p).found = ofChecked p.found := by
  show ofChecked (p.found.map (a :: ·)) = ofChecked p.found
  cases hc : p.found.result with
  | ok as => simp [Checked.map, Checked.bind, ofChecked, hc, Checked.pass]
  | error r => simp [Checked.map, Checked.bind, ofChecked, hc]

variable {next : Source σ (Option α)} {next' : Source τ (Option β)} {s : σ} {s' : τ} {name : String}

theorem outcome_cons (hn : name ≠ "") (pulls position : Nat) {a : α} (h : next.gives 0 s = some (some a)) :
    (scanSource next name (pulls + 1) position s).map (fun p => Outcome.ofChecked p.found) =
      (scanSource next name pulls (position + 1) (next s).2).map fun p => Outcome.ofChecked p.found := by
  rw [Check.scanSource_cons hn pulls position h, Option.map_map]
  exact congrArg (Option.map · _) (funext fun p => Outcome.ofChecked_cons a p)

theorem outcome_eq (hn : name ≠ "") (h : SamePresence (next.gives · s) (next'.gives · s')) (pulls position : Nat) :
    (scanSource next name pulls position s).map (fun p => Outcome.ofChecked p.found) =
      (scanSource next' name pulls position s').map fun p => Outcome.ofChecked p.found := by
  induction pulls generalizing position s s' with
  | zero => rfl
  | succ pulls ih =>
    have h0 : (next s).1.map Option.isSome = (next' s').1.map Option.isSome :=
      h 0 fun m hm => absurd hm (Nat.not_lt_zero m)
    cases hs : (next s).1 with
    | none =>
      rw [hs] at h0
      have hs' := Option.map_eq_none_iff.1 h0.symm
      rw [Check.scanSource_end pulls hs, Check.scanSource_end pulls hs']
      rfl
    | some value =>
      rw [hs] at h0
      cases value with
      | none =>
        have hs' := Check.eq_some_none_iff.2 h0.symm
        have hc := Check.notNullElement_none (α := α) hn (.ofNat position)
        have hc' := Check.notNullElement_none (α := β) hn (.ofNat position)
        rw [Check.scanSource_error pulls hs (by rw [hc]; rfl), Check.scanSource_error pulls hs' (by rw [hc']; rfl), hc,
          hc']
        rfl
      | some a =>
        obtain ⟨b, hs'⟩ := Check.eq_some_some_iff.2 h0.symm
        rw [outcome_cons hn pulls position hs, outcome_cons hn pulls position hs']
        refine ih (fun n hp => h (n + 1) fun m hm => ?_) (position + 1)
        cases m with
        | zero => exact ⟨a, hs⟩
        | succ m => exact hp m (Nat.lt_of_succ_lt_succ hm)

def scanOutcome (next : Source σ (Option α)) (name : String) (pulls : Nat) (s : σ) : Option Outcome :=
  (allNotNullFrom next name pulls s).map fun p => .ofChecked p.found

theorem scanOutcome_eq (h : SamePresence (next.gives · s) (next'.gives · s')) (name : String) (pulls : Nat) :
    scanOutcome next name pulls s = scanOutcome next' name pulls s' := by
  by_cases hn : name = ""
  · subst hn
    rfl
  · rw [scanOutcome, scanOutcome, Check.allNotNullFrom_of_ne hn, Check.allNotNullFrom_of_ne hn]
    exact outcome_eq hn h pulls 0

theorem scanOutcome_ofList (name : String) {pulls : Nat} {as : List (Option α)} (h : as.length < pulls) :
    scanOutcome Source.ofList name pulls as = some (.ofChecked (Check.allNotNull name as).found) := by
  rw [scanOutcome, Check.allNotNullFrom_ofList name h]
  rfl

end

namespace Operation

theorem perform_eq_of_alike {op : Operation.{u}} {op' : Operation.{v}} (h : Alike op op') : op.perform = op'.perform := by
  cases h with
  | notNull name h => exact Outcome.ofChecked_named name (Outcome.ofChecked_present _ h)
  | notNullStrict name h => exact Outcome.ofChecked_named name (Outcome.ofChecked_present _ h)
  | notNullElement name index h => exact Outcome.ofChecked_named name (Outcome.ofChecked_present _ h)
  | @allNotNull α β as bs name h =>
    have hgives : SamePresence (Check.Source.ofList.gives · as) (Check.Source.ofList.gives · bs) := by
      simpa only [Check.Source.gives_ofList] using h
    have hscan := scanOutcome_eq hgives name (as.length + bs.length + 1)
    rw [scanOutcome_ofList name (by omega), scanOutcome_ofList name (by omega), Option.some.injEq] at hscan
    exact hscan
  | notEmpty name h => exact Outcome.ofChecked_notEmpty name h
  | presentNotEmpty name h => exact Outcome.ofChecked_presentNotEmpty name h

end Operation

/-! ## Configurations -/

theorem Checked.Announced.exists_of_mem {α : Type u} {c : Checked α} (hc : c.Announced) {event : Event}
    (h : event ∈ c.events) : ∃ r, c.result = .error r ∧ event = r.event := by
  cases hc with
  | passed a => simp at h
  | rejected r => exact ⟨r, rfl, by simpa using h⟩

theorem Rejection.event_invalidUsage (detail : String) :
    (Rejection.invalidUsage detail).event = ⟨⟨41⟩, .invalidUsage, ""⟩ := rfl

namespace Config

def Unknown (c : Config) : Prop := c.observability.logLevel ≠ "" ∧ knownLevel c.observability.logLevel = false

theorem events_of_unknown {c : Config} (h : c.Unknown) : c.validate.events = [⟨⟨41⟩, .invalidUsage, ""⟩] := by
  have hr : c.validate.result = .error (.invalidUsage ("unknown log level '" ++ c.observability.logLevel ++ "'")) := by
    rw [validate_result, if_neg h.1, h.2]
    rfl
  rw [c.announced_validate.events_of_error hr, Rejection.event_invalidUsage]

def Blame (r : Rejection) : Prop := r = .emptyArgument levelLabel ∨ ∃ detail, r = .invalidUsage detail

theorem blame_of_validate {c : Config} {r : Rejection} (h : c.validate.result = .error r) : Blame r := by
  rw [validate_result] at h
  split at h
  · cases h
    exact .inl rfl
  split at h
  · cases h
  · cases h
    exact .inr ⟨_, rfl⟩

theorem blame_of_validated {c : Config} {r : Rejection} (h : c.validated.result = .error r) : Blame r := by
  rw [validated_result] at h
  cases hv : c.validate.result with
  | ok _ =>
    rw [hv] at h
    cases h
  | error r' =>
    rw [hv] at h
    cases h
    exact blame_of_validate hv

theorem blame_of_load {text : String} {r : Rejection} (h : (load text).result = .error r) : Blame r := by
  unfold load at h
  split at h
  · exact blame_of_validated h
  · cases h
    exact .inr ⟨_, rfl⟩

theorem Blame.event {r : Rejection} (h : Blame r) :
    r.event = ⟨⟨41⟩, .invalidUsage, ""⟩ ∨ r.event = ⟨⟨40⟩, .emptyArgument, "observability.log_level"⟩ := by
  rcases h with h | ⟨detail, h⟩
  · rw [h]
    exact .inr rfl
  · rw [h]
    exact .inl (Rejection.event_invalidUsage detail)

theorem events_of_loading (text : String) (e : Environment) :
    ∀ event ∈ (load text).events ++ (loadEnvironment e).events,
      event = ⟨⟨41⟩, .invalidUsage, ""⟩ ∨ event = ⟨⟨40⟩, .emptyArgument, "observability.log_level"⟩ := by
  intro event h
  rcases List.mem_append.1 h with h | h
  · obtain ⟨r, hr, rfl⟩ := (announced_load text).exists_of_mem h
    exact (blame_of_load hr).event
  · obtain ⟨r, hr, rfl⟩ := (announced_validated ⟨.ofEnvironment e⟩).exists_of_mem h
    exact (blame_of_validated hr).event

end Config

/-- **Rejections tell nothing of values.** Uses of a check that are alike show the same: both pass, or both are
refused with the same rejection, message, report and event; and so do scans of sources, also of those that never
end. All configurations with an unknown level, and all details of a misuse, are told to the log in one way, and
nothing of a document or of the environment reaches it. -/
theorem exposure_of_alike :
    (∀ (op : Operation.{u}) (op' : Operation.{v}), op.Alike op' → op.perform.exposure = op'.perform.exposure) ∧
    (∀ (σ : Type v) (τ : Type v') (α : Type u) (β : Type u') (next : Check.Source σ (Option α))
      (next' : Check.Source τ (Option β)) (s : σ) (s' : τ) (name : String) (pulls : Nat),
      SamePresence (next.gives · s) (next'.gives · s') →
      (scanOutcome next name pulls s).map Outcome.exposure = (scanOutcome next' name pulls s').map Outcome.exposure) ∧
    (∀ c c' : Config, c.Unknown → c'.Unknown → c.validate.events = c'.validate.events) ∧
    (∀ detail detail' : String, (Catalog.invalidUsage detail).events = (Catalog.invalidUsage detail').events) ∧
    ∀ (text : String) (e : Environment), ∀ event ∈ (Config.load text).events ++ (Config.loadEnvironment e).events,
      event = ⟨⟨41⟩, .invalidUsage, ""⟩ ∨ event = ⟨⟨40⟩, .emptyArgument, "observability.log_level"⟩ := by
  refine ⟨fun op op' h => ?_, fun σ τ α β next next' s s' name pulls h => ?_, fun c c' h h' => ?_, fun _ _ => rfl,
    Config.events_of_loading⟩
  · rw [Operation.perform_eq_of_alike h]
  · rw [scanOutcome_eq h]
  · rw [Config.events_of_unknown h, Config.events_of_unknown h']

/-- A password that is there but empty shows no more than an empty list of numbers, and what follows the first absent
element of a list shows nothing. -/
theorem exposure_of_alike_secret :
    ((some "").map isEmptyValue = (some ([] : List Nat)).map isEmptyValue) ∧
    (Operation.presentNotEmpty "password" (some "")).perform.exposure =
      (Operation.presentNotEmpty "password" (some ([] : List Nat))).perform.exposure ∧
    (Operation.allNotNull "keys" [some "a", none, some "b"]).perform.exposure =
      (Operation.allNotNull "keys" [some 7, none]).perform.exposure ∧
    (⟨⟨"loud", true⟩⟩ : Config).Unknown ∧ (⟨⟨"s3cret", false⟩⟩ : Config).Unknown ∧
    (⟨⟨"loud", true⟩⟩ : Config).validate.events = (⟨⟨"s3cret", false⟩⟩ : Config).validate.events := by
  obtain ⟨halike, -, hunknown, -, -⟩ := exposure_of_alike.{0, 0, 0, 0}
  have hempty : (some "").map isEmptyValue = (some ([] : List Nat)).map isEmptyValue := rfl
  have hlists : SamePresence ([some "a", none, some "b"][·]?) ([some 7, none][·]?) := by
    intro n h
    match n, h with
    | 0, _ | 1, _ => rfl
    | n + 2, h =>
      obtain ⟨a, ha⟩ := h 1 (by omega)
      cases ha
  have hc : (⟨⟨"loud", true⟩⟩ : Config).Unknown := ⟨by decide, by decide⟩
  have hc' : (⟨⟨"s3cret", false⟩⟩ : Config).Unknown := ⟨by decide, by decide⟩
  exact ⟨hempty, halike _ _ (.presentNotEmpty "password" hempty), halike _ _ (.allNotNull "keys" hlists), hc, hc',
    hunknown _ _ hc hc'⟩

end Preconditions
