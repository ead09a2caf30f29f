import Preconditions.Proofs.Json.LocalNumbers
import Preconditions.Proofs.Json.TruncatedRecords

/-!
# Records in texts that begin alike

The readers of values look past their values no further than numbers do, and a record no further than the readers of
its fields. What is skipped is read in the same way, to any depth.
-/

namespace Preconditions.Json

/-! ## Scalars -/

theorem readToken_local : Local readToken := by
  apply local_blanks readToken_within
  intro c p
  apply Steady.ite
  · exact (textBody_local.andThen fun cs => local_ok _).steady p
  apply Steady.ite
  · exact (readNumber_local.andThen fun n => local_ok _).steady (c :: p) |>.tail
  apply Steady.ite
  · exact ((word_local nullTail).andThen fun _ => local_ok _).steady p
  apply Steady.ite
  · exact ((word_local trueTail).andThen fun _ => local_ok _).steady p
  apply Steady.ite
  · exact ((word_local falseTail).andThen fun _ => local_ok _).steady p
  apply (steady_put Token.list [c]).ite
  apply (steady_put Token.object [c]).ite
  exact steady_error (by rintro ⟨⟩) [c] 1

theorem refine_local {α β : Type} {r : Reader α} (hr : Local r.run) {f : α → Except Cause β}
    (hf : ∀ a c, f a = .error c → c.category ≠ .truncated) : Local (r.refine f).run := by
  apply hr.andThen
  intro a
  cases h : f a with
  | ok b => exact local_ok b
  | error c => exact local_here (hf a c h)

theorem map_local {α β : Type} {r : Reader α} (hr : Local r.run) (f : α → β) : Local (r.map f).run :=
  refine_local hr nofun

theorem text_local : Local Reader.text.run := by
  refine refine_local readToken_local fun t c h => ?_
  split at h <;> cases h
  rintro ⟨⟩

theorem boolean_local : Local Reader.boolean.run := by
  refine refine_local readToken_local fun t c h => ?_
  split at h <;> cases h
  rintro ⟨⟩

theorem null_local : Local Reader.null.run := by
  refine refine_local readToken_local fun t c h => ?_
  split at h <;> cases h
  rintro ⟨⟩

theorem word16_local : Local Reader.word16.run := by
  refine refine_local readToken_local fun t c h => ?_
  split at h
  · split at h <;> cases h
    rintro ⟨⟩
  · cases h
    rintro ⟨⟩

theorem word64_local : Local Reader.word64.run := by
  refine refine_local readToken_local fun t c h => ?_
  split at h
  · split at h <;> cases h
    rintro ⟨⟩
  · cases h
    rintro ⟨⟩

theorem refine_trim {α : Type} (f : Token → Except Cause α) (s : List Char) :
    (Reader.token.refine f).run (skipBlanks s) = (Reader.token.refine f).run s := by
  show (readToken (skipBlanks s)).andThen _ = (readToken s).andThen _
  rw [readToken_skipBlanks]

theorem optional_local {α : Type} {r : Reader α} (hr : Local r.run) (htrim : ∀ s, r.run (skipBlanks s) = r.run s) :
    Local r.optional.run where
  within := r.optional.within
  steady p := by
    apply steady_of_blanks r.optional.within
    · intro s
      simp only [Reader.optional, skipBlanks_skipBlanks, htrim]
    · intro c q hp
      have hc := not_blank_of_skipBlanks hp
      by_cases hn : c = 'n'
      · subst hn
        exact ((word_local nullTail).andThen fun _ => local_ok none).steady q
      · have hother : ∀ s, r.optional.run (c :: s) = (r.run (c :: s)).andThen fun a u => .ok (some a, u) := by
          intro s
          simp only [Reader.optional, skipBlanks_eq_self hc]
          split
          · rename_i hs
            exact absurd (List.head_eq_of_cons_eq hs) hn
          · rfl
        simp only [hother]
        exact ((hr.andThen fun a => local_ok (some a)).steady (c :: q)).tail

/-! ## Enumerations -/

section
variable {α : Type} (members : List (String × α))

theorem variantName_local : Local (variantName members) := by
  apply textBody_local.andThen
  intro cs
  cases members.lookup (String.ofList cs) with
  | some a => exact local_ok a
  | none => exact local_here (by rintro ⟨⟩)

theorem closeVariant_local (a : α) : Local (closeVariant a) := by
  apply local_blanks (closeVariant_within a)
  intro c p
  exact (steady_ok a).ite (steady_error (by rintro ⟨⟩) [c] 0)

theorem variantObject_local : Local (variantObject members) := by
  apply local_blanks (variantObject_within members)
  intro c p
  apply Steady.ite
  · exact ((variantName_local members).andThen fun a => colon_local.andThen fun _ =>
      null_local.andThen fun _ => closeVariant_local a).steady p
  · exact steady_error (by split <;> rintro ⟨⟩) [c] 1

theorem variant_local : Local (Reader.variant members).run := by
  apply local_blanks (readVariant_within members)
  intro c p
  apply ((variantName_local members).steady p).ite
  apply ((variantObject_local members).steady p).ite
  exact steady_error (by rintro ⟨⟩) [c] 1

end

/-! ## Skipped values -/

theorem skip_value_blanks (opened : List Bracket) (s : List Char) :
    skip .value opened s =
      match skipBlanks s with
      | [] => .error (.next .endInValue [])
      | c :: t =>
        if c = '[' then skip (.first .list) opened t
        else if c = '{' then skip (.first .object) opened t
        else (skipScalar (c :: t)).andThen fun _ r => skip .more opened r := by
  cases hs : skipBlanks s with
  | nil =>
    rw [skip]
    split
    · rfl
    · rename_i h; rw [hs] at h; cases h
  | cons c t => exact skip_value_eq opened hs

theorem skip_first_blanks (b : Bracket) (opened : List Bracket) (s : List Char) :
    skip (.first b) opened s =
      match skipBlanks s with
      | [] => .error (.next b.unfinished [])
      | c :: t =>
        if c = b.closing then skip .more opened t
        else (skipKey b (c :: t)).andThen fun _ r => skip .value (b :: opened) r := by
  cases hs : skipBlanks s with
  | nil =>
    rw [skip]
    split
    · rfl
    · rename_i h; rw [hs] at h; cases h
  | cons c t => exact skip_first_eq b opened hs

theorem skip_more_blanks (b : Bracket) (opened : List Bracket) (s : List Char) :
    skip .more (b :: opened) s =
      match skipBlanks s with
      | [] => .error (.next b.unfinished [])
      | c :: t =>
        if c = ',' then (skipKey b t).andThen fun _ r => skip .value (b :: opened) r
        else if c = b.closing then skip .more opened t
        else .error (.next b.separation (c :: t)) := by
  cases hs : skipBlanks s with
  | nil =>
    rw [skip]
    split
    · rfl
    · rename_i h; rw [hs] at h; cases h
  | cons c t => exact skip_more_eq b opened hs

theorem skipScalar_local : Local skipScalar := by
  have hnumber : Local fun s => (scanLiteral .invalidNumber s).andThen fun _ r => .ok ((), r) :=
    scanLiteral_andThen_local fun _ _ _ => exponentPart_andThen_local (local_ok ()) fun _ =>
      (exponentDigits_local _).andThen fun _ => local_ok ()
  apply local_of_cons skipScalar_within
  intro c p
  apply (skipTextBody_local.steady p).ite
  apply (hnumber.steady (c :: p)).tail.ite
  apply ((word_local nullTail).steady p).ite
  apply ((word_local trueTail).steady p).ite
  apply ((word_local falseTail).steady p).ite
  exact steady_error (by rintro ⟨⟩) [c] 1

theorem skipKey_local (b : Bracket) : Local (skipKey b) := by
  cases b with
  | list => exact local_ok ()
  | object =>
    apply local_blanks (skipKey_within .object)
    intro c p
    exact ((skipTextBody_local.andThen fun _ => colon_local).steady p).ite (steady_error (by rintro ⟨⟩) [c] 1)

theorem steady_skip (due : Due) (opened : List Bracket) (p : List Char) : Steady (skip due opened) p := by
  match due, opened with
  | .value, opened =>
    have hw := skip_within .value opened
    rw [funext (skip_value_blanks opened)] at hw ⊢
    refine steady_blanks hw fun c q hp => ?_
    have hlt := tail_length_lt hp
    apply (steady_skip (.first .list) opened q).ite
    apply (steady_skip (.first .object) opened q).ite
    refine (skipScalar_local.steady (c :: q)).tail.andThen (fun _ => skip_within _ _) fun _ q' u h => ?_
    have hle := length_le_of_taken skipScalar_within (p := c :: q) h
    exact steady_skip .more opened q'
  | .first b, opened =>
    have hw := skip_within (.first b) opened
    rw [funext (skip_first_blanks b opened)] at hw ⊢
    refine steady_blanks hw fun c q hp => ?_
    have hlt := tail_length_lt hp
    apply (steady_skip .more opened q).ite
    refine ((skipKey_local b).steady (c :: q)).tail.andThen (fun _ => skip_within _ _) fun _ q' u h => ?_
    have hle := length_le_of_taken (skipKey_within b) (p := c :: q) h
    exact steady_skip .value (b :: opened) q'
  | .more, [] =>
    have hdone : skip .more [] = fun s => .ok ((), s) := by
      funext s
      rw [skip]
    rw [hdone]
    exact steady_ok ()
  | .more, b :: opened =>
    have hw := skip_within .more (b :: opened)
    rw [funext (skip_more_blanks b opened)] at hw ⊢
    refine steady_blanks hw fun c q hp => ?_
    have hlt := tail_length_lt hp
    apply Steady.ite
    · refine ((skipKey_local b).steady q).andThen (fun _ => skip_within _ _) fun _ q' u h => ?_
      have hle := length_le_of_taken (skipKey_within b) h
      exact steady_skip .value (b :: opened) q'
    apply (steady_skip .more opened q).ite
    exact steady_error (by cases b <;> rintro ⟨⟩) [c] 1
termination_by 3 * p.length + due.rank
decreasing_by
  all_goals simp only [Due.rank, List.length_cons] at *
  all_goals omega

theorem skipValue_local : Local skipValue := ⟨skipValue_within, steady_skip .value []⟩

/-! ## Objects -/

theorem duplicate_local {α : Type} (name : String) :
    Local fun s => (.error (.here (.duplicateField name) (pastBrace s)) : Reading α) where
  within s := within_here (pastBrace_suffix s)
  steady p := by
    apply steady_of_blanks
    · exact fun s => within_here (pastBrace_suffix s)
    · intro s
      simp only [pastBrace, skipBlanks_skipBlanks]
    · intro c q hp
      simp only [pastBrace, skipBlanks_eq_self (not_blank_of_skipBlanks hp)]
      by_cases hc : c = '}'
      · simp only [if_pos hc]
        exact steady_error (by rintro ⟨⟩) [] 0
      · simp only [if_neg hc]
        exact steady_error (by rintro ⟨⟩) [c] 0

namespace RecordFormat
variable {σ α : Type} (f : RecordFormat σ α) (hf : ∀ field ∈ f.fields, Local field.reader.run)

include hf in
theorem member_local (d : σ) : Local (f.member d) := by
  apply textBody_local.andThen
  intro key
  cases hk : f.field? key with
  | some field =>
    apply (duplicate_local field.name).ite
    exact colon_local.andThen fun _ => (hf field (List.mem_of_find?_eq_some hk)).andThen fun change => local_ok _
  | none => exact colon_local.andThen fun _ => skipValue_local.andThen fun _ => local_ok d

theorem closed_local (d : σ) :
    Local fun r =>
      match f.finish d with
      | .ok a => .ok (a, r)
      | .error name => .error (.here (.missingField name) r) := by
  cases f.finish d with
  | ok a => exact local_ok a
  | error name => exact local_here (by rintro ⟨⟩)

include hf in
theorem steady_members (isFirst : Bool) (d : σ) (p : List Char) : Steady (f.members isFirst d) p := by
  rw [funext (f.members_eq isFirst d)]
  refine ((nextMember_local isFirst).steady p).andThen (fun more r => ?_) fun more q u h => ?_
  · split
    · exact (f.member_within d r).andThen fun d' t ht => (f.members_within false d' t).mono ht
    · exact (f.closed_local d).within r
  · have hlt : q.length < p.length := by
      have hshorter := nextMember_length_lt h
      simp only [List.length_append] at hshorter
      omega
    refine Steady.ite ?_ ((f.closed_local d).steady q)
    refine ((f.member_local hf d).steady q).andThen (fun d' => f.members_within false d') fun d' q' u' h' => ?_
    have hle := length_le_of_taken (f.member_within d) h'
    exact steady_members false d' q'
termination_by p.length

include hf in
theorem members_local (isFirst : Bool) (d : σ) : Local (f.members isFirst d) :=
  ⟨f.members_within isFirst d, f.steady_members hf isFirst d⟩

end RecordFormat

/-! ## Lists -/

theorem nextElement_local (isFirst : Bool) : Local (nextElement isFirst) := by
  apply local_blanks (nextElement_within isFirst)
  intro c p
  apply (steady_ok false).ite
  apply (steady_put true [c]).ite
  apply Steady.ite
  · refine (local_blanks (within_blanks rfl fun d t => ?_) fun d q => ?_).steady p
    · split
      · exact within_next List.suffix_rfl
      · exact within_ok List.suffix_rfl
    · exact (steady_error (by rintro ⟨⟩) [d] 1).ite (steady_put true [d])
  · exact steady_error (by rintro ⟨⟩) [c] 1

theorem comma_local : Local fun s =>
    (.error (.next (if (skipBlanks s).head? = some ']' then .trailingComma else .trailingCharacters) (skipBlanks s)) :
      Reading Unit) where
  within s := within_next (skipBlanks_suffix s)
  steady p := by
    apply steady_of_blanks
    · exact fun s => within_next (skipBlanks_suffix s)
    · intro s
      simp only [skipBlanks_skipBlanks]
    · intro c q hp
      simp only [skipBlanks_eq_self (not_blank_of_skipBlanks hp), List.head?_cons]
      exact steady_error (by split <;> rintro ⟨⟩) [c] 1

theorem closeList_local : Local closeList := by
  apply local_blanks closeList_within
  intro c p
  apply (steady_ok ()).ite
  exact (comma_local.steady p).ite (steady_error (by rintro ⟨⟩) [c] 1)

namespace RecordFormat
variable {σ α : Type} (f : RecordFormat σ α) (hf : ∀ field ∈ f.fields, Local field.reader.run)

theorem finishList_local (n : Nat) (d : σ) : Local (f.finishList n d) := by
  unfold finishList
  cases f.finish d with
  | ok a => exact local_ok a
  | error name => exact local_here (by rintro ⟨⟩)

theorem elements_local (fields : List (Field σ)) (hfields : ∀ field ∈ fields, Local field.reader.run) (n : Nat)
    (d : σ) : Local (f.elements fields n d) := by
  induction fields generalizing n d with
  | nil => exact closeList_local.andThen fun _ => f.finishList_local n d
  | cons field fields ih =>
    obtain ⟨hfield, hfields⟩ := List.forall_mem_cons.1 hfields
    apply (nextElement_local (n == 0)).andThen
    intro more
    apply Local.ite _ (f.finishList_local n d)
    exact hfield.andThen fun change => ih hfields (n + 1) (change d)

include hf in
theorem reader_local : Local f.reader.run where
  within := f.read_within
  steady p := by
    apply steady_of_blanks f.read_within
    · intro s
      simp only [read, skipBlanks_skipBlanks, readToken_skipBlanks]
    · intro c q hp
      have hc := not_blank_of_skipBlanks hp
      by_cases hb : c = '{'
      · subst hb
        exact (f.members_local hf true f.draft).steady q
      by_cases hl : c = '['
      · subst hl
        exact (f.elements_local f.fields hf 0 f.draft).steady q
      · have hother : ∀ s, f.read (c :: s) =
            (readToken (c :: s)).andThen fun t r => .error (.here (.invalidType t f.title) r) := by
          intro s
          simp only [read, skipBlanks_eq_self hc]
          split
          · rename_i hs
            exact absurd (List.head_eq_of_cons_eq hs) hb
          · rename_i hs
            exact absurd (List.head_eq_of_cons_eq hs) hl
          · rfl
        show Steady (fun s => f.read (c :: s)) q
        simp only [hother]
        exact ((readToken_local.andThen fun t => local_here (by rintro ⟨⟩)).steady (c :: q)).tail

end RecordFormat

end Preconditions.Json
