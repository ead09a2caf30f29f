import Preconditions.Proofs.Json.Truncation

/-!
# Readers on texts that begin alike

A reader looks at one character past what it takes and past the place of a fault, and at none after it. So on two texts
that begin alike it takes the same, or finds the same fault, if it comes to this in the part that they share. Where a
text ends too early, nothing of it is left.
-/

namespace Preconditions.Json

open Text (byteCount byteCount_append)

/-- What `x` comes to before `u` begins, `y` comes to before `v` begins. -/
structure Agrees {α : Type} (u v : List Char) (x y : Reading α) : Prop where
  taken : ∀ {a q}, q ≠ [] → x = .ok (a, q ++ u) → y = .ok (a, q ++ v)
  refused : ∀ {c q n}, n < byteCount q → x = .error ⟨c, q ++ u, n⟩ → y = .error ⟨c, q ++ v, n⟩

/-- How the reader fares on the texts that begin with `p`, and on `p` alone. -/
structure Steady {α : Type} (P : List Char → Reading α) (p : List Char) : Prop where
  agrees : ∀ u v, Agrees u v (P (p ++ u)) (P (p ++ v))
  ends : ∀ {f}, P p = .error f → f.cause.category = .truncated → f.rest = []

structure Local {α : Type} (P : List Char → Reading α) : Prop where
  within : ∀ s, Within s (P s)
  steady : ∀ p, Steady P p

section
variable {α β : Type}

/-! ## Agreement -/

section
variable {u v : List Char} {x y : Reading α}

theorem agrees_ok (a : α) (q u v : List Char) : Agrees u v (.ok (a, q ++ u)) (.ok (a, q ++ v)) where
  taken := by
    intro b r _ h
    obtain ⟨rfl, hr⟩ := Prod.mk.inj (Except.ok.inj h)
    rw [List.append_cancel_right hr]
  refused := nofun

theorem agrees_error (c : Cause) (q : List Char) (n : Nat) (u v : List Char) :
    Agrees (α := α) u v (.error ⟨c, q ++ u, n⟩) (.error ⟨c, q ++ v, n⟩) where
  taken := nofun
  refused := by
    intro d r m _ h
    obtain ⟨rfl, hr, rfl⟩ := Fault.mk.inj (Except.error.inj h)
    rw [List.append_cancel_right hr]

theorem eq_nil_of_append_suffix {q u : List Char} (h : q ++ u <:+ u) : q = [] := by
  have hlength := h.length_le
  rw [List.length_append] at hlength
  exact List.eq_nil_of_length_eq_zero (by omega)

theorem Within.agrees (h : Within u x) (v : List Char) (y : Reading α) : Agrees u v x y where
  taken := by
    rintro a q hq rfl
    exact absurd (eq_nil_of_append_suffix h) hq
  refused := by
    rintro c q n hn rfl
    rw [eq_nil_of_append_suffix h] at hn
    exact absurd hn (Nat.not_lt_zero n)

theorem Agrees.andThen (h : Agrees u v x y) {k : α → List Char → Reading β} (hw : ∀ a r, Within r (k a r))
    (hk : ∀ a q, x = .ok (a, q ++ u) → Agrees u v (k a (q ++ u)) (k a (q ++ v))) :
    Agrees u v (x.andThen k) (y.andThen k) := by
  rcases x with f | ⟨a, r⟩
  · refine ⟨nofun, fun hn he => ?_⟩
    cases he
    rw [h.refused hn rfl]
    rfl
  · by_cases hr : ∃ q, q ≠ [] ∧ r = q ++ u
    · obtain ⟨q, hq, rfl⟩ := hr
      rw [h.taken hq rfl]
      exact hk a q rfl
    · -- what is left begins in `u`, and so does what `k` leaves of it
      have hleft : ∀ {q}, q ++ u <:+ r → q = [] := by
        rintro q ⟨w, rfl⟩
        by_cases hq : q = []
        · exact hq
        · exact absurd ⟨w ++ q, by simp [hq], (List.append_assoc w q u).symm⟩ hr
      have hkr := hw a r
      constructor
      · intro b q hq hb
        have hb : k a r = .ok (b, q ++ u) := hb
        rw [hb] at hkr
        exact absurd (hleft hkr) hq
      · intro c q n hn hb
        have hb : k a r = .error ⟨c, q ++ u, n⟩ := hb
        rw [hb] at hkr
        rw [hleft hkr] at hn
        exact absurd hn (Nat.not_lt_zero n)

end

/-! ## Composition -/

section
variable {P Q : List Char → Reading α} {p : List Char}

theorem steady_put (a : α) (w : List Char) : Steady (fun s => .ok (a, w ++ s)) p where
  agrees u v := by
    simp only [← List.append_assoc]
    exact agrees_ok a (w ++ p) u v
  ends := nofun

theorem steady_ok (a : α) : Steady (fun s => .ok (a, s)) p := steady_put a []

theorem steady_error {c : Cause} (hc : c.category ≠ .truncated) (w : List Char) (n : Nat) :
    Steady (fun s => (.error ⟨c, w ++ s, n⟩ : Reading α)) p where
  agrees u v := by
    simp only [← List.append_assoc]
    exact agrees_error c (w ++ p) n u v
  ends := by
    rintro f ⟨⟩ ht
    exact absurd ht hc

theorem Steady.ite {c : Prop} [Decidable c] (hP : Steady P p) (hQ : Steady Q p) :
    Steady (fun s => if c then P s else Q s) p := by
  by_cases hc : c
  · simp only [if_pos hc]
    exact hP
  · simp only [if_neg hc]
    exact hQ

theorem Steady.andThen {K : α → List Char → Reading β} (hP : Steady P p) (hw : ∀ a s, Within s (K a s))
    (hK : ∀ a q u, P (p ++ u) = .ok (a, q ++ u) → Steady (K a) q) : Steady (fun s => (P s).andThen K) p where
  agrees u v := (hP.agrees u v).andThen hw fun a q h => (hK a q u h).agrees u v
  ends := by
    intro f h ht
    cases hx : P p with
    | error g =>
      rw [hx] at h
      cases h
      exact hP.ends hx ht
    | ok r =>
      rw [hx] at h
      have hstep := hK r.1 r.2 [] (by rw [List.append_nil, List.append_nil, hx])
      exact hstep.ends h ht

theorem Steady.andThen_local {K : α → List Char → Reading β} (hP : Steady P p) (hK : ∀ a, Local (K a)) :
    Steady (fun s => (P s).andThen K) p :=
  hP.andThen (fun a => (hK a).within) fun a q _ _ => (hK a).steady q

theorem local_ok (a : α) : Local fun s => .ok (a, s) where
  within _ := within_ok List.suffix_rfl
  steady _ := steady_ok a

theorem local_here {c : Cause} (hc : c.category ≠ .truncated) : Local fun s => (.error (.here c s) : Reading α) where
  within _ := within_here List.suffix_rfl
  steady _ := steady_error hc [] 0

theorem Local.ite {c : Prop} [Decidable c] (hP : Local P) (hQ : Local Q) : Local fun s => if c then P s else Q s where
  within s := by
    split
    · exact hP.within s
    · exact hQ.within s
  steady p := (hP.steady p).ite (hQ.steady p)

theorem Local.andThen {K : α → List Char → Reading β} (hP : Local P) (hK : ∀ a, Local (K a)) :
    Local fun s => (P s).andThen K where
  within s := (hP.within s).andThen fun a r hr => ((hK a).within r).mono hr
  steady p := (hP.steady p).andThen_local hK

theorem steady_nil (hw : ∀ s, Within s (P s)) : Steady P [] where
  agrees u v := (hw u).agrees v _
  ends := by
    intro f h _
    have hnil := hw []
    rw [h] at hnil
    exact List.suffix_nil.1 hnil

theorem steady_cons {c : Char} (h : Steady (fun s => P (c :: s)) p) : Steady P (c :: p) := ⟨h.agrees, h.ends⟩

theorem Steady.tail {c : Char} (h : Steady P (c :: p)) : Steady (fun s => P (c :: s)) p := ⟨h.agrees, h.ends⟩

theorem steady_of_blanks (hw : ∀ s, Within s (P s)) (htrim : ∀ s, P (skipBlanks s) = P s)
    (hcons : ∀ c q, skipBlanks p = c :: q → Steady (fun s => P (c :: s)) q) : Steady P p := by
  cases hp : skipBlanks p with
  | nil =>
    have hblank : ∀ u, P (p ++ u) = P u := by
      intro u
      rw [← htrim, skipBlanks_append (blank_of_skipBlanks hp), htrim]
    have hnil := hblank []
    rw [List.append_nil] at hnil
    constructor
    · intro u v
      rw [hblank]
      exact (hw u).agrees v _
    · rw [hnil]
      exact (steady_nil hw).ends
  | cons c q =>
    have h := hcons c q hp
    constructor
    · intro u v
      rw [← htrim (p ++ u), ← htrim (p ++ v), skipBlanks_append_of_cons hp, skipBlanks_append_of_cons hp]
      exact h.agrees u v
    · rw [← htrim, hp]
      exact h.ends

theorem local_of_cons (hw : ∀ s, Within s (P s)) (hcons : ∀ c p, Steady (fun s => P (c :: s)) p) : Local P where
  within := hw
  steady p := by
    cases p with
    | nil => exact steady_nil hw
    | cons c p => exact steady_cons (hcons c p)

theorem within_blanks {f : Fault} {K : Char → List Char → Reading α} (hf : f.rest = [])
    (hw : ∀ c t, Within (c :: t) (K c t)) (s : List Char) :
    Within s (match skipBlanks s with
      | [] => .error f
      | c :: t => K c t) := by
  split
  · show f.rest <:+ s
    rw [hf]
    exact List.nil_suffix
  · rename_i c t hs
    exact (hw c t).mono (suffix_of_skipBlanks hs)

theorem steady_blanks {f : Fault} {K : Char → List Char → Reading α}
    (hw : ∀ s, Within s (match skipBlanks s with
      | [] => .error f
      | c :: t => K c t)) (hK : ∀ c q, skipBlanks p = c :: q → Steady (K c) q) :
    Steady (fun s =>
      match skipBlanks s with
      | [] => .error f
      | c :: t => K c t) p := by
  apply steady_of_blanks hw
  · intro s
    simp only [skipBlanks_skipBlanks]
  · intro c q hp
    simp only [skipBlanks_eq_self (not_blank_of_skipBlanks hp)]
    exact hK c q hp

theorem local_blanks {f : Fault} {K : Char → List Char → Reading α}
    (hw : ∀ s, Within s (match skipBlanks s with
      | [] => .error f
      | c :: t => K c t)) (hK : ∀ c p, Steady (K c) p) :
    Local fun s =>
      match skipBlanks s with
      | [] => .error f
      | c :: t => K c t :=
  ⟨hw, fun _ => steady_blanks hw fun c q _ => hK c q⟩

end

end

/-! ## Signs and words -/

theorem word_local (w : List Char) : Local (word w) := by
  induction w with
  | nil => exact local_ok ()
  | cons c w ih =>
    apply local_of_cons (word_within _)
    intro d p
    exact (ih.steady p).ite (steady_error (by rintro ⟨⟩) [d] 1)

theorem colon_local : Local colon := by
  apply local_blanks colon_within
  intro c p
  exact (steady_ok ()).ite (steady_error (by rintro ⟨⟩) [c] 1)

theorem nextMember_local (isFirst : Bool) : Local (nextMember isFirst) := by
  apply local_blanks (nextMember_within isFirst)
  intro c p
  apply (steady_ok false).ite
  apply Steady.ite
  · exact (steady_ok true).ite (steady_error (by rintro ⟨⟩) [c] 1)
  apply Steady.ite
  · refine (local_blanks (within_blanks rfl fun d t => ?_) fun d q => ?_).steady p
    · split
      · exact within_ok (List.suffix_cons _ _)
      · exact within_next List.suffix_rfl
    · exact (steady_ok true).ite (steady_error (by split <;> rintro ⟨⟩) [d] 1)
  · exact steady_error (by rintro ⟨⟩) [c] 1

/-! ## Text literals -/

theorem pairLink_local (c : Char) : Local (pairLink c) := by
  apply local_of_cons (pairLink_within c)
  intro d p
  exact (steady_ok ()).ite (steady_error (by rintro ⟨⟩) [d] 1)

theorem hexUnit_error {s : List Char} {f : Fault} (h : hexUnit s = .error f) :
    (f = .here .endInText [] ∧ byteCount s < 4) ∨ f = ⟨.invalidEscape, s, 4⟩ := by
  unfold hexUnit at h
  split at h
  · split at h
    · cases h
    · cases h
      exact .inr rfl
  · split at h
    · rename_i hb
      cases h
      exact .inl ⟨rfl, hb⟩
    · cases h
      exact .inr rfl

/-- More than four bytes settle that there are no four digits, also where they are fewer than four characters. -/
theorem hexUnit_refused {p u : List Char} (h : hexUnit (p ++ u) = .error ⟨.invalidEscape, p ++ u, 4⟩)
    (hb : 4 < byteCount p) (v : List Char) : hexUnit (p ++ v) = .error ⟨.invalidEscape, p ++ v, 4⟩ := by
  cases hv : hexUnit (p ++ v) with
  | ok a =>
    obtain ⟨a, b, c, d, hs, hn⟩ := hexUnit_digits hv
    obtain ⟨-, hb'⟩ | ⟨q, rfl, -⟩ := cut_of_hexUnit? hs hn
    · omega
    · rw [List.cons_append, List.cons_append, List.cons_append, List.cons_append, hexUnit, hn] at h
      cases h
  | error f =>
    obtain ⟨-, hb'⟩ | rfl := hexUnit_error hv
    · rw [byteCount_append] at hb'
      omega
    · rfl

theorem hexUnit_local : Local hexUnit where
  within := hexUnit_within
  steady p := by
    constructor
    · intro u v
      constructor
      · intro n q _ h
        obtain ⟨a, b, c, d, hs, hn⟩ := hexUnit_digits h
        obtain rfl : p = a :: b :: c :: d :: q := List.append_cancel_right hs
        simp [hexUnit, hn]
      · intro c q n hn h
        obtain ⟨hf, -⟩ | hf := hexUnit_error h
        · obtain ⟨-, hq, -⟩ := Fault.mk.inj hf
          rw [(List.append_eq_nil_iff.1 hq).1] at hn
          exact absurd hn (Nat.not_lt_zero n)
        · obtain ⟨rfl, hq, rfl⟩ := Fault.mk.inj hf
          obtain rfl := List.append_cancel_right hq
          exact hexUnit_refused h hn v
    · intro f h ht
      obtain ⟨rfl, -⟩ | rfl := hexUnit_error h
      · rfl
      · cases ht

theorem trailingUnit_local : Local trailingUnit :=
  (pairLink_local '\\').andThen fun _ => (pairLink_local 'u').andThen fun _ => hexUnit_local

theorem codeChar_local : Local codeChar := by
  apply hexUnit_local.andThen
  intro u
  apply (local_here (by rintro ⟨⟩)).ite
  apply Local.ite
  · apply trailingUnit_local.andThen
    intro v
    exact (local_ok _).ite (local_here (by rintro ⟨⟩))
  · exact local_ok _

theorem escape_local : Local escape := by
  apply local_of_cons escape_within
  intro c p
  simp only [escape]
  cases shortEscape? c with
  | some d => exact steady_ok d
  | none => exact (codeChar_local.steady p).ite (steady_error (by rintro ⟨⟩) [c] 1)

theorem skipEscape_local : Local skipEscape := by
  apply local_of_cons skipEscape_within
  intro c p
  simp only [skipEscape]
  cases shortEscape? c with
  | some d => exact steady_ok ()
  | none => exact ((hexUnit_local.andThen fun _ => local_ok ()).steady p).ite (steady_error (by rintro ⟨⟩) [c] 1)

theorem textBody_cons (c : Char) (s : List Char) :
    textBody (c :: s) =
      if c = '"' then .ok ([], s)
      else if c = '\\' then (escape s).andThen fun d r => (textBody r).andThen fun ds t => .ok (d :: ds, t)
      else if isControl c then .error (.next .controlCharacter (c :: s))
      else (textBody s).andThen fun ds t => .ok (c :: ds, t) := by
  rw [textBody]
  split
  · rfl
  split
  · split <;> rename_i h <;> rw [h] <;> rfl
  · rfl

theorem skipTextBody_cons (c : Char) (s : List Char) :
    skipTextBody (c :: s) =
      if c = '"' then .ok ((), s)
      else if c = '\\' then (skipEscape s).andThen fun _ r => skipTextBody r
      else if isControl c then .error (.here .controlCharacter (c :: s))
      else skipTextBody s := by
  rw [skipTextBody]
  split
  · rfl
  split
  · split <;> rename_i h <;> rw [h] <;> rfl
  · rfl

theorem length_le_of_taken {α : Type} {P : List Char → Reading α} (hw : ∀ s, Within s (P s)) {p q u : List Char} {a : α}
    (h : P (p ++ u) = .ok (a, q ++ u)) : q.length ≤ p.length := by
  have hlength := (suffix_of_ok (hw (p ++ u)) h).length_le
  simp only [List.length_append] at hlength
  omega

theorem steady_textBody (p : List Char) : Steady textBody p := by
  match p with
  | [] => exact steady_nil textBody_within
  | c :: p =>
    apply steady_cons
    simp only [textBody_cons]
    apply (steady_ok []).ite
    apply Steady.ite
    · refine (escape_local.steady p).andThen ?_ fun d q u hq => ?_
      · intro d r
        exact (textBody_within r).andThen fun _ _ h => within_ok h
      · have hlength := length_le_of_taken escape_within hq
        exact (steady_textBody q).andThen_local fun ds => local_ok _
    apply (steady_error (by rintro ⟨⟩) [c] 1).ite
    exact (steady_textBody p).andThen_local fun ds => local_ok _
termination_by p.length

theorem textBody_local : Local textBody := ⟨textBody_within, steady_textBody⟩

theorem steady_skipTextBody (p : List Char) : Steady skipTextBody p := by
  match p with
  | [] => exact steady_nil skipTextBody_within
  | c :: p =>
    apply steady_cons
    simp only [skipTextBody_cons]
    apply (steady_ok ()).ite
    apply Steady.ite
    · refine (skipEscape_local.steady p).andThen (fun _ => skipTextBody_within) fun _ q u hq => ?_
      have hlength := length_le_of_taken skipEscape_within hq
      exact steady_skipTextBody q
    apply (steady_error (by rintro ⟨⟩) [c] 0).ite
    exact steady_skipTextBody p
termination_by p.length

theorem skipTextBody_local : Local skipTextBody := ⟨skipTextBody_within, steady_skipTextBody⟩

end Preconditions.Json
