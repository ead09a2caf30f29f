import Preconditions.Proofs.Json.Prefixes
import Preconditions.Proofs.Json.Truncation
import Preconditions.Proofs.Json.Writing

/-!
# Records that are cut off

A reader tapers on a text when each shorter first part of it ends too early, or is taken as a whole, as a number is
that has lost digits. The fields of a record hand this on to the record: whatever the last field has taken, a sign
is due after it.
-/

namespace Preconditions.Json

def Spent {α : Type} (x : Reading α) : Prop := Starved x ∨ ∃ a, x = .ok (a, [])

def Tapers {α : Type} (P : List Char → Reading α) (s : List Char) : Prop :=
  ∀ p u, p ++ u = s → u ≠ [] → Spent (P p)

def Reader.TapersOn {α : Type} (r : Reader α) (v : Value) : Prop :=
  ∀ b w, Blank b → Spells v w → Tapers r.run (b ++ w)

/-! ## Scalars -/

section
variable {α β : Type}

theorem Spent.map {x : Reading α} (h : Spent x) (g : α → β) : Spent (x.andThen fun a r => .ok (g a, r)) := by
  obtain h | ⟨a, rfl⟩ := h
  · exact .inl (h.andThen _)
  · exact .inr ⟨g a, rfl⟩

theorem Spent.andThen {x : Reading α} (h : Spent x) {k : α → List Char → Reading β} (hk : ∀ a, Starved (k a [])) :
    Starved (x.andThen k) := by
  obtain h | ⟨a, rfl⟩ := h
  · exact h.andThen k
  · exact hk a

theorem Incremental.tapers {P : List Char → Reading α} (h : Incremental P) {s : List Char} {a : α}
    (hs : P s = .ok (a, [])) : Tapers P s := by
  rintro p u rfl hu
  obtain ⟨q, hq, -⟩ | hp := h p u a [] hs
  · exact absurd (List.append_eq_nil_iff.1 hq.symm).2 hu
  · exact .inl hp

theorem Incremental.tapersOn {r : Reader α} {m : Value → Option α} (h : Incremental r.run) (hr : r.Reads m)
    {v : Value} {a : α} (ha : m v = some a) : r.TapersOn v := by
  intro b w hb hw
  have hs := hr.complete hb hw ha stops_nil
  rw [List.append_nil] at hs
  exact h.tapers hs

end

theorem word64?_take {ds es : List Char} {n : UInt64}
    (h : (Value.number ⟨false, ds ++ es, [], none⟩).word64? = some n) :
    ∃ m, (Value.number ⟨false, ds, [], none⟩).word64? = some m := by
  have hle := le_ofDigitChars es (Nat.ofDigitChars 10 ds 0)
  rw [← Nat.ofDigitChars_append] at hle
  obtain ⟨k, hk, h⟩ := Option.bind_eq_some_iff.1 h
  cases hk
  split at h
  · rename_i hlt
    exact ⟨_, if_pos (Nat.lt_of_le_of_lt hle hlt)⟩
  · cases h

theorem spells_take {ds es : List Char} (hd : IsDigits (ds ++ es)) (hz : (ds ++ es).head? = some '0' → ds ++ es = ['0'])
    (hne : ds ≠ []) : Spells (.number ⟨false, ds, [], none⟩) ds := by
  have hds : IsDigits ds := ⟨hne, fun c hc => hd.2 c (List.mem_append_left es hc)⟩
  have hz' : ds.head? = some '0' → ds = ['0'] := by
    intro h
    have h' := hz (by rw [List.head?_append, h]; rfl)
    obtain ⟨rfl, -⟩ | ⟨rfl, -⟩ := List.append_eq_singleton_iff.1 h'
    · cases h
    · rfl
  exact Numeral.spells ⟨hds, hz', rfl⟩

theorem starved_refine {α : Type} (f : Token → Except Cause α) {b : List Char} (hb : Blank b) :
    Starved ((Reader.token.refine f).run b) := by
  show Starved ((readToken b).andThen _)
  rw [← readToken_skipBlanks, skipBlanks_blank hb]
  exact ⟨.next .endInValue [], rfl, rfl⟩

theorem word64_tapersOn {v : Value} {n : UInt64} (h : v.word64? = some n) : Reader.word64.TapersOn v := by
  intro b w hb hw p u hp hu
  obtain ⟨⟩ := Value.word64?_eq_some_iff.1 h
  rename_i ds _
  obtain ⟨rfl, hd, hz⟩ := eq_of_spells_digits hw
  obtain ⟨b', rfl, -⟩ | ⟨ds, rfl, rfl⟩ := List.append_eq_append_iff.1 hp
  · exact .inl (starved_refine _ fun c hc => hb c (List.mem_append_left b' hc))
  by_cases hne : ds = []
  · subst hne
    rw [List.append_nil]
    exact .inl (starved_refine _ hb)
  · obtain ⟨m, hm⟩ := word64?_take h
    have hr := word64_reads.complete hb (spells_take hd hz hne) hm stops_nil
    rw [List.append_nil] at hr
    exact .inr ⟨m, hr⟩

theorem optional_tapersOn {α : Type} {r : Reader α} {m : Value → Option α}
    (hblank : ∀ b, Blank b → Starved (r.run b)) (ht : ∀ v a, m v = some a → r.TapersOn v) {v : Value} {o : Option α}
    (h : v.optional? m = some o) : r.optional.TapersOn v := by
  intro b w hb hw p u hp hu
  have hs := hw.skipBlanks_eq hb []
  rw [List.append_nil, List.append_nil] at hs
  by_cases hn : v = .null
  · subst hn
    cases hw
    cases hp' : skipBlanks p with
    | nil =>
      simp only [Reader.optional, hp']
      exact .inl ((hblank p (blank_of_skipBlanks hp')).andThen _)
    | cons c t =>
      have ht := skipBlanks_append_of_cons hp' u
      rw [hp, hs] at ht
      obtain ⟨rfl, htail⟩ := List.cons.inj ht
      simp only [Reader.optional, hp']
      exact ((incremental_word nullTail).tapers (word_append nullTail []) t u htail.symm hu).map _
  · rw [optional?_of_ne_null hn] at h
    obtain ⟨a, ha, rfl⟩ := Option.map_eq_some_iff.1 h
    have hrun : r.optional.run p = (r.run p).andThen fun a u => .ok (some a, u) := by
      simp only [Reader.optional]
      split
      · rename_i t ht
        have ht := skipBlanks_append_of_cons ht u
        obtain ⟨c, w, rfl, hc⟩ := hw.head
        rw [hp, hs] at ht
        cases ht
        exact absurd (eq_null_of_opens hc) hn
      · rfl
    rw [hrun]
    exact (ht v a ha b w hb hw p u hp hu).map some

/-! ## Members -/

theorem Incremental.spent {α β : Type} {P : List Char → Reading α} (hP : Incremental P)
    {K : α → List Char → Reading β} {p u r : List Char} {a : α} (h : P (p ++ u) = .ok (a, r))
    (hK : ∀ q, q ++ u = r → Spent (K a q)) : Spent ((P p).andThen K) := by
  obtain ⟨q, hr, hq⟩ | hs := hP p u a r h
  · rw [hq]
    exact hK q hr.symm
  · exact .inl (hs.andThen K)

theorem stops_of_append {s t : List Char} (h : Stops (s ++ t)) : Stops s := by
  cases s with
  | nil => exact stops_nil
  | cons c s => exact h

theorem RecordFormat.members_eq {σ α : Type} (f : RecordFormat σ α) (isFirst : Bool) (d : σ) (s : List Char) :
    f.members isFirst d s = (nextMember isFirst s).andThen fun more r =>
      if more then (f.member d r).andThen fun d' t => f.members false d' t
      else
        match f.finish d with
        | .ok a => .ok (a, r)
        | .error name => .error (.here (.missingField name) r) := by
  rw [RecordFormat.members]
  split
  · rename_i e he
    rw [he]
    rfl
  · rename_i r hr
    rw [hr]
    rfl
  · rename_i r hr
    rw [hr]
    simp only [Reading.andThen, if_true]
    split <;> rename_i hm <;> rw [hm]

theorem Writes.names {ms : List (String × List Char)} {vs : List (String × Value)} (h : Writes ms vs) :
    vs.map (·.1) = ms.map (·.1) := by
  induction h with
  | nil => rfl
  | cons _ _ ih => rw [List.map_cons, List.map_cons, ih]

theorem Fills.meaning_of_mem {β : Type} {m : Value → Option β} {vs : List Value} {b x : Option β}
    (h : Fills m vs b x) {v : Value} (hv : v ∈ vs) : ∃ a, m v = some a := by
  cases h with
  | none => cases hv
  | one ha =>
    obtain rfl := List.mem_singleton.1 hv
    exact ⟨_, ha⟩

namespace Layout
variable {σ ι α : Type} {β : ι → Type} (L : Layout σ ι β) {f : RecordFormat σ α}

def Known (ms : List (List Piece × Value)) : Prop :=
  ∀ m ∈ ms, ∃ i, Decodes m.1 (L.name i).toList ∧ (L.reader i).TapersOn m.2

variable (hf : f.fields = L.order.map L.field)
include hf

theorem member_spent {i : ι} {d : σ} {k : List Piece} {v : Value} {y w p u : List Char}
    (hk : KeySpelled k ('"' :: y)) (hkey : Decodes k (L.name i).toList) (hd : L.get i d = none) (hv : Spells v w)
    (ht : (L.reader i).TapersOn v) (hp : p ++ u = y ++ w) (hu : u ≠ []) : Spent (f.member d p) := by
  obtain ⟨x, b, b', hx, hb, hb', rfl⟩ := hk.split
  have hs : x ++ '"' :: b ++ ':' :: b' ++ w = x ++ '"' :: (b ++ ':' :: (b' ++ w)) := by simp
  have hbody := textBody_complete hx (decode?_eq_some_iff.2 hkey) (b ++ ':' :: (b' ++ w))
  rw [← hs, ← hp] at hbody
  refine incremental_textBody.spent hbody fun q hq => ?_
  have hg : (L.field i).isGiven d = false := by simp [field, Field.of, hd]
  simp only [L.field?_eq hf, L.find?_eq_some_iff.2 rfl, Option.map_some, hg]
  have hcolon := colon_complete hb (b' ++ w)
  rw [← hq] at hcolon
  refine incremental_colon.spent hcolon fun t hr => ?_
  have hread : (L.field i).reader.run t = ((L.reader i).run t).andThen fun c r => .ok (fun e => L.set i e c, r) := rfl
  rw [hread]
  exact ((ht b' w hb' hv t u hr hu).map _).map _

omit hf in
theorem members_nil (d : σ) : Starved (f.members false d []) := by
  rw [f.members_eq]
  exact ⟨.next .endInObject [], rfl, rfl⟩

theorem members_spent {isFirst : Bool} {ms : List (List Piece × Value)} {w p u : List Char} {d d' : σ}
    (hw : Members isFirst ms w) (hms : L.Known ms) (hd : L.takeMembers d ms = some d') (hp : p ++ u = w ++ ['}'])
    (hu : u ≠ []) : Spent (f.members isFirst d p) := by
  induction ms generalizing isFirst w p d with
  | nil =>
    rcases hw with hb | _
    have hn := nextMember_close isFirst hb []
    rw [← hp] at hn
    rw [f.members_eq]
    refine (incremental_nextMember isFirst).spent hn fun q hq => ?_
    exact absurd (List.append_eq_nil_iff.1 hq).2 hu
  | cons m ms ih =>
    rcases hw with _ | ⟨hg, hk, hv, hx⟩
    rename_i k v g y w x
    obtain ⟨i, hkey, ht⟩ := hms (k, v) List.mem_cons_self
    rw [takeMembers, List.foldlM_cons] at hd
    obtain ⟨d₁, hd₁, hd₂⟩ := Option.bind_eq_some_iff.1 hd
    obtain ⟨hgiven, -⟩ := (L.take_known hkey).1 hd₁
    obtain ⟨y, rfl⟩ := hk.quoted
    have hs : g ++ '"' :: y ++ w ++ x ++ ['}'] = g ++ '"' :: (y ++ w ++ (x ++ ['}'])) := by simp
    have hn := nextMember_key hg (y ++ w ++ (x ++ ['}']))
    rw [← hs, ← hp] at hn
    rw [f.members_eq]
    refine (incremental_nextMember isFirst).spent hn fun q hq => ?_
    simp only [if_true]
    obtain ⟨z, hz, -⟩ | ⟨z, rfl, hz⟩ := List.append_eq_append_iff.1 hq
    · -- the text ends in this member, or right after it
      refine .inl (Spent.andThen ?_ fun d₂ => members_nil d₂)
      by_cases hne : z = []
      · have hm := L.member_complete hf hk hv hd₁ stops_nil
        rw [hz, hne, List.append_nil, List.append_nil] at hm
        exact .inr ⟨d₁, hm⟩
      · exact L.member_spent hf hk hkey hgiven hv ht hz.symm hne
    · rw [L.member_complete hf hk hv hd₁ (stops_of_append (hz ▸ hx.stops []))]
      exact ih hx (fun m hm => hms m (List.mem_cons_of_mem _ hm)) hd₂ hz.symm

/-! ## Records -/

theorem tapersOn_object {ms : List (List Piece × Value)} {a : α} (hms : L.Known ms)
    (ha : L.value? f (.object ms) = some a) : f.reader.TapersOn (.object ms) := by
  intro b w hb hw p u hp hu
  obtain ⟨d, hd, -⟩ := Option.bind_eq_some_iff.1 ha
  have hs := hw.skipBlanks_eq hb []
  rw [List.append_nil, List.append_nil] at hs
  rcases hw with _ | _ | _ | _ | _ | _ | hw
  show Spent (f.read p)
  cases hp' : skipBlanks p with
  | nil =>
    simp only [RecordFormat.read, hp']
    rw [← readToken_skipBlanks, hp']
    exact .inl (Starved.andThen ⟨.next .endInValue [], rfl, rfl⟩ _)
  | cons c t =>
    have hc := skipBlanks_append_of_cons hp' u
    rw [hp, hs] at hc
    obtain ⟨rfl, ht⟩ := List.cons.inj hc
    simp only [RecordFormat.read, hp']
    exact L.members_spent hf hw hms hd ht.symm hu

omit hf in
theorem known_of_names {ks : List (List Piece × Value)} {vs : List (String × Value)} (hn : Names ks vs)
    (h : ∀ m ∈ vs, ∃ i, m.1 = L.name i ∧ (L.reader i).TapersOn m.2) : L.Known ks := by
  intro m hm
  obtain ⟨cs, hcs⟩ := hn.1 m hm
  have hg : m.2 ∈ given (String.ofList cs) ks := by
    refine List.mem_map.2 ⟨m, List.mem_filter.2 ⟨hm, ?_⟩, rfl⟩
    simpa using hcs
  rw [hn.2] at hg
  obtain ⟨m', hm', hv⟩ := List.mem_map.1 hg
  obtain ⟨hm', hname⟩ := List.mem_filter.1 hm'
  obtain ⟨i, hi, ht⟩ := h m' hm'
  refine ⟨i, ?_, hv ▸ ht⟩
  rw [← hi, of_decide_eq_true hname, String.toList_ofList]
  exact hcs

/-- **Written records.** What is written of a record has no members but its fields, so it is missed where it is cut
off. -/
theorem tapersOn_written [DecidableEq ι] (hnew : ∀ i, L.get i f.draft = none) {ms : List (String × List Char)}
    {vs : List (String × Value)} (hw : Writes ms vs) (hnames : ∀ m ∈ ms, ∃ i, m.1 = L.name i) {d : σ} {a : α}
    (hfill : ∀ i, Fills (L.meaning i) (valuesOf (L.name i) vs) none (L.get i d)) (ha : f.finish d = .ok a)
    (ht : ∀ i, ∀ v ∈ valuesOf (L.name i) vs, ∀ b, L.meaning i v = some b → (L.reader i).TapersOn v) :
    ∃ v, Spells v (writtenObject ms) ∧ L.value? f v = some a ∧ f.reader.TapersOn v := by
  obtain ⟨ks, hn, hks, hval⟩ := L.value?_written hnew hw hfill ha
  refine ⟨.object ks, hks, hval, L.tapersOn_object hf (L.known_of_names hn fun m hm => ?_) hval⟩
  obtain ⟨m', hm', hname⟩ := List.mem_map.1 (hw.names ▸ List.mem_map_of_mem hm)
  obtain ⟨i, hi⟩ := hnames m' hm'
  have hmi : m.1 = L.name i := hname ▸ hi
  have hv : m.2 ∈ valuesOf (L.name i) vs := List.mem_map.2 ⟨m, List.mem_filter.2 ⟨hm, decide_eq_true hmi⟩, rfl⟩
  obtain ⟨b, hb⟩ := (hfill i).meaning_of_mem hv
  exact ⟨i, hmi, ht i m.2 hv b hb⟩

end Layout

/-! ## Texts -/

theorem trimmed_written (ms : List (String × List Char)) : Trimmed (String.ofList (writtenObject ms)) := by
  intro c hc
  rw [String.toList_ofList, writtenObject, List.getLast?_concat] at hc
  cases hc
  rfl

theorem Reader.Reads.decode_written {α : Type} {r : Reader α} {m : Value → Option α} (h : r.Reads m)
    (hm : ∀ v a, m v = some a → v.Closed) {ms : List (String × List Char)} {v : Value} {a : α}
    (hv : Spells v (writtenObject ms)) (ha : m v = some a) (ht : r.TapersOn v) {p : String}
    (hp : CutOff p (String.ofList (writtenObject ms))) :
    ∃ e, r.decode p = .error e ∧ e.cause.category = .truncated := by
  have hread : r.decode (String.ofList (writtenObject ms)) = .ok a := by
    refine h.decode_eq_ok_iff.2 ⟨v, ?_, ha⟩
    rw [String.toList_ofList]
    exact hv.document
  obtain ⟨e, he⟩ := h.decode_cutOff hm hread (trimmed_written ms) hp
  obtain ⟨u, hu, hne⟩ := hp.exists_append
  rw [String.toList_ofList] at hu
  obtain ⟨f, hf, hc⟩ | ⟨b, hb⟩ := ht [] _ blank_nil hv p.toList u hu hne
  · refine ⟨f.refusal p, ?_, hc⟩
    simp only [Reader.decode, Reader.document, hf]
  · -- what is taken as a whole would be a document
    have hb' : r.decode p = .ok b := by
      simp only [Reader.decode, Reader.document, hb]
      rfl
    rw [he] at hb'
    cases hb'

end Preconditions.Json
