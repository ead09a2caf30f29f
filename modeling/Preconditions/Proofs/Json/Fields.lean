import Preconditions.Proofs.Json.Records

/-!
# Records field by field

The members of an object fill a draft one after another. What they come to is told field by field: which values
are given under its name, that there is one at most, and what it means. The order of the members, and the members
with other names, have no part in it.
-/

namespace Preconditions.Json

instance (ps : List Piece) (cs : List Char) : Decidable (Decodes ps cs) := inferInstanceAs (Decidable (_ = _))

def KeysDecode (ms : List (List Piece × Value)) : Prop := ∀ m ∈ ms, ∃ cs, Decodes m.1 cs

def given (name : String) (ms : List (List Piece × Value)) : List Value :=
  (ms.filter fun m => Decodes m.1 name.toList).map (·.2)

def placed {ι : Type} [DecidableEq ι] (i : ι) (is : List ι) (vs : List Value) : List Value :=
  ((is.zip vs).filter (·.1 = i)).map (·.2)

/-- The values put into a part of the draft: one at most, and only if the part is empty. -/
inductive Fills {β : Type} (m : Value → Option β) : List Value → Option β → Option β → Prop where
  | none {b : Option β} : Fills m [] b b
  | one {v : Value} {b : β} : m v = some b → Fills m [v] none (some b)

inductive Setting {α : Type} (M : Value → α → Prop) (default : α) : List Value → α → Prop where
  | absent : Setting M default [] default
  | present {v : Value} {a : α} : M v a → Setting M default [v] a

theorem given_cons_of_decodes {name : String} {k : List Piece} {v : Value} {ms : List (List Piece × Value)}
    (h : Decodes k name.toList) : given name ((k, v) :: ms) = v :: given name ms := by
  simp [given, h]

theorem given_cons_of_not {name : String} {k : List Piece} {v : Value} {ms : List (List Piece × Value)}
    (h : ¬ Decodes k name.toList) : given name ((k, v) :: ms) = given name ms := by
  simp [given, h]

theorem decodes_inj {ps : List Piece} {cs ds : List Char} (h : Decodes ps cs) (h' : Decodes ps ds) : cs = ds := by
  have := decode?_eq_some_iff.2 h
  rw [decode?_eq_some_iff.2 h'] at this
  cases this
  rfl

theorem keysDecode_nil : KeysDecode [] := fun _ h => nomatch h

theorem fills_some {β : Type} {m : Value → Option β} {vs : List Value} {b : β} {x : Option β} :
    Fills m vs (some b) x ↔ vs = [] ∧ x = some b := by
  constructor
  · rintro ⟨⟩
    exact ⟨rfl, rfl⟩
  · intro hx
    obtain ⟨rfl, rfl⟩ := hx
    exact .none

theorem fills_nil {β : Type} {m : Value → Option β} {b x : Option β} : Fills m [] b x ↔ x = b := by
  constructor
  · rintro ⟨⟩
    rfl
  · rintro rfl
    exact .none

theorem fills_cons {β : Type} {m : Value → Option β} {v : Value} {vs : List Value} {b x : Option β} :
    Fills m (v :: vs) b x ↔ b = none ∧ ∃ a, m v = some a ∧ Fills m vs (some a) x := by
  constructor
  · intro hx
    rcases hx with _ | h
    exact ⟨rfl, _, h, .none⟩
  · intro hx
    obtain ⟨rfl, a, h, h'⟩ := hx
    obtain ⟨rfl, rfl⟩ := fills_some.1 h'
    exact .one h

theorem setting_iff {β : Type} {m : Value → Option β} {default a : β} {vs : List Value} :
    Setting (fun v b => m v = some b) default vs a ↔ ∃ x, Fills m vs none x ∧ x.getD default = a := by
  constructor
  · intro hx
    rcases hx with _ | h
    · exact ⟨none, .none, rfl⟩
    · exact ⟨some a, .one h, rfl⟩
  · intro hx
    obtain ⟨x, _ | h, rfl⟩ := hx
    · exact .absent
    · exact .present h

inductive Value.IsText : Value → String → Prop where
  | mk {ps : List Piece} {s : String} : Decodes ps s.toList → IsText (.text ps) s

inductive Value.IsBoolean : Value → Bool → Prop where
  | mk (b : Bool) : IsBoolean (.boolean b) b

theorem Value.text?_eq_some_iff {v : Value} {s : String} : v.text? = some s ↔ v.IsText s := by
  constructor
  · intro h
    cases v with
    | text ps =>
      obtain ⟨cs, hcs, rfl⟩ := Option.map_eq_some_iff.1 h
      exact .mk (by rw [String.toList_ofList]; exact decode?_eq_some_iff.1 hcs)
    | _ => cases h
  · intro hx
    obtain ⟨h⟩ := hx
    simp [text?, decode?_eq_some_iff.2 h]

theorem Value.boolean?_eq_some_iff {v : Value} {b : Bool} : v.boolean? = some b ↔ v.IsBoolean b := by
  constructor
  · intro h
    cases v with
    | boolean b' => cases h; exact .mk b
    | _ => cases h
  · rintro ⟨⟩
    rfl

theorem text_setting {default a : String} {vs : List Value} :
    Setting Value.IsText default vs a ↔ ∃ x, Fills Value.text? vs none x ∧ x.getD default = a := by
  simp only [← setting_iff, Value.text?_eq_some_iff]

theorem boolean_setting {default a : Bool} {vs : List Value} :
    Setting Value.IsBoolean default vs a ↔ ∃ x, Fills Value.boolean? vs none x ∧ x.getD default = a := by
  simp only [← setting_iff, Value.boolean?_eq_some_iff]

inductive Value.IsWord : Value → UInt64 → Prop where
  | mk {digits : List Char} {n : UInt64} : Nat.ofDigitChars 10 digits 0 = n.toNat →
      IsWord (.number ⟨false, digits, [], none⟩) n

inductive Value.Nullable {α : Type} (M : Value → α → Prop) : Value → Option α → Prop where
  | null : Nullable M .null none
  | value {v : Value} {a : α} : M v a → Nullable M v (some a)

inductive Required {α : Type} (M : Value → α → Prop) : List Value → α → Prop where
  | mk {v : Value} {a : α} : M v a → Required M [v] a

theorem required_nil {α : Type} {M : Value → α → Prop} {a : α} : ¬ Required M [] a := nofun

theorem required_one {α : Type} {M : Value → α → Prop} {v : Value} {a : α} : Required M [v] a ↔ M v a := by
  constructor
  · rintro ⟨h⟩
    exact h
  · exact .mk

theorem required_iff {α : Type} {m : Value → Option α} {M : Value → α → Prop} (hm : ∀ v a, m v = some a ↔ M v a)
    {vs : List Value} {a : α} : Required M vs a ↔ Fills m vs none (some a) := by
  constructor
  · rintro ⟨h⟩
    exact .one ((hm _ _).2 h)
  · rintro (_ | h)
    exact .mk ((hm _ _).1 h)

theorem Value.natural?_eq_some_iff {v : Value} {n : Nat} :
    v.natural? = some n ↔ ∃ digits, v = .number ⟨false, digits, [], none⟩ ∧ Nat.ofDigitChars 10 digits 0 = n := by
  constructor
  · intro h
    unfold natural? at h
    split at h
    · cases h
      exact ⟨_, rfl, rfl⟩
    · cases h
  · intro hx
    obtain ⟨digits, rfl, rfl⟩ := hx
    rfl

theorem Value.word64?_eq_some_iff {v : Value} {n : UInt64} : v.word64? = some n ↔ v.IsWord n := by
  constructor
  · intro h
    obtain ⟨k, hk, h⟩ := Option.bind_eq_some_iff.1 h
    obtain ⟨digits, rfl, rfl⟩ := natural?_eq_some_iff.1 hk
    split at h
    · rename_i hlt
      cases h
      exact .mk (UInt64.toNat_ofNat_of_lt' hlt).symm
    · cases h
  · intro hx
    obtain ⟨h⟩ := hx
    have hlt : n.toNat < UInt64.size := n.toNat_lt
    rw [word64?, natural?_eq_some_iff.2 ⟨_, rfl, h⟩, Option.bind_some, if_pos hlt, UInt64.ofNat_toNat]

theorem Value.optional?_eq_some_iff {α : Type} {m : Value → Option α} {M : Value → α → Prop}
    (hm : ∀ v a, m v = some a ↔ M v a) (hn : m .null = none) {v : Value} {o : Option α} :
    v.optional? m = some o ↔ Nullable M v o := by
  constructor
  · intro h
    by_cases hv : v = .null
    · subst hv
      cases h
      exact .null
    · rw [optional?_of_ne_null hv] at h
      obtain ⟨a, ha, rfl⟩ := Option.map_eq_some_iff.1 h
      exact .value ((hm _ _).1 ha)
  · intro hx
    rcases hx with _ | h
    · rfl
    · have hv : v ≠ .null := by
        rintro rfl
        rw [← hm, hn] at h
        cases h
      rw [optional?_of_ne_null hv, (hm _ _).2 h]
      rfl

theorem nullable_setting {α : Type} {m : Value → Option α} {M : Value → α → Prop} (hm : ∀ v a, m v = some a ↔ M v a)
    (hn : m .null = none) {vs : List Value} {o : Option α} :
    Setting (Value.Nullable M) none vs o ↔ ∃ x, Fills (Value.optional? m) vs none x ∧ x.join = o := by
  have hj : ∀ x : Option (Option α), x.join = x.getD none := fun x => by cases x <;> rfl
  have ho : ∀ v b, v.optional? m = some b ↔ Value.Nullable M v b := fun v b => Value.optional?_eq_some_iff hm hn
  simp only [hj, ← setting_iff, ho]

namespace Layout
variable {σ ι : Type} {β : ι → Type} (L : Layout σ ι β)

/-! ## Members -/

theorem find?_eq_some_iff {key : List Char} {i : ι} :
    L.order.find? (L.name · == String.ofList key) = some i ↔ key = (L.name i).toList := by
  constructor
  · intro h
    have hn : L.name i = String.ofList key := by simpa using List.find?_some h
    rw [hn, String.toList_ofList]
  · rintro rfl
    rw [String.ofList_toList]
    cases h : L.order.find? (L.name · == L.name i) with
    | none => simpa using List.find?_eq_none.1 h i (L.mem_order i)
    | some j =>
      have hj : L.name j = L.name i := by simpa using List.find?_some h
      rw [L.name_inj hj]

theorem take_known {i : ι} {k : List Piece} (hk : Decodes k (L.name i).toList) {d d' : σ} {v : Value} :
    L.take d (k, v) = some d' ↔ L.get i d = none ∧ ∃ b, L.meaning i v = some b ∧ L.set i d b = d' := by
  simp only [take, decode?_eq_some_iff.2 hk, Option.bind_some, L.find?_eq_some_iff.2 rfl]
  cases L.get i d <;> simp

theorem take_unknown {k : List Piece} {cs : List Char} (hk : Decodes k cs) (h : ∀ i, cs ≠ (L.name i).toList)
    (d : σ) (v : Value) : L.take d (k, v) = some d := by
  have hn : L.order.find? (L.name · == String.ofList cs) = none := by
    cases hi : L.order.find? (L.name · == String.ofList cs) with
    | none => rfl
    | some i => exact absurd (L.find?_eq_some_iff.1 hi) (h i)
  simp only [take, decode?_eq_some_iff.2 hk, Option.bind_some, hn]

theorem forall_fills_nil {d d' : σ} {vals : ι → List Value} (h : ∀ i, vals i = []) :
    (∀ i, Fills (L.meaning i) (vals i) (L.get i d) (L.get i d')) ↔ d = d' := by
  simp only [h, fills_nil]
  constructor
  · exact fun h => L.ext fun i => (h i).symm
  · rintro rfl
    exact fun _ => rfl

theorem forall_fills_cons {i : ι} {v : Value} {vals vals' : ι → List Value} {d d' : σ} (hi : vals' i = v :: vals i)
    (hne : ∀ j, j ≠ i → vals' j = vals j) :
    (∀ j, Fills (L.meaning j) (vals' j) (L.get j d) (L.get j d')) ↔
      L.get i d = none ∧ ∃ b, L.meaning i v = some b ∧
        ∀ j, Fills (L.meaning j) (vals j) (L.get j (L.set i d b)) (L.get j d') := by
  constructor
  · intro h
    have hfi := h i
    rw [hi, fills_cons] at hfi
    obtain ⟨hd, b, hb, hfi⟩ := hfi
    refine ⟨hd, b, hb, fun j => ?_⟩
    by_cases hj : j = i
    · subst hj
      rwa [L.get_set]
    · rw [L.get_set_of_ne hj, ← hne j hj]
      exact h j
  · intro hx j
    obtain ⟨hd, b, hb, h⟩ := hx
    have hfj := h j
    by_cases hj : j = i
    · subst hj
      rw [L.get_set] at hfj
      rw [hi, fills_cons]
      exact ⟨hd, b, hb, hfj⟩
    · rw [L.get_set_of_ne hj] at hfj
      rwa [hne j hj]

theorem takeMembers_eq_some_iff {d d' : σ} {ms : List (List Piece × Value)} :
    L.takeMembers d ms = some d' ↔
      KeysDecode ms ∧ ∀ i, Fills (L.meaning i) (given (L.name i) ms) (L.get i d) (L.get i d') := by
  induction ms generalizing d with
  | nil =>
    have hg : ∀ i, given (L.name i) [] = [] := fun _ => rfl
    simp [takeMembers, L.forall_fills_nil hg, keysDecode_nil]
  | cons m ms ih =>
    obtain ⟨k, v⟩ := m
    have hstep : L.takeMembers d ((k, v) :: ms) = (L.take d (k, v)).bind fun e => L.takeMembers e ms := by
      rw [takeMembers, List.foldlM_cons]
      rfl
    have hkeys : KeysDecode ((k, v) :: ms) ↔ (∃ cs, Decodes k cs) ∧ KeysDecode ms := by
      simp [KeysDecode]
    rw [hstep, hkeys]
    by_cases hk : ∃ i, Decodes k (L.name i).toList
    · obtain ⟨i, hi⟩ := hk
      -- the fields other than `i` do not see this member
      have hne : ∀ j, j ≠ i → given (L.name j) ((k, v) :: ms) = given (L.name j) ms := fun j hj =>
        given_cons_of_not fun hj' => hj (L.name_inj (String.toList_injective (decodes_inj hj' hi)))
      have hself : given (L.name i) ((k, v) :: ms) = v :: given (L.name i) ms := given_cons_of_decodes hi
      rw [Option.bind_eq_some_iff, L.forall_fills_cons hself hne]
      constructor
      · intro hx
        obtain ⟨e, he, hms⟩ := hx
        obtain ⟨hd, b, hb, rfl⟩ := (L.take_known hi).1 he
        obtain ⟨hkd, hf⟩ := ih.1 hms
        exact ⟨⟨⟨_, hi⟩, hkd⟩, hd, b, hb, hf⟩
      · intro hx
        obtain ⟨⟨-, hkd⟩, hd, b, hb, hf⟩ := hx
        exact ⟨_, (L.take_known hi).2 ⟨hd, b, hb, rfl⟩, ih.2 ⟨hkd, hf⟩⟩
    · have hne : ∀ j, given (L.name j) ((k, v) :: ms) = given (L.name j) ms := fun j =>
        given_cons_of_not fun hj => hk ⟨j, hj⟩
      simp only [hne]
      by_cases hc : ∃ cs, Decodes k cs
      · obtain ⟨cs, hcs⟩ := hc
        rw [L.take_unknown hcs (fun i hi => hk ⟨i, hi ▸ hcs⟩), Option.bind_some, ih]
        simp only [show ∃ cs, Decodes k cs from ⟨cs, hcs⟩, true_and]
      · have hn : decode? k = none := by
          cases h : decode? k with
          | none => rfl
          | some cs => exact absurd ⟨cs, decode?_eq_some_iff.1 h⟩ hc
        simp [take, hn, hc]

/-! ## Elements -/

variable [DecidableEq ι]

theorem placed_nil (i : ι) (is : List ι) : placed i is [] = [] := by simp [placed]

theorem placed_self (i : ι) (is : List ι) (v : Value) (vs : List Value) :
    placed i (i :: is) (v :: vs) = v :: placed i is vs := by
  simp [placed]

theorem placed_of_ne {i j : ι} (h : j ≠ i) (is : List ι) (v : Value) (vs : List Value) :
    placed j (i :: is) (v :: vs) = placed j is vs := by
  simp [placed, h.symm]

theorem takeElements_eq_some_iff {is : List ι} {d d' : σ} {vs : List Value} (hn : is.Nodup)
    (hd : ∀ i ∈ is, L.get i d = none) :
    L.takeElements is d vs = some d' ↔
      vs.length ≤ is.length ∧ ∀ i, Fills (L.meaning i) (placed i is vs) (L.get i d) (L.get i d') := by
  induction is generalizing d vs with
  | nil =>
    cases vs with
    | nil => simp [takeElements, L.forall_fills_nil (placed_nil · [])]
    | cons v vs => simp [takeElements]
  | cons i is ih =>
    cases vs with
    | nil => simp [takeElements, L.forall_fills_nil (placed_nil · (i :: is))]
    | cons v vs =>
      obtain ⟨hi, hn⟩ := List.nodup_cons.1 hn
      have hset : ∀ b, ∀ j ∈ is, L.get j (L.set i d b) = none := fun b j hj => by
        have hji : j ≠ i := fun h => hi (h ▸ hj)
        rw [L.get_set_of_ne hji]
        exact hd j (List.mem_cons_of_mem i hj)
      rw [takeElements, Option.bind_eq_some_iff,
        L.forall_fills_cons (placed_self i is v vs) fun j hj => placed_of_ne hj is v vs]
      constructor
      · intro hx
        obtain ⟨b, hb, hvs⟩ := hx
        obtain ⟨hlen, hf⟩ := (ih hn (hset b)).1 hvs
        exact ⟨by simpa using hlen, hd i (by simp), b, hb, hf⟩
      · intro hx
        obtain ⟨hlen, -, b, hb, hf⟩ := hx
        exact ⟨b, hb, (ih hn (hset b)).2 ⟨by simpa using hlen, hf⟩⟩

/-! ## Drafts -/

/-- The values that a value has for a field, if it is an object or a list of the fields in order. -/
inductive Offers : Value → (ι → List Value) → Prop where
  | object {ms : List (List Piece × Value)} : KeysDecode ms → Offers (.object ms) fun i => given (L.name i) ms
  | list {vs : List Value} : vs.length ≤ L.order.length → Offers (.list vs) fun i => placed i L.order vs

/-- **Filling a draft.** A new draft is filled by what a value offers to each field. -/
theorem draft?_eq_some_iff {d d' : σ} {v : Value} (hd : ∀ i, L.get i d = none) :
    L.draft? d v = some d' ↔ ∃ vals, L.Offers v vals ∧ ∀ i, Fills (L.meaning i) (vals i) none (L.get i d') := by
  have hfill : ∀ vals : ι → List Value, (∀ i, Fills (L.meaning i) (vals i) (L.get i d) (L.get i d')) ↔
      ∀ i, Fills (L.meaning i) (vals i) none (L.get i d') := fun vals => by simp only [hd]
  cases v with
  | object ms =>
    rw [draft?, takeMembers_eq_some_iff, hfill]
    constructor
    · intro h
      exact ⟨_, .object h.1, h.2⟩
    · intro h
      obtain ⟨vals, hv, hf⟩ := h
      cases hv with
      | object hk => exact ⟨hk, hf⟩
  | list vs =>
    rw [draft?, L.takeElements_eq_some_iff L.nodup_order fun i _ => hd i, hfill]
    constructor
    · intro h
      exact ⟨_, .list h.1, h.2⟩
    · intro h
      obtain ⟨vals, hv, hf⟩ := h
      cases hv with
      | list hl => exact ⟨hl, hf⟩
  | _ =>
    constructor
    · intro h
      cases h
    · intro h
      obtain ⟨vals, hv, -⟩ := h
      cases hv

end Layout

end Preconditions.Json
