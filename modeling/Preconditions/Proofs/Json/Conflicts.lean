import Preconditions.Proofs.Json.TruncatedRecords

/-!
# Conflicting and missing members

The members of an object are taken one after another. A key that was given before ends the reading at once, whatever
comes after it; what is missing is found at the closing brace. So the fault is the same for every order of the members
and for all members with other names.
-/

namespace Preconditions.Json

abbrev Schema := List (String × (Value → Prop))

structure Orderly (fields : Schema) (ms : List (List Piece × Value)) : Prop where
  keys : KeysDecode ms
  once : ∀ field ∈ fields, (given field.1 ms).length ≤ 1
  typed : ∀ field ∈ fields, ∀ v ∈ given field.1 ms, field.2 v

/-- The beginning of an object: members, and one more key. The quote that closes it is the last character. -/
inductive Opened (ms : List (List Piece × Value)) (k : List Piece) : List Char → Prop where
  | mk {b w g x : List Char} : Blank b → Members true ms w → Gap ms.isEmpty g → TextSpelled k x →
      Opened ms k (b ++ '{' :: w ++ g ++ '"' :: x ++ ['"'])

/-- The text is refused with this wording, which is followed by the place alone. -/
def Refused {α : Type} (x : Except Refusal α) (category : Category) (wording : String) : Prop :=
  ∃ e : Refusal, x = .error e ∧ e.cause.category = category ∧
    e.message = wording ++ " at line " ++ toString e.position.line ++ " column " ++ toString e.position.column

structure BlamesRepeats {α : Type} (decode : String → Except Refusal α) (fields : Schema) : Prop where
  repeated : ∀ {ms k s field}, Opened ms k s → Orderly fields ms → field ∈ fields → Decodes k field.1.toList →
    given field.1 ms ≠ [] → ∀ rest, Refused (decode (String.ofList (s ++ rest))) .mismatched
      ("duplicate field `" ++ field.1 ++ "`")
  orderly : ∀ {text ms a}, Document (.object ms) text.toList → decode text = .ok a → Orderly fields ms

theorem orderly_nil (fields : Schema) : Orderly fields [] where
  keys := keysDecode_nil
  once _ _ := Nat.zero_le 1
  typed _ _ _ hv := nomatch hv

/-! ## Refusals -/

theorem refused_cause {α : Type} {x : Except Refusal α} {e : Refusal} (h : x = .error e) :
    Refused x e.cause.category e.cause.message :=
  ⟨e, h, rfl, rfl⟩

theorem message_duplicateField (name : String) :
    (Cause.duplicateField name).message = "duplicate field `" ++ name ++ "`" := by
  have hword : "duplicate field " ++ "`" = "duplicate field `" := by decide
  show "duplicate field " ++ Cause.ticked name = _
  rw [Cause.ticked, ← String.append_assoc, ← String.append_assoc, hword]

theorem message_missingField (name : String) :
    (Cause.missingField name).message = "missing field `" ++ name ++ "`" := by
  have hword : "missing field " ++ "`" = "missing field `" := by decide
  show "missing field " ++ Cause.ticked name = _
  rw [Cause.ticked, ← String.append_assoc, ← String.append_assoc, hword]

section
variable {α : Type} {r : Reader α} {s : List Char} {rest : List Char} {name : String}

theorem decode_of_run {f : Fault} (h : r.run s = .error f) :
    r.decode (String.ofList s) = .error (f.refusal (String.ofList s)) := by
  simp only [Reader.decode, Reader.document, String.toList_ofList, h]

theorem refused_repeat (h : r.run s = .error (.here (.duplicateField name) rest)) :
    Refused (r.decode (String.ofList s)) .mismatched ("duplicate field `" ++ name ++ "`") := by
  rw [← message_duplicateField]
  exact refused_cause (decode_of_run h)

theorem refused_missing (h : r.run s = .error (.here (.missingField name) rest)) :
    Refused (r.decode (String.ofList s)) .mismatched ("missing field `" ++ name ++ "`") := by
  rw [← message_missingField]
  exact refused_cause (decode_of_run h)

end

/-! ## Through the members -/

theorem gap_of_blank {isFirst : Bool} {b g : List Char} (hb : Blank b) (hg : Gap isFirst g) :
    Gap isFirst (b ++ g) := by
  cases hg with
  | first h => exact .first (blank_append hb h)
  | next h h' =>
    rw [← List.append_assoc]
    exact .next (blank_append hb h) h'

theorem Fills.isSome_iff {β : Type} {m : Value → Option β} {vs : List Value} {x : Option β}
    (h : Fills m vs Option.none x) : x.isSome = true ↔ vs ≠ [] := by
  cases h with
  | none => simp
  | one _ => simp

theorem Fills.length_le {β : Type} {m : Value → Option β} {vs : List Value} {b x : Option β} (h : Fills m vs b x) :
    vs.length ≤ 1 := by
  cases h with
  | none => exact Nat.zero_le 1
  | one _ => exact Nat.le_refl 1

namespace Layout
variable {σ ι α : Type} {β : ι → Type} (L : Layout σ ι β) {f : RecordFormat σ α}

structure Follows (fields : Schema) : Prop where
  named : fields.map (·.1) = L.order.map L.name
  meant : ∀ field ∈ fields, ∃ i, L.name i = field.1 ∧ ∀ v, field.2 v ↔ ∃ b, L.meaning i v = some b

theorem Follows.exists_field {fields : Schema} (h : L.Follows fields) (i : ι) :
    ∃ field ∈ fields, field.1 = L.name i ∧ ∀ v, field.2 v ↔ ∃ b, L.meaning i v = some b := by
  have hmem : L.name i ∈ fields.map (·.1) := by
    rw [h.named]
    exact List.mem_map_of_mem (L.mem_order i)
  obtain ⟨field, hfield, hname⟩ := List.mem_map.1 hmem
  obtain ⟨j, hj, hmeant⟩ := h.meant field hfield
  obtain rfl : j = i := L.name_inj (hj.trans hname)
  exact ⟨field, hfield, hname, hmeant⟩

theorem exists_takeMembers {ms : List (List Piece × Value)} {d : σ} (hkeys : KeysDecode ms)
    (htyped : ∀ i, ∀ v ∈ given (L.name i) ms, ∃ b, L.meaning i v = some b)
    (honce : ∀ i, (given (L.name i) ms).length + (L.get i d).toList.length ≤ 1) :
    ∃ d', L.takeMembers d ms = some d' := by
  induction ms generalizing d with
  | nil => exact ⟨d, rfl⟩
  | cons m ms ih =>
    obtain ⟨k, v⟩ := m
    obtain ⟨hk, hkeys⟩ := List.forall_mem_cons.1 hkeys
    by_cases hknown : ∃ i, Decodes k (L.name i).toList
    · obtain ⟨i, hi⟩ := hknown
      have hself : given (L.name i) ((k, v) :: ms) = v :: given (L.name i) ms := given_cons_of_decodes hi
      have hother : ∀ j, j ≠ i → given (L.name j) ((k, v) :: ms) = given (L.name j) ms := fun j hj =>
        given_cons_of_not fun hj' => hj (L.name_inj (String.toList_injective (decodes_inj hj' hi)))
      have hroom := honce i
      rw [hself, List.length_cons] at hroom
      have hempty : L.get i d = none := by
        cases hd : L.get i d with
        | none => rfl
        | some b => simp [hd] at hroom
      have hlast : given (L.name i) ms = [] := List.eq_nil_of_length_eq_zero (by omega)
      obtain ⟨b, hb⟩ := htyped i v (hself ▸ List.mem_cons_self)
      have htyped' : ∀ j, ∀ u ∈ given (L.name j) ms, ∃ b, L.meaning j u = some b := by
        intro j u hu
        by_cases hj : j = i
        · subst hj
          rw [hlast] at hu
          cases hu
        · exact htyped j u (hother j hj ▸ hu)
      have honce' : ∀ j, (given (L.name j) ms).length + (L.get j (L.set i d b)).toList.length ≤ 1 := by
        intro j
        by_cases hj : j = i
        · subst hj
          simp [hlast, L.get_set]
        · rw [L.get_set_of_ne hj, ← hother j hj]
          exact honce j
      obtain ⟨d', hd'⟩ := ih hkeys htyped' honce'
      refine ⟨d', ?_⟩
      rw [takeMembers, List.foldlM_cons, (L.take_known hi).2 ⟨hempty, b, hb, rfl⟩]
      exact hd'
    · have hother : ∀ j, given (L.name j) ((k, v) :: ms) = given (L.name j) ms := fun j =>
        given_cons_of_not fun hj => hknown ⟨j, hj⟩
      simp only [hother] at htyped honce
      obtain ⟨cs, hcs⟩ := hk
      obtain ⟨d', hd'⟩ := ih hkeys htyped honce
      refine ⟨d', ?_⟩
      rw [takeMembers, List.foldlM_cons, L.take_unknown hcs fun i hi => hknown ⟨i, hi ▸ hcs⟩]
      exact hd'

theorem orderly_iff {fields : Schema} (hfields : L.Follows fields) {d : σ} (hnew : ∀ i, L.get i d = none)
    {ms : List (List Piece × Value)} : Orderly fields ms ↔ ∃ d', L.takeMembers d ms = some d' := by
  constructor
  · intro h
    apply L.exists_takeMembers h.keys
    · intro i v hv
      obtain ⟨field, hmem, hname, hmeant⟩ := hfields.exists_field L i
      exact (hmeant v).1 (h.typed field hmem v (hname ▸ hv))
    · intro i
      obtain ⟨field, hmem, hname, -⟩ := hfields.exists_field L i
      have honce := h.once field hmem
      rw [hname] at honce
      simpa [hnew i] using honce
  · intro hx
    obtain ⟨d', hd'⟩ := hx
    obtain ⟨hkeys, hfill⟩ := L.takeMembers_eq_some_iff.1 hd'
    refine ⟨hkeys, fun field hmem => ?_, fun field hmem v hv => ?_⟩
    · obtain ⟨i, hi, -⟩ := hfields.meant field hmem
      exact hi ▸ (hfill i).length_le
    · obtain ⟨i, hi, hmeant⟩ := hfields.meant field hmem
      exact (hmeant v).2 ((hfill i).meaning_of_mem (hi ▸ hv))

theorem isSome_get_iff {d d' : σ} (hnew : ∀ i, L.get i d = none) {ms : List (List Piece × Value)}
    (hd : L.takeMembers d ms = some d') (i : ι) : (L.get i d').isSome = true ↔ given (L.name i) ms ≠ [] := by
  have hfill := (L.takeMembers_eq_some_iff.1 hd).2 i
  rw [hnew i] at hfill
  exact hfill.isSome_iff

variable (hf : f.fields = L.order.map L.field)
include hf

theorem members_closed {ms : List (List Piece × Value)} {w : List Char} {d d' : σ} (hw : Members true ms w)
    (hd : L.takeMembers d ms = some d') {name : String} (hfin : f.finish d' = .error name) (t : List Char) :
    f.members true d (w ++ '}' :: t) = .error (.here (.missingField name) t) := by
  obtain ⟨b, hb, h⟩ := L.members_append hf hw hd (s := '}' :: t) fun _ => stops_cons rfl (by decide)
  rw [h, f.members_eq, nextMember_close _ hb]
  simp [Reading.andThen, hfin]

theorem read_missing {ms : List (List Piece × Value)} {b w : List Char} (hb : Blank b) (hw : Spells (.object ms) w)
    {d : σ} (hd : L.takeMembers f.draft ms = some d) {name : String} (hfin : f.finish d = .error name)
    (t : List Char) : f.reader.run (b ++ w ++ t) = .error (.here (.missingField name) t) := by
  have hs := hw.skipBlanks_eq hb t
  rcases hw with _ | _ | _ | _ | _ | _ | hw
  simp only [RecordFormat.reader, RecordFormat.read, hs]
  simpa using L.members_closed hf hw hd hfin t

theorem read_opened {ms : List (List Piece × Value)} {k : List Piece} {s : List Char} (ho : Opened ms k s) {d : σ}
    (hd : L.takeMembers f.draft ms = some d) (rest : List Char) :
    ∃ x, TextSpelled k x ∧ f.reader.run (s ++ rest) =
      (f.member d (x ++ '"' :: rest)).andThen fun e u => f.members false e u := by
  obtain ⟨hb, hw, hg, hx⟩ := ho
  rename_i b w g x
  have hstops : ms ≠ [] → Stops (g ++ '"' :: (x ++ '"' :: rest)) := by
    intro hne
    rw [List.isEmpty_eq_false_iff.2 hne] at hg
    exact hg.stops _
  obtain ⟨b', hb', h⟩ := L.members_append hf hw hd hstops
  have hassoc : b ++ '{' :: w ++ g ++ '"' :: x ++ ['"'] ++ rest =
      b ++ '{' :: (w ++ (g ++ '"' :: (x ++ '"' :: rest))) := by simp
  refine ⟨x, hx, ?_⟩
  simp only [RecordFormat.reader, RecordFormat.read, hassoc, skipBlanks_append_cons hb (c := '{') rfl, h]
  rw [f.members_eq, ← List.append_assoc, Bool.true_and, nextMember_key (gap_of_blank hb' hg)]
  rfl

theorem member_key {i : ι} {k : List Piece} {x : List Char} (hx : TextSpelled k x)
    (hk : Decodes k (L.name i).toList) (d : σ) (rest : List Char) :
    f.member d (x ++ '"' :: rest) =
      if (L.get i d).isSome then .error (.here (.duplicateField (L.name i)) (pastBrace rest))
      else (colon rest).andThen fun _ t => ((L.field i).reader.run t).andThen fun change u => .ok (change d, u) := by
  have hbody := textBody_complete hx (decode?_eq_some_iff.2 hk) rest
  rw [RecordFormat.member, hbody]
  simp only [Reading.andThen, L.field?_eq hf, L.find?_eq_some_iff.2 rfl, Option.map_some]
  rfl

theorem read_repeat {ms : List (List Piece × Value)} {k : List Piece} {s : List Char} (ho : Opened ms k s) {d : σ}
    (hd : L.takeMembers f.draft ms = some d) {i : ι} (hk : Decodes k (L.name i).toList)
    (hgiven : (L.get i d).isSome = true) (rest : List Char) :
    f.reader.run (s ++ rest) = .error (.here (.duplicateField (L.name i)) (pastBrace rest)) := by
  obtain ⟨x, hx, h⟩ := L.read_opened hf ho hd rest
  rw [h, L.member_key hf hx hk, if_pos hgiven]
  rfl

theorem read_inner {ms : List (List Piece × Value)} {k : List Piece} {s : List Char} (ho : Opened ms k s) {d : σ}
    (hd : L.takeMembers f.draft ms = some d) {i : ι} (hk : Decodes k (L.name i).toList)
    (hnew : L.get i d = none) {b : List Char} (hb : Blank b) {rest : List Char} {e : Fault}
    (he : (L.reader i).run rest = .error e) : f.reader.run (s ++ (b ++ ':' :: rest)) = .error e := by
  obtain ⟨x, hx, h⟩ := L.read_opened hf ho hd (b ++ ':' :: rest)
  have hread : (L.field i).reader.run rest = .error e := by
    show ((L.reader i).run rest).andThen _ = _
    rw [he]
    rfl
  rw [h, L.member_key hf hx hk, hnew, colon_complete hb]
  simp only [Reading.andThen, hread]
  rfl

theorem blamesRepeats {fields : Schema} (hfields : L.Follows fields) (hnew : ∀ i, L.get i f.draft = none) :
    BlamesRepeats f.reader.decode fields where
  repeated := by
    intro ms k s field ho hms hmem hk hgiven rest
    obtain ⟨d, hd⟩ := (L.orderly_iff hfields hnew).1 hms
    obtain ⟨i, hi, -⟩ := hfields.meant field hmem
    rw [← hi] at hk hgiven ⊢
    exact refused_repeat (L.read_repeat hf ho hd hk ((L.isSome_get_iff hnew hd i).2 hgiven) rest)
  orderly := by
    intro text ms a hdoc ha
    obtain ⟨v, hv, hm⟩ := (L.reads_record hf).decode_eq_ok_iff.1 ha
    obtain rfl := hv.unique hdoc
    obtain ⟨d, hd, -⟩ := Option.bind_eq_some_iff.1 hm
    exact (L.orderly_iff hfields hnew).2 ⟨d, hd⟩

end Layout

end Preconditions.Json
