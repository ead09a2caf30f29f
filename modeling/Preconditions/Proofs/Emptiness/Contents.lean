import Mathlib.Data.List.Nodup
import Preconditions.Proofs.Emptiness.Pointers
import Preconditions.Text.Utf8

/-!
# Emptiness by content

The built-in shapes measure themselves in different units: bytes, elements, distinct elements, distinct keys. All of
them are zero for no content at all and for nothing else, so one content gets one verdict, whatever shape it has and
however many pointers are around it.
-/

namespace Preconditions

universe u

/-! ## Distinct elements -/

section
variable {α : Type u} [BEq α]

theorem eraseDups_induction {p : List α → Prop} (nil : p [])
    (cons : ∀ a xs, p (xs.filter fun b => !b == a) → p (a :: xs)) : ∀ xs, p xs
  | [] => nil
  | a :: xs => cons a xs (eraseDups_induction nil cons _)
termination_by xs => xs.length
decreasing_by exact Nat.lt_succ_of_le (List.length_filter_le _ _)

theorem eraseDups_sublist (xs : List α) : xs.eraseDups.Sublist xs := by
  induction xs using eraseDups_induction with
  | nil => exact .slnil
  | cons a xs ih =>
    rw [List.eraseDups_cons]
    exact (ih.trans List.filter_sublist).cons_cons a

theorem eraseDups_eq_nil_iff {xs : List α} : xs.eraseDups = [] ↔ xs = [] := by
  cases xs <;> simp [List.eraseDups_cons]

variable [EquivBEq α]

theorem pairwise_eraseDups (xs : List α) : xs.eraseDups.Pairwise fun a b => (a == b) = false := by
  induction xs using eraseDups_induction with
  | nil => exact .nil
  | cons a xs ih =>
    rw [List.eraseDups_cons]
    refine .cons (fun b hb => ?_) ih
    have hba := (List.mem_filter.1 ((eraseDups_sublist _).mem hb)).2
    rw [BEq.comm]
    simpa using hba

theorem exists_mem_eraseDups {x : α} {xs : List α} (hx : x ∈ xs) : ∃ y ∈ xs.eraseDups, (x == y) = true := by
  induction xs using eraseDups_induction with
  | nil => cases hx
  | cons a xs ih =>
    rw [List.eraseDups_cons]
    by_cases hxa : (x == a) = true
    · exact ⟨a, List.mem_cons_self, hxa⟩
    · have hne : x ≠ a := fun he => hxa (he ▸ BEq.rfl)
      have hf : x ∈ xs.filter fun b => !b == a :=
        List.mem_filter.2 ⟨(List.mem_cons.1 hx).resolve_left hne, by simpa using hxa⟩
      obtain ⟨y, hy, hxy⟩ := ih hf
      exact ⟨y, List.mem_cons_of_mem a hy, hxy⟩

theorem contains_eraseDups (xs : List α) (b : α) : xs.eraseDups.contains b = xs.contains b := by
  rw [Bool.eq_iff_iff, List.contains_iff_exists_mem_beq, List.contains_iff_exists_mem_beq]
  constructor
  · intro hx
    obtain ⟨y, hy, hby⟩ := hx
    exact ⟨y, (eraseDups_sublist xs).mem hy, hby⟩
  · intro hx
    obtain ⟨x, hx, hbx⟩ := hx
    obtain ⟨y, hy, hxy⟩ := exists_mem_eraseDups hx
    exact ⟨y, hy, BEq.trans hbx hxy⟩

def equals (α : Type u) [BEq α] [EquivBEq α] : Setoid α where
  r a b := (a == b) = true
  iseqv := ⟨fun _ => BEq.rfl, BEq.symm, BEq.trans⟩

theorem nodup_classes {xs : List α} (h : xs.Pairwise fun a b => (a == b) = false) :
    (xs.map (Quotient.mk (equals α))).Nodup := by
  refine h.map _ fun a b hab he => ?_
  have heq : (a == b) = true := Quotient.exact he
  rw [hab] at heq
  cases heq

theorem mem_classes_iff {xs : List α} {a : α} :
    Quotient.mk (equals α) a ∈ xs.map (Quotient.mk (equals α)) ↔ xs.contains a = true := by
  rw [List.mem_map, List.contains_iff_exists_mem_beq]
  constructor
  · intro hx
    obtain ⟨x, hx, he⟩ := hx
    exact ⟨x, hx, BEq.symm (Quotient.exact he)⟩
  · intro hx
    obtain ⟨x, hx, he⟩ := hx
    exact ⟨x, hx, Quotient.sound (BEq.symm he)⟩

theorem length_eq_of_contains_eq {xs ys : List α} (hx : xs.Pairwise fun a b => (a == b) = false)
    (hy : ys.Pairwise fun a b => (a == b) = false) (h : ∀ a, xs.contains a = ys.contains a) :
    xs.length = ys.length := by
  have hperm : (xs.map (Quotient.mk (equals α))).Perm (ys.map (Quotient.mk (equals α))) := by
    rw [List.perm_ext_iff_of_nodup (nodup_classes hx) (nodup_classes hy)]
    intro q
    induction q using Quotient.inductionOn with
    | h a => rw [mem_classes_iff, mem_classes_iff, h a]
  simpa using hperm.length_eq

theorem length_eq_of_contains_eraseDups {xs ys : List α} (hx : xs.Pairwise fun a b => (a == b) = false)
    (h : ∀ a, xs.contains a = ys.contains a) : xs.length = ys.eraseDups.length :=
  length_eq_of_contains_eq hx (pairwise_eraseDups ys) fun a => by rw [h a, contains_eraseDups]

end

/-! ## Sets and maps -/

section
variable {α : Type u} {β : Type v} [BEq α]

theorem size_hashSet [EquivBEq α] [Hashable α] [LawfulHashable α] (xs : List α) :
    (Std.HashSet.ofList xs).size = xs.eraseDups.length := by
  rw [← Std.HashSet.length_toList]
  exact length_eq_of_contains_eraseDups Std.HashSet.distinct_toList fun a => by
    rw [Std.HashSet.contains_toList, Std.HashSet.contains_ofList]

theorem size_hashMap [EquivBEq α] [Hashable α] [LawfulHashable α] (es : List (α × β)) :
    (Std.HashMap.ofList es).size = (es.map Prod.fst).eraseDups.length := by
  rw [← Std.HashMap.length_keys]
  exact length_eq_of_contains_eraseDups Std.HashMap.distinct_keys fun a => by
    rw [Std.HashMap.contains_keys, Std.HashMap.contains_ofList]

section
variable {cmp : α → α → Ordering} [Std.TransCmp cmp] [Std.LawfulBEqCmp cmp]

theorem length_eq_of_ordered {xs ys : List α} (hx : xs.Pairwise fun a b => ¬ cmp a b = .eq)
    (h : ∀ a, xs.contains a = ys.contains a) : xs.length = ys.eraseDups.length := by
  have : EquivBEq α := @Std.LawfulBEqCmp.equivBEq α _ cmp _ _
  refine length_eq_of_contains_eraseDups (hx.imp fun hab => ?_) h
  rwa [Std.LawfulBEqCmp.compare_eq_iff_beq, Bool.not_eq_true] at hab

theorem size_treeSet (xs : List α) : (Std.TreeSet.ofList xs cmp).size = xs.eraseDups.length := by
  rw [← Std.TreeSet.length_toList]
  exact length_eq_of_ordered Std.TreeSet.distinct_toList fun a => by
    rw [Std.TreeSet.contains_toList, Std.TreeSet.contains_ofList]

theorem size_treeMap (es : List (α × β)) :
    (Std.TreeMap.ofList es cmp).size = (es.map Prod.fst).eraseDups.length := by
  rw [← Std.TreeMap.length_keys]
  exact length_eq_of_ordered Std.TreeMap.distinct_keys fun a => by
    rw [Std.TreeMap.contains_keys, Std.TreeMap.contains_ofList]

end

end

/-! ## Shapes -/

theorem size_window {α : Type u} (before content after : List α) :
    ((before ++ content ++ after).toArray.toSubarray before.length (before.length + content.length)).size =
      content.length := by
  rw [Subarray.size_eq]
  simp

/-- How a value of a built-in shape is made: its shape, and the content that it is built from. A window shows part of
what it is cut from. -/
inductive Construction : Type 1 where
  | text (content : List Char)
  | linked (α : Type) (content : List α)
  | block (α : Type) (content : List α)
  | window (α : Type) (before content after : List α)
  | fixed (α : Type) (content : List α)
  | heap (α : Type) [Ord α] (content : List α)
  | hashSet (α : Type) [BEq α] [EquivBEq α] [Hashable α] [LawfulHashable α] (content : List α)
  | treeSet (α : Type) [BEq α] (cmp : α → α → Ordering) [Std.TransCmp cmp] [Std.LawfulBEqCmp cmp]
      (content : List α)
  | hashMap (α β : Type) [BEq α] [EquivBEq α] [Hashable α] [LawfulHashable α] (content : List (α × β))
  | treeMap (α β : Type) [BEq α] (cmp : α → α → Ordering) [Std.TransCmp cmp] [Std.LawfulBEqCmp cmp]
      (content : List (α × β))

namespace Construction

def Element : Construction → Type
  | text _ => Char
  | linked α _ | block α _ | window α .. | fixed α _ | heap α _ | hashSet α _ | treeSet α .. => α
  | hashMap α β _ | treeMap α β .. => α × β

def content : (c : Construction) → List c.Element
  | text content | linked _ content | block _ content | window _ _ content _ | fixed _ content
  | heap _ content | hashSet _ content | treeSet _ _ content | hashMap _ _ content | treeMap _ _ _ content => content

def Carrier : Construction → Type
  | text _ => String
  | linked α _ => List α
  | block α _ => Array α
  | window α .. => Subarray α
  | fixed α content => Vector α content.length
  | heap α _ => PriorityQueue α
  | hashSet α _ => Std.HashSet α
  | treeSet α cmp _ => Std.TreeSet α cmp
  | hashMap α β _ => Std.HashMap α β
  | treeMap α β cmp _ => Std.TreeMap α β cmp

instance emptiness : (c : Construction) → Emptiness c.Carrier
  | text _ => inferInstanceAs (Emptiness String)
  | linked α _ => inferInstanceAs (Emptiness (List α))
  | block α _ => inferInstanceAs (Emptiness (Array α))
  | window α .. => inferInstanceAs (Emptiness (Subarray α))
  | fixed α content => inferInstanceAs (Emptiness (Vector α content.length))
  | heap α _ => inferInstanceAs (Emptiness (PriorityQueue α))
  | hashSet α _ => inferInstanceAs (Emptiness (Std.HashSet α))
  | treeSet α cmp _ => inferInstanceAs (Emptiness (Std.TreeSet α cmp))
  | hashMap α β _ => inferInstanceAs (Emptiness (Std.HashMap α β))
  | treeMap α β cmp _ => inferInstanceAs (Emptiness (Std.TreeMap α β cmp))

def value : (c : Construction) → c.Carrier
  | text content => String.ofList content
  | linked _ content => content
  | block _ content => content.toArray
  | window _ before content after =>
    (before ++ content ++ after).toArray.toSubarray before.length (before.length + content.length)
  | fixed _ content => ⟨content.toArray, List.size_toArray⟩
  | heap _ content => PriorityQueue.ofList content
  | hashSet _ content => Std.HashSet.ofList content
  | treeSet _ cmp content => Std.TreeSet.ofList content cmp
  | hashMap _ _ content => Std.HashMap.ofList content
  | treeMap _ _ cmp content => Std.TreeMap.ofList content cmp

/-- What the length counts: the bytes of a text, the elements of a sequence or a queue, the distinct elements of a
set, the distinct keys of a map. -/
def count : Construction → Nat
  | text content => (Text.utf8 content).length
  | linked _ content | block _ content | window _ _ content _ | fixed _ content | heap _ content => content.length
  | hashSet _ content | treeSet _ _ content => content.eraseDups.length
  | hashMap _ _ content | treeMap _ _ _ content => (content.map Prod.fst).eraseDups.length

theorem valueLen_value (c : Construction) : valueLen c.value = c.count := by
  cases c with
  | text content =>
    have h := Text.byteCount_toList (String.ofList content)
    rw [String.toList_ofList] at h
    exact h.symm.trans (Text.length_utf8 content).symm
  | linked α content => rfl
  | block α content => exact List.size_toArray
  | window α before content after => exact size_window before content after
  | fixed α content => rfl
  | heap α content => exact PriorityQueue.length_ofList content
  | hashSet α content => exact size_hashSet content
  | treeSet α cmp content => exact size_treeSet content
  | hashMap α β content => exact size_hashMap content
  | treeMap α β cmp content => exact size_treeMap content

theorem byLength_value (c : Construction) : Emptiness.ByLength c.value := by
  have h : isEmptyValue c.value = (valueLen c.value == 0) := by cases c <;> rfl
  rw [Emptiness.ByLength, h, beq_iff_eq]

theorem length_utf8_eq_zero_iff {cs : List Char} : (Text.utf8 cs).length = 0 ↔ cs = [] := by
  rw [List.length_eq_zero_iff, Text.utf8, List.flatMap_eq_nil_iff]
  constructor
  · intro h
    exact List.eq_nil_iff_forall_not_mem.2 fun c hc => String.utf8EncodeChar_ne_nil (h c hc)
  · rintro rfl c hc
    cases hc

theorem count_eq_zero_iff (c : Construction) : c.count = 0 ↔ c.content = [] := by
  cases c with
  | text content => exact length_utf8_eq_zero_iff
  | hashSet α content | treeSet α cmp content => exact List.length_eq_zero_iff.trans eraseDups_eq_nil_iff
  | hashMap α β content | treeMap α β cmp content =>
    exact (List.length_eq_zero_iff.trans eraseDups_eq_nil_iff).trans List.map_eq_nil_iff
  | _ => exact List.length_eq_zero_iff

/-! ## Verdicts -/

open Preconditions.Pointed (wrap)

theorem isEmptyValue_iff (c : Construction) (ks : List PointerKind) :
    isEmptyValue (wrap ks c.value) = true ↔ c.content = [] := by
  have h : isEmptyValue (wrap ks c.value) = true ↔ valueLen (wrap ks c.value) = 0 :=
    Pointed.byLength_wrap_of c.byLength_value ks
  rw [h, Pointed.valueLen_wrap, valueLen_value, count_eq_zero_iff]

/-- **Emptiness by content.** A value of a built-in shape, behind any pointers, has the length that its shape counts
and is empty exactly when it was built from nothing. A check refuses it then, and else gives it back; so shapes that
are built from nothing, or from something, all get the same verdict. -/
theorem emptiness_by_content (c : Construction) (ks : List PointerKind) :
    valueLen (wrap ks c.value) = c.count ∧
    (isEmptyValue (wrap ks c.value) = true ↔ c.content = []) ∧
    ∀ name, name ≠ "" →
      (c.content ≠ [] → (Check.notEmpty name (wrap ks c.value)).result = .ok (wrap ks c.value)) ∧
      (c.content = [] → (Check.notEmpty name (wrap ks c.value)).result = .error (.emptyArgument name)) ∧
      ∀ (c' : Construction) (ks' : List PointerKind), c'.content.length = c.content.length →
        (Check.notEmpty name (wrap ks' c'.value)).result.map (fun _ => ()) =
          (Check.notEmpty name (wrap ks c.value)).result.map fun _ => () := by
  have hres : ∀ (c : Construction) ks name, name ≠ "" →
      (Check.notEmpty name (wrap ks c.value)).result =
        if c.content.length = 0 then .error (.emptyArgument name) else .ok (wrap ks c.value) := by
    intro c ks name hn
    rw [Check.result_notEmpty hn]
    simp only [isEmptyValue_iff, List.length_eq_zero_iff]
  refine ⟨(Pointed.valueLen_wrap ks _).trans c.valueLen_value, c.isEmptyValue_iff ks, fun name hn => ⟨?_, ?_, ?_⟩⟩
  · intro hc
    rw [hres c ks name hn, if_neg fun h => hc (List.length_eq_zero_iff.1 h)]
  · intro hc
    rw [hres c ks name hn, hc]
    rfl
  · intro c' ks' hl
    rw [hres c ks name hn, hres c' ks' name hn, hl]
    split <;> rfl

/-- A set drops one of two equal elements, and is not empty although the elements call themselves so; it passes as a
text of two characters does. -/
theorem emptiness_by_content_set :
    (hashSet Judged [⟨0, true⟩, ⟨0, true⟩]).content ≠ [] ∧ "gauges" ≠ "" ∧
    valueLen (wrap [.counted, .boxed] (hashSet Judged [⟨0, true⟩, ⟨0, true⟩]).value) = 1 ∧
    (Check.notEmpty "gauges" (wrap [.counted, .boxed] (hashSet Judged [⟨0, true⟩, ⟨0, true⟩]).value)).result =
      .ok (wrap [.counted, .boxed] (hashSet Judged [⟨0, true⟩, ⟨0, true⟩]).value) ∧
    (Check.notEmpty "gauges" (wrap [.borrowed] (text ['o', 'k']).value)).result.map (fun _ => ()) =
      (Check.notEmpty "gauges" (wrap [.counted, .boxed] (hashSet Judged [⟨0, true⟩, ⟨0, true⟩]).value)).result.map
        fun _ => () := by
  have hc : (hashSet Judged [⟨0, true⟩, ⟨0, true⟩]).content ≠ [] := List.cons_ne_nil _ _
  have hn : "gauges" ≠ "" := by decide
  obtain ⟨hlen, -, hverdict⟩ := emptiness_by_content (hashSet Judged [⟨0, true⟩, ⟨0, true⟩]) [.counted, .boxed]
  obtain ⟨hok, -, hsame⟩ := hverdict "gauges" hn
  exact ⟨hc, hn, hlen, hok hc, hsame (text ['o', 'k']) [.borrowed] rfl⟩

end Construction

end Preconditions
