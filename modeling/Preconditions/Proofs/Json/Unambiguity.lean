import Preconditions.Proofs.Json.Records

/-!
# A text spells one value

The grammar is unambiguous. Where a scanner already decides how a text goes on, it is run on both readings of the
text: it has one result.
-/

namespace Preconditions.Json

/-! ## Text literals -/

theorem not_mem_escapeLetters (c : Char) : ('u', c) ∉ escapeLetters := by
  rw [← shortEscape?_eq_some_iff]
  exact fun h => nomatch h

theorem Piece.Spelled.unique {p q : Piece} {x y s t : List Char} (hp : p.Spelled x) (hq : q.Spelled y)
    (h : x ++ s = y ++ t) : p = q ∧ s = t := by
  cases hp with
  | plain _ _ hb =>
    cases hq with
    | plain _ _ _ =>
      cases h
      exact ⟨rfl, rfl⟩
    | _ =>
      cases h
      exact absurd rfl hb
  | letter he =>
    cases hq with
    | plain _ _ hb =>
      cases h
      exact absurd rfl hb
    | letter he' =>
      cases h
      have hc := shortEscape?_eq_some_iff.2 he
      rw [shortEscape?_eq_some_iff.2 he'] at hc
      cases hc
      exact ⟨rfl, rfl⟩
    | hexadecimal _ =>
      cases h
      exact absurd he (not_mem_escapeLetters _)
  | hexadecimal hu =>
    cases hq with
    | plain _ _ hb =>
      cases h
      exact absurd rfl hb
    | letter he =>
      cases h
      exact absurd he (not_mem_escapeLetters _)
    | hexadecimal hv =>
      cases h
      rw [hu, Option.some.injEq, UInt16.toNat_inj] at hv
      exact ⟨by rw [hv], rfl⟩

theorem Piece.Spelled.head {p : Piece} {x : List Char} (h : p.Spelled x) : ∃ c u, x = c :: u ∧ c ≠ '"' := by
  cases h with
  | plain _ hq _ => exact ⟨_, _, rfl, hq⟩
  | letter _ => exact ⟨_, _, rfl, by decide⟩
  | hexadecimal _ => exact ⟨_, _, rfl, by decide⟩

theorem TextSpelled.unique {ps qs : List Piece} {w x s t : List Char} (hp : TextSpelled ps w)
    (hq : TextSpelled qs x) (h : w ++ '"' :: s = x ++ '"' :: t) : ps = qs ∧ s = t := by
  induction hp generalizing qs x with
  | nil =>
    cases hq with
    | nil =>
      cases h
      exact ⟨rfl, rfl⟩
    | cons hy _ =>
      obtain ⟨c, u, rfl, hc⟩ := hy.head
      cases h
      exact absurd rfl hc
  | cons hx _ ih =>
    cases hq with
    | nil =>
      obtain ⟨c, u, rfl, hc⟩ := hx.head
      cases h
      exact absurd rfl hc
    | cons hy hq =>
      rw [List.append_assoc, List.append_assoc] at h
      obtain ⟨rfl, h'⟩ := hx.unique hy h
      obtain ⟨rfl, h''⟩ := ih hq h'
      exact ⟨rfl, h''⟩

/-! ## Numbers -/

theorem Literal.Spelled.unique {l m : Literal} {w x s t : List Char} (hl : l.Spelled w) (hm : m.Spelled x)
    (hs : Stops s) (ht : Stops t) (h : w ++ s = x ++ t) : l = m ∧ s = t := by
  have hr := scanLiteral_complete .endInValue hl hs
  rw [h, scanLiteral_complete .endInValue hm ht] at hr
  cases hr
  exact ⟨rfl, rfl⟩

theorem number_of_opens {l : Literal} {v : Value} {w x s t : List Char} (hl : l.Spelled w) (hv : Spells v x)
    (h : w ++ s = x ++ t) : ∃ m, v = .number m := by
  obtain ⟨c, u, rfl, hc⟩ := hl.head
  obtain ⟨d, u', rfl, hd⟩ := hv.head
  obtain rfl : c = d := (List.cons.inj h).1
  cases v with
  | number m => exact ⟨m, rfl⟩
  | boolean b => cases b <;> · rw [beq_iff_eq.1 hd] at hc; cases hc
  | _ => rw [beq_iff_eq.1 hd] at hc; cases hc

/-! ## Keys -/

theorem KeySpelled.unique {k k' : List Piece} {y y' s t : List Char} (hk : KeySpelled k ('"' :: y))
    (hk' : KeySpelled k' ('"' :: y')) (h : y ++ s = y' ++ t) :
    k = k' ∧ ∃ b b', Blank b ∧ Blank b' ∧ b ++ s = b' ++ t := by
  obtain ⟨x, b, c, hx, hb, hc, rfl⟩ := hk.split
  obtain ⟨x', b', c', hx', hb', hc', rfl⟩ := hk'.split
  have e : ∀ x b c s : List Char, x ++ '"' :: b ++ ':' :: c ++ s = x ++ '"' :: (b ++ ':' :: (c ++ s)) := by simp
  rw [e, e] at h
  obtain ⟨rfl, h'⟩ := hx.unique hx' h
  have hr := colon_complete hb (c ++ s)
  rw [h', colon_complete hb' (c' ++ t)] at hr
  simp only [Except.ok.injEq, Prod.mk.injEq, true_and] at hr
  exact ⟨rfl, c, c', hc, hc', hr.symm⟩

/-! ## Values -/

mutual

theorem Spells.unique {v v' : Value} {w w' s t : List Char} (h : Spells v w) (h' : Spells v' w')
    (hs : Stops s) (ht : Stops t) (e : w ++ s = w' ++ t) : v = v' ∧ s = t := by
  match h with
  | .nullWord =>
    cases h' with
    | nullWord => cases e; exact ⟨rfl, rfl⟩
    | number hl => obtain ⟨_, hv⟩ := number_of_opens hl .nullWord e.symm; cases hv
    | _ => cases e
  | .trueWord =>
    cases h' with
    | trueWord => cases e; exact ⟨rfl, rfl⟩
    | number hl => obtain ⟨_, hv⟩ := number_of_opens hl .trueWord e.symm; cases hv
    | _ => cases e
  | .falseWord =>
    cases h' with
    | falseWord => cases e; exact ⟨rfl, rfl⟩
    | number hl => obtain ⟨_, hv⟩ := number_of_opens hl .falseWord e.symm; cases hv
    | _ => cases e
  | .number hl =>
    obtain ⟨m, rfl⟩ := number_of_opens hl h' e
    rcases h' with _ | _ | _ | hm
    obtain ⟨rfl, rfl⟩ := hl.unique hm hs ht e
    exact ⟨rfl, rfl⟩
  | .text hw =>
    cases h' with
    | text hw' =>
      obtain ⟨rfl, rfl⟩ := hw.unique hw' (by simpa using e)
      exact ⟨rfl, rfl⟩
    | number hl => obtain ⟨_, hv⟩ := number_of_opens hl (.text hw) e.symm; cases hv
    | _ => cases e
  | .list hw =>
    cases h' with
    | list hw' =>
      obtain ⟨rfl, rfl⟩ := hw.unique hw' (by simpa using e)
      exact ⟨rfl, rfl⟩
    | number hl => obtain ⟨_, hv⟩ := number_of_opens hl (.list hw) e.symm; cases hv
    | _ => cases e
  | .object hw =>
    cases h' with
    | object hw' =>
      obtain ⟨rfl, rfl⟩ := hw.unique hw' (by simpa using e)
      exact ⟨rfl, rfl⟩
    | number hl => obtain ⟨_, hv⟩ := number_of_opens hl (.object hw) e.symm; cases hv
    | _ => cases e

theorem Elements.unique {isFirst : Bool} {vs vs' : List Value} {w w' s t : List Char}
    (h : Elements isFirst vs w) (h' : Elements isFirst vs' w') (e : w ++ ']' :: s = w' ++ ']' :: t) :
    vs = vs' ∧ s = t := by
  match h with
  | .nil hb =>
    have hn := nextElement_close isFirst hb s
    cases h' with
    | nil hb' =>
      rw [e, nextElement_close isFirst hb' t] at hn
      cases hn
      exact ⟨rfl, rfl⟩
    | @cons _ v' vs' g' x' u' hg' hv' hu' =>
      rw [e, List.append_assoc, nextElement_value hg' hv'] at hn
      cases hn
  | @Elements.cons _ v vs g x u hg hv hu =>
    have hn := nextElement_value hg hv (u ++ ']' :: s)
    rw [← List.append_assoc, e] at hn
    cases h' with
    | nil hb' =>
      rw [nextElement_close isFirst hb' t] at hn
      cases hn
    | @cons _ v' vs' g' x' u' hg' hv' hu' =>
      rw [List.append_assoc, nextElement_value hg' hv'] at hn
      simp only [Except.ok.injEq, Prod.mk.injEq, true_and] at hn
      obtain ⟨rfl, h₂⟩ := hv.unique hv' (hu.stops s) (hu'.stops t) hn.symm
      obtain ⟨rfl, rfl⟩ := hu.unique hu' h₂
      exact ⟨rfl, rfl⟩

theorem Members.unique {isFirst : Bool} {ms ms' : List (List Piece × Value)} {w w' s t : List Char}
    (h : Members isFirst ms w) (h' : Members isFirst ms' w') (e : w ++ '}' :: s = w' ++ '}' :: t) :
    ms = ms' ∧ s = t := by
  match h with
  | .nil hb =>
    have hn := nextMember_close isFirst hb s
    cases h' with
    | nil hb' =>
      rw [e, nextMember_close isFirst hb' t] at hn
      cases hn
      exact ⟨rfl, rfl⟩
    | @cons _ k' v' ms' g' y' x' u' hg' hk' hv' hu' =>
      obtain ⟨y', rfl⟩ := hk'.quoted
      rw [e, List.append_assoc, List.append_assoc, List.append_assoc, List.cons_append,
        nextMember_key hg'] at hn
      cases hn
  | @Members.cons _ k v ms g y x u hg hk hv hu =>
    obtain ⟨y, rfl⟩ := hk.quoted
    have hn := nextMember_key hg (y ++ x ++ (u ++ '}' :: s))
    have e₁ : g ++ '"' :: (y ++ x ++ (u ++ '}' :: s)) = g ++ '"' :: y ++ x ++ u ++ '}' :: s := by simp
    rw [e₁, e] at hn
    cases h' with
    | nil hb' =>
      rw [nextMember_close isFirst hb' t] at hn
      cases hn
    | @cons _ k' v' ms' g' y' x' u' hg' hk' hv' hu' =>
      obtain ⟨y', rfl⟩ := hk'.quoted
      have e₂ : g' ++ '"' :: y' ++ x' ++ u' ++ '}' :: t = g' ++ '"' :: (y' ++ x' ++ (u' ++ '}' :: t)) := by simp
      rw [e₂, nextMember_key hg'] at hn
      simp only [Except.ok.injEq, Prod.mk.injEq, true_and, List.append_assoc] at hn
      obtain ⟨rfl, b, b', hb, hb', h₂⟩ := hk.unique hk' hn.symm
      have h₃ := congrArg skipBlanks h₂
      rw [← List.append_assoc, ← List.append_assoc b', hv.skipBlanks_eq hb, hv'.skipBlanks_eq hb'] at h₃
      obtain ⟨rfl, h₄⟩ := hv.unique hv' (hu.stops s) (hu'.stops t) h₃
      obtain ⟨rfl, rfl⟩ := hu.unique hu' h₄
      exact ⟨rfl, rfl⟩

end

theorem Document.split {v : Value} {s : List Char} (h : Document v s) :
    ∃ b w c, Blank b ∧ Spells v w ∧ Blank c ∧ s = b ++ w ++ c := by
  cases h with
  | mk hb hv hc => exact ⟨_, _, _, hb, hv, hc, rfl⟩

/-- **Unambiguity.** A text is a document of one value. -/
theorem Document.unique {v v' : Value} {s : List Char} (h : Document v s) (h' : Document v' s) : v = v' := by
  obtain ⟨b, w, c, hb, hv, hc, rfl⟩ := h.split
  obtain ⟨b', w', c', hb', hv', hc', e⟩ := h'.split
  have hstops : ∀ {u : List Char}, Blank u → Stops u := fun {u} hu => by
    simpa using stops_append hu stops_nil
  have e₂ := congrArg skipBlanks e
  rw [hv.skipBlanks_eq hb, hv'.skipBlanks_eq hb'] at e₂
  exact (hv.unique hv' (hstops hc) (hstops hc') e₂).1

end Preconditions.Json
