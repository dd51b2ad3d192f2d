import Phrasebook.Proofs.Pattern.Pieces

/-!
Where a text stands and how deep reading may go decides about errors only: what is read of it is the
same everywhere. So the parts of a text are also read in front of another text.
-/

namespace Phrasebook

namespace Text

theorem mem_of_mem_placed {start : Nat} {parts : List Text} {q : Nat × Text}
    (h : q ∈ placed start parts) : q.2 ∈ parts := by
  induction parts generalizing start with
  | nil => cases h
  | cons p ps ih =>
    rcases List.mem_cons.1 h with rfl | h
    · exact List.mem_cons_self
    · exact List.mem_cons_of_mem p (ih h)

end Text

namespace Pattern

theorem mark?_ok_of_ok {i : Nat} {t : Text} {found : Option (Int32 × Text)}
    (h : mark? i t = .ok found) (j : Nat) : mark? j t = .ok found := by
  cases found with
  | none => exact mark?_eq_ok_none_iff.2 (mark?_eq_ok_none_iff.1 h)
  | some found => exact mark?_eq_ok_some_iff.2 (mark?_eq_ok_some_iff.1 h)

variable [RegexEngine] {types : TypeNames} {read read' : Reader}

/-- What one reader reads of texts shorter than `n`, the other reads of them wherever they stand. -/
def AgreeBelow (n : Nat) (read read' : Reader) : Prop :=
  ∀ base s p, s.length < n → read base s = .ok p → ∀ base', read' base' s = .ok p

section

variable {n : Nat} (hread : AgreeBelow n read read')

include hread

theorem branch_ok_of_ok {i : Nat} {t : Text} {b : Int32 × Pattern} (h : branch read i t = .ok b)
    (hn : t.length < n) (j : Nat) : branch read' j t = .ok b := by
  unfold branch at h ⊢
  obtain ⟨found, hmark, h⟩ := ok_of_bind h
  rw [mark?_ok_of_ok hmark j]
  cases found with
  | none =>
    obtain ⟨p, hp, h⟩ := ok_of_bind h
    cases h
    simp only [bind, Except.bind, hread _ t p hn hp]
    rfl
  | some found =>
    obtain ⟨m, rest⟩ := found
    obtain ⟨p, hp, h⟩ := ok_of_bind h
    cases h
    obtain ⟨digits, -, -, -, rfl, -⟩ := mark?_eq_ok_some_iff.1 hmark
    rw [List.length_append, List.length_cons] at hn
    simp only [bind, Except.bind, hread _ rest p (by omega) hp]
    rfl

theorem branches_ok_of_ok {base : Nat} {t : Text} {p : Pattern}
    (h : branches read base t.splitBars = .ok p) (hn : ∀ q ∈ Text.barParts 0 t, q.length < n)
    (base' : Nat) : branches read' base' t.splitBars = .ok p := by
  unfold branches at h ⊢
  obtain ⟨bs, hbs, h⟩ := ok_of_bind h
  have hall : (t.splitBars.mapM fun q => branch read' (base' + q.1) q.2) = .ok bs :=
    mapM_ok_of_ok (fun q hq b hb => branch_ok_of_ok hread hb
      (hn q.2 (Text.mem_of_mem_placed hq)) (base' + q.1)) hbs
  simp only [hall]
  exact h

theorem optionalInside_ok_of_ok {base : Nat} {t : Text} {p : Pattern}
    (h : optionalInside read base t = .ok p) (hn : t.length < n) (base' : Nat) :
    optionalInside read' base' t = .ok p := by
  by_cases hlength : t.splitBars.length = 1
  · rw [optionalInside_eq_branch hlength] at h ⊢
    cases hb : branch read base t with
    | error e =>
      rw [hb] at h
      cases h
    | ok b =>
      obtain ⟨found, hmark, -⟩ := ok_of_bind hb
      rw [hb, hmark] at h
      rw [branch_ok_of_ok hread hb hn base', mark?_ok_of_ok hmark base']
      exact h
  · rw [optionalInside, if_neg hlength] at h ⊢
    exact hread base t p hn h base'

theorem Piece.of_agree {i : Nat} {t : Text} {p : Pattern} (h : Piece types read i t p)
    (hn : t.length ≤ n) (j : Nat) : Piece types read' j t p := by
  cases h with
  | @optional inside p back inner =>
    simp only [List.cons_append, List.length_cons, List.length_append] at hn
    exact .optional back (optionalInside_ok_of_ok hread inner (by omega) (j + 1))
  | @choice inside p back inner =>
    simp only [List.cons_append, List.length_cons, List.length_append] at hn
    refine .choice back (branches_ok_of_ok hread inner (fun q hq => ?_) (j + 1))
    have := Text.length_le_of_mem_barParts hq
    have := List.length_pos_of_mem hq
    omega
  | regex back => exact .regex back
  | slot slot => exact .slot slot

/-- The parts of a text are read in front of another text, if that is read behind whatever plain
text. -/
theorem parts_append {fuel i : Nat} {plain t : Text} {ps : List Pattern}
    (h : parts types read fuel i plain t = .ok ps) (hf : t.length ≤ fuel) (hn : t.length ≤ n)
    {rest : Text} {qs : List Pattern} {m : Nat}
    (hrest : ∀ f j plain, m ≤ f → parts types read' f j plain rest = .ok (flush plain qs)) (f j : Nat)
    (hm : t.length + m ≤ f) : parts types read' f j plain (t ++ rest) = .ok (ps ++ qs) := by
  have hflush (plain : Text) (ps : List Pattern) : flush plain ps ++ qs = flush plain (ps ++ qs) := by
    unfold flush
    split <;> simp
  induction fuel generalizing i plain t ps f j with
  | zero =>
    obtain rfl : t = [] := List.eq_nil_of_length_eq_zero (by omega)
    cases h
    rw [hflush]
    exact hrest f j plain (by omega)
  | succ fuel ih =>
    cases taken_of_parts h with
    | nil =>
      rw [hflush]
      exact hrest f j plain (by omega)
    | @piece front back q ps piece more =>
      have hlength := piece.length_pos
      rw [List.length_append] at hf hn hm
      obtain ⟨f, rfl⟩ : ∃ g, f = g + 1 := ⟨f - 1, by omega⟩
      rw [List.append_assoc, hflush, List.cons_append]
      exact parts_of_taken (.piece (piece.of_agree hread (by omega) j)
        (ih more (by omega) (by omega) f _ (by omega)))
    | @escape c back ps more =>
      rw [List.length_cons, List.length_cons] at hf hn hm
      obtain ⟨f, rfl⟩ : ∃ g, f = g + 1 := ⟨f - 1, by omega⟩
      exact parts_of_taken (.escape (ih more (by omega) (by omega) f _ (by omega)))
    | @plain c back ps hc more =>
      rw [List.length_cons] at hf hn hm
      obtain ⟨f, rfl⟩ : ∃ g, f = g + 1 := ⟨f - 1, by omega⟩
      exact parts_of_taken (.plain hc (ih more (by omega) (by omega) f _ (by omega)))

theorem parts_ok_of_ok {fuel i : Nat} {plain t : Text} {ps : List Pattern}
    (h : parts types read fuel i plain t = .ok ps) (hf : t.length ≤ fuel) (hn : t.length ≤ n)
    (f j : Nat) (hm : t.length ≤ f) : parts types read' f j plain t = .ok ps := by
  have hrest (f j : Nat) (plain : Text) (_ : 0 ≤ f) :
      parts types read' f j plain [] = .ok (flush plain []) := parts_nil f j plain
  have := parts_append hread h hf hn hrest f j hm
  rwa [List.append_nil, List.append_nil] at this

end

/-- What is read of a text does not depend on where it stands and how deep reading may go. -/
theorem readWithin_ok_of_ok {n base : Nat} {t : Text} {p : Pattern}
    (h : readWithin types n base t = .ok p) (hn : t.length < n) {m : Nat} (hm : t.length < m)
    (base' : Nat) : readWithin types m base' t = .ok p := by
  induction n generalizing base t p m base' with
  | zero => omega
  | succ n ih =>
    obtain ⟨m, rfl⟩ : ∃ k, m = k + 1 := ⟨m - 1, by omega⟩
    have hread : AgreeBelow t.length (readWithin types n) (readWithin types m) :=
      fun base s p hs hp base' => ih hp (by omega) (by omega) base'
    rw [readWithin] at h ⊢
    split at h
    · rename_i hlong
      rw [if_pos hlong]
      refine branches_ok_of_ok hread h (fun q hq => ?_) base'
      have := Text.length_le_of_mem_barParts hq
      rw [Text.length_splitBars] at hlong
      omega
    · rename_i hshort
      rw [if_neg hshort]
      obtain ⟨ps, hps, h⟩ := ok_of_bind h
      rw [parts_ok_of_ok hread hps (Nat.le_refl _) (Nat.le_refl _) t.length base' (Nat.le_refl _)]
      exact h

theorem agreeBelow_readWithin {k n m : Nat} (hn : k ≤ n) (hm : k ≤ m) :
    AgreeBelow k (readWithin types n) (readWithin types m) :=
  fun _ _ _ hs h base' => readWithin_ok_of_ok h (by omega) (by omega) base'

end Pattern

end Phrasebook
