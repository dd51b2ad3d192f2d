import Phrasebook.Proofs.Text.Case
import Phrasebook.Proofs.Text.Cursor

/-!
Texts that are the same up to case. No letter has a blank for its lower case, so such texts have their
blanks at the same positions, and a place that is searched for in both is found at the same position,
though not always at the same byte.
-/

namespace Phrasebook.Text

/-! ## Letters and blanks -/

theorem exists_of_inRanges {rs : List (Nat × Nat)} {n : Nat} (h : inRanges rs n = true) :
    ∃ r ∈ rs, r.1 ≤ n ∧ n ≤ r.2 := by
  induction rs with
  | nil => cases h
  | cons r rs ih =>
    rw [inRanges] at h
    split at h
    · cases h
    · rename_i hlo
      rcases Bool.or_eq_true_iff.1 h with h | h
      · exact ⟨r, List.mem_cons_self, Nat.le_of_not_lt hlo, of_decide_eq_true h⟩
      · obtain ⟨r, hr, hn⟩ := ih h
        exact ⟨r, List.mem_cons_of_mem _ hr, hn⟩

/-- No run starts from blanks or leads to them. -/
theorem runs_avoid_blanks : ∀ r ∈ Table.caseShared ++ Table.lowerOnly, ∀ b ∈ Table.blank,
    (r.last < b.1 ∨ b.2 < r.first) ∧ (r.last + r.shift < b.1 ∨ b.2 < r.first + r.shift) := by
  decide +kernel

theorem mapCode_eq_blank_iff {n m : Nat} (hm : inRanges Table.blank m = true) :
    mapCode (Table.caseShared ++ Table.lowerOnly) n = m ↔ n = m := by
  obtain ⟨b, hb, hlo, hhi⟩ := exists_of_inRanges hm
  unfold mapCode
  split
  · rename_i r hr
    have hcovers := List.find?_some hr
    simp only [Table.Run.covers, Bool.and_eq_true, decide_eq_true_eq] at hcovers
    obtain ⟨hstart, himage⟩ := runs_avoid_blanks r (List.mem_of_find?_eq_some hr) b hb
    have hpos : 0 < b.1 := (by decide : ∀ b ∈ Table.blank, 0 < b.1) b hb
    unfold Table.Run.apply
    omega
  · exact Iff.rfl

/-- A code that is no character stands for the null character, and that is not blank. -/
theorem ofNat_eq_blank_iff {n : Nat} {b : Char} (hb : isBlank b = true) :
    Char.ofNat n = b ↔ n = b.toNat := by
  constructor
  · rintro rfl
    by_cases hn : n.isValidChar
    · rw [Char.ofNat, dif_pos hn]
      rfl
    · rw [Char.ofNat, dif_neg hn] at hb
      exact absurd hb (by decide)
  · rintro rfl
    exact b.ofNat_toNat

theorem lower_eq_blank_iff {c b : Char} (hb : isBlank b = true) : lower c = [b] ↔ c = b := by
  unfold lower
  split
  · rename_i hc
    apply iff_of_false
    · simp
    · rintro rfl
      rw [hc] at hb
      exact absurd hb (by decide)
  · rw [List.singleton_inj, ofNat_eq_blank_iff hb, mapCode_eq_blank_iff hb, Char.toNat_inj]

/-- Letters that agree up to case are both blank or neither is. -/
theorem isBlank_eq_of_lower_eq {c d : Char} (h : lower c = lower d) : isBlank c = isBlank d := by
  have himp {c d : Char} (h : lower c = lower d) (hc : isBlank c = true) : isBlank d = true := by
    have hlower : lower c = [c] := (lower_eq_blank_iff hc).2 rfl
    obtain rfl : d = c := (lower_eq_blank_iff hc).1 (h.symm.trans hlower)
    exact hc
  exact Bool.eq_iff_iff.2 ⟨himp h, himp h.symm⟩

theorem sameLetter_iff {c d : Char} : sameLetter c d = true ↔ lower c = lower d := by
  refine ⟨lower_eq_of_sameLetter, fun h => ?_⟩
  rw [sameLetter, h, beq_self_eq_true, Bool.or_true]

/-! ## Texts up to case -/

/-- The same number of characters, each with the same lower case as the other at its position. -/
def SameUpToCase (s t : Text) : Prop := List.Forall₂ (fun c d => lower c = lower d) s t

namespace SameUpToCase

variable {s t : Text}

theorem refl (t : Text) : SameUpToCase t t := List.forall₂_same.2 fun _ _ => rfl

theorem reverse (h : SameUpToCase s t) : SameUpToCase s.reverse t.reverse := List.rel_reverse h

theorem takeWhile (h : SameUpToCase s t) :
    SameUpToCase (s.takeWhile isBlank) (t.takeWhile isBlank) := by
  induction h with
  | nil => exact .nil
  | cons hcd _ ih =>
    simp only [List.takeWhile_cons, isBlank_eq_of_lower_eq hcd]
    split
    · exact .cons hcd ih
    · exact .nil

theorem dropWhile (h : SameUpToCase s t) :
    SameUpToCase (s.dropWhile isBlank) (t.dropWhile isBlank) := by
  induction h with
  | nil => exact .nil
  | cons hcd hst ih =>
    simp only [List.dropWhile_cons, isBlank_eq_of_lower_eq hcd]
    split
    · exact ih
    · exact .cons hcd hst

theorem trim (h : SameUpToCase s t) : SameUpToCase s.trim t.trim := h.dropWhile.reverse.dropWhile.reverse

theorem eq_nil_iff (h : SameUpToCase s t) : s = [] ↔ t = [] := by
  rw [← List.length_eq_zero_iff, h.length_eq, List.length_eq_zero_iff]

end SameUpToCase

/-! ## Places at the same position -/

/-- Two places behind the same number of characters. -/
def Abreast (s t : Text) (i j : Nat) : Prop :=
  ∃ k ≤ s.length, i = width (s.take k) ∧ j = width (t.take k)

namespace Abreast

variable {s t : Text} {i j : Nat}

theorem zero (s t : Text) : Abreast s t 0 0 := ⟨0, Nat.zero_le _, rfl, rfl⟩

theorem cons (c d : Char) (h : Abreast s t i j) :
    Abreast (c :: s) (d :: t) (c.utf8Size + i) (d.utf8Size + j) := by
  obtain ⟨k, hk, rfl, rfl⟩ := h
  exact ⟨k + 1, Nat.succ_le_succ hk, rfl, rfl⟩

theorem of_isPrefix {u v : Text} (hu : u <+: s) (hv : v <+: t) (h : u.length = v.length) :
    Abreast s t u.width v.width := by
  refine ⟨u.length, hu.length_le, ?_, ?_⟩
  · rw [← List.prefix_iff_eq_take.1 hu]
  · rw [h, ← List.prefix_iff_eq_take.1 hv]

/-- What follows the two places is the same up to case, and places in it are abreast of each other in the
whole texts too. -/
theorem after (h : Abreast s t i j) (hst : SameUpToCase s t) :
    ∃ u v, s.after? i = some u ∧ t.after? j = some v ∧ SameUpToCase u v ∧
      ∀ n m, Abreast u v n m → Abreast s t (i + n) (j + m) := by
  obtain ⟨k, hk, rfl, rfl⟩ := h
  have hafter (t : Text) : t.after? (width (t.take k)) = some (t.drop k) := by
    simpa using after?_append (t.take k) (t.drop k)
  refine ⟨s.drop k, t.drop k, hafter s, hafter t, List.forall₂_drop k hst, ?_⟩
  rintro n m ⟨l, hl, rfl, rfl⟩
  rw [List.length_drop] at hl
  refine ⟨k + l, by omega, ?_, ?_⟩
  · rw [List.take_add, width_append]
  · rw [List.take_add, width_append]

theorem skipBlank (h : Abreast s t i j) (hst : SameUpToCase s t) :
    Abreast s t (s.skipBlank i) (t.skipBlank j) := by
  obtain ⟨u, v, hu, hv, huv, hfurther⟩ := h.after hst
  simp only [Text.skipBlank, hu, hv]
  apply hfurther
  apply of_isPrefix (List.takeWhile_prefix _) (List.takeWhile_prefix _)
  exact huv.takeWhile.length_eq

end Abreast

theorem rel_map {α β γ δ : Type} {R : α → β → Prop} {Q : γ → δ → Prop} {f : α → γ} {g : β → δ}
    {o : Option α} {p : Option β} (h : Option.Rel R o p) (hfg : ∀ a b, R a b → Q (f a) (g b)) :
    Option.Rel Q (o.map f) (p.map g) := by
  cases h with
  | some h => exact .some (hfg _ _ h)
  | none => exact .none

/-- Words that are the same up to case agree with the beginnings of the same texts up to case. -/
theorem SameUpToCase.agreeing? {w x s t : Text} (hwx : SameUpToCase w x) (hst : SameUpToCase s t) :
    Option.Rel (Abreast s t) (agreeing? w s) (agreeing? x t) := by
  induction hwx generalizing s t with
  | nil => exact .some (.zero s t)
  | @cons a b w x hab _ ih =>
    cases hst with
    | nil => exact .none
    | @cons c d s t hcd hst =>
      have hletter : sameLetter c a = sameLetter d b := by
        rw [Bool.eq_iff_iff, sameLetter_iff, sameLetter_iff, hab, hcd]
      rw [Text.agreeing?, Text.agreeing?, hletter]
      split
      · exact rel_map (ih hst) fun n m h => h.cons c d
      · exact .none

theorem Abreast.occursAt? {w x s t : Text} {i j : Nat} (h : Abreast s t i j) (hst : SameUpToCase s t)
    (hwx : SameUpToCase w x) : Option.Rel (Abreast s t) (s.occursAt? i w) (t.occursAt? j x) := by
  obtain ⟨u, v, hu, hv, huv, hfurther⟩ := h.after hst
  obtain ⟨a, rfl, rfl⟩ := after?_eq_some_iff.1 hu
  obtain ⟨b, rfl, rfl⟩ := after?_eq_some_iff.1 hv
  rw [occursAt?_append, occursAt?_append]
  exact rel_map (hwx.agreeing? huv) hfurther

end Phrasebook.Text
