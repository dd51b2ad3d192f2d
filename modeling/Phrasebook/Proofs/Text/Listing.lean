import Mathlib.Algebra.GroupWithZero.Nat
import Phrasebook.Text.Listing
import Phrasebook.Proofs.Text.Place

/-!
The parts of a list in a text stand in it, and are narrower than the text: together they are no wider,
and there are at least two of them.
-/

namespace Phrasebook.Text

def totalWidth (parts : List Text) : Nat := (parts.map width).sum

@[simp] theorem totalWidth_nil : totalWidth [] = 0 := rfl

@[simp] theorem totalWidth_cons (p : Text) (ps : List Text) :
    totalWidth (p :: ps) = p.width + totalWidth ps := rfl

theorem totalWidth_append (ps qs : List Text) :
    totalWidth (ps ++ qs) = totalWidth ps + totalWidth qs := by
  simp [totalWidth]

theorem totalWidth_trim_le (ps : List Text) : totalWidth (ps.map trim) ≤ totalWidth ps := by
  induction ps with
  | nil => rfl
  | cons p ps ih =>
    have := trim_width_le p
    simp only [List.map_cons, totalWidth_cons]
    omega

theorem conjunction?_isSuffix {t rest : Text} {name : String}
    (h : conjunction? t = some (name, rest)) : rest <:+ t := by
  unfold conjunction? at h
  dsimp only at h
  split at h
  · cases h
    exact ((List.dropWhile_suffix _).trans (List.drop_suffix _ _)).trans (List.dropWhile_suffix _)
  · cases h

/-- A conjunction stands behind a blank. -/
theorem conjunction?_isSuffix_tail {c : Char} {t rest : Text} {name : String}
    (h : conjunction? (c :: t) = some (name, rest)) : rest <:+ t := by
  unfold conjunction? at h
  dsimp only at h
  split at h
  · rename_i hblank
    have hc : isBlank c = true := by simp_all
    rw [List.dropWhile_cons_of_pos hc] at h
    cases h
    exact ((List.dropWhile_suffix _).trans (List.drop_suffix _ _)).trans (List.dropWhile_suffix _)
  · cases h

/-- How the parts come about: the text is over, a character is added to the current part, or a separator
ends it. -/
theorem listParts_induction {P : Text → Text → List Text → Prop}
    (hlast : ∀ part t, P part t [part.reverse])
    (hnext : ∀ part c t ps, P (c :: part) t ps → P part (c :: t) ps)
    (hcut : ∀ part c t rest ps, rest <:+ c :: t → P [] rest ps → P part (c :: t) (part.reverse :: ps))
    (fuel : Nat) (depth : Int) (quoted : Bool) (part t : Text) :
    P part t (listParts fuel depth quoted part t).1 := by
  induction fuel generalizing depth quoted part t with
  | zero => exact hlast part t
  | succ fuel ih =>
    cases t with
    | nil => exact hlast part []
    | cons c t =>
      have htail : t <:+ c :: t := List.suffix_cons c t
      rw [listParts]
      split_ifs
      · exact hnext _ _ _ _ (ih _ _ _ _)
      · exact hnext _ _ _ _ (ih _ _ _ _)
      · exact hnext _ _ _ _ (ih _ _ _ _)
      · exact hnext _ _ _ _ (ih _ _ _ _)
      · split
        · rename_i hconj
          exact hcut _ _ _ _ _ ((conjunction?_isSuffix hconj).trans htail) (ih _ _ _ _)
        · exact hcut _ _ _ _ _ htail (ih _ _ _ _)
      · split
        · rename_i hconj
          exact hcut _ _ _ _ _ (conjunction?_isSuffix hconj) (ih _ _ _ _)
        · exact hnext _ _ _ _ (ih _ _ _ _)
      · exact hnext _ _ _ _ (ih _ _ _ _)

theorem listParts_width (fuel : Nat) (depth : Int) (quoted : Bool) (part t : Text) :
    totalWidth (listParts fuel depth quoted part t).1 ≤ part.width + t.width := by
  refine listParts_induction (P := fun part t ps => totalWidth ps ≤ part.width + t.width)
    (fun part t => ?_) (fun part c t ps ih => ?_) (fun part c t rest ps hrest ih => ?_) _ _ _ _ _
  · simp [width_reverse]
  · simp only [width_cons] at ih ⊢
    omega
  · have := width_le_of_infix hrest.isInfix
    simp only [totalWidth_cons, width_reverse, width_nil] at ih ⊢
    omega

/-- Every part stands in the text behind what the current part holds so far. -/
theorem listParts_isInfix (fuel : Nat) (depth : Int) (quoted : Bool) (part t : Text) :
    ∀ p ∈ (listParts fuel depth quoted part t).1, p <:+: part.reverse ++ t := by
  refine listParts_induction (P := fun part t ps => ∀ p ∈ ps, p <:+: part.reverse ++ t)
    (fun part t => ?_) (fun part c t ps ih => ?_) (fun part c t rest ps hrest ih => ?_) _ _ _ _ _
  · intro p hp
    rw [List.mem_singleton.1 hp]
    exact (List.prefix_append _ _).isInfix
  · rwa [List.reverse_cons, List.append_assoc, List.singleton_append] at ih
  · intro p hp
    rcases List.mem_cons.1 hp with rfl | hp
    · exact (List.prefix_append _ _).isInfix
    · exact (ih p hp).trans (hrest.trans (List.suffix_append _ _)).isInfix

theorem splitList?_isInfix {t : Text} {parts : List Text} {all : Bool}
    (h : splitList? t = some (parts, all)) {p : Text} (hp : p ∈ parts) : p <:+: t := by
  unfold splitList? at h
  dsimp only at h
  split at h
  · cases h
  · cases h
    obtain ⟨q, hq, rfl⟩ := List.mem_map.1 hp
    exact (trim_isInfix q).trans (listParts_isInfix t.length 0 false [] t q hq)

/-- One of two or more texts that are not empty is narrower than all together. -/
theorem width_lt_totalWidth {ps : List Text} (hne : ∀ p ∈ ps, p ≠ []) (hl : 2 ≤ ps.length) {p : Text}
    (hp : p ∈ ps) : p.width < totalWidth ps := by
  obtain ⟨as, bs, rfl⟩ := List.append_of_mem hp
  have hpos {q : Text} (hq : q ∈ as ++ p :: bs) : 0 < q.width :=
    Nat.pos_of_ne_zero fun h => hne q hq (width_eq_zero.1 h)
  rw [totalWidth_append, totalWidth_cons]
  cases as with
  | cons q as =>
    have := hpos (q := q) (by simp)
    rw [totalWidth_cons]
    omega
  | nil =>
    cases bs with
    | cons q bs =>
      have := hpos (q := q) (by simp)
      rw [totalWidth_cons]
      omega
    | nil => simp at hl

theorem splitList?_length {t : Text} {parts : List Text} {all : Bool}
    (h : splitList? t = some (parts, all)) : 2 ≤ parts.length := by
  unfold splitList? at h
  dsimp only at h
  split at h
  · cases h
  · rename_i hok
    cases h
    simp only [Bool.or_eq_true, decide_eq_true_eq, not_or, Nat.not_lt] at hok
    exact hok.1

theorem splitList?_width {t : Text} {parts : List Text} {all : Bool}
    (h : splitList? t = some (parts, all)) {p : Text} (hp : p ∈ parts) :
    (trim p).width < t.width := by
  unfold splitList? at h
  dsimp only at h
  split at h
  · cases h
  · rename_i hok
    cases h
    simp only [Bool.or_eq_true, decide_eq_true_eq, not_or, Nat.not_lt, Bool.not_eq_true] at hok
    obtain ⟨hl, hne⟩ := hok
    have hne' : ∀ q ∈ (listParts t.length 0 false [] t).1.map trim, q ≠ [] := by
      rintro q hq rfl
      rw [List.any_eq_false] at hne
      exact hne [] hq List.isEmpty_nil
    calc (trim p).width ≤ p.width := trim_width_le p
      _ < totalWidth ((listParts t.length 0 false [] t).1.map trim) :=
        width_lt_totalWidth hne' hl hp
      _ ≤ totalWidth (listParts t.length 0 false [] t).1 := totalWidth_trim_le _
      _ ≤ t.width := by simpa using listParts_width t.length 0 false [] t

end Phrasebook.Text
