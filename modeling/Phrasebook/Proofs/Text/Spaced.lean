import Phrasebook.Proofs.Text.Caseless
import Mathlib.Order.Bounds.Basic

/-!
The search for a word with blanks around it finds the first place where the word fits. Nothing is lost
by going on one character behind an occurrence that does not fit: between two characters in a row there
is no other place.
-/

namespace Phrasebook.Text

variable {t u word front rest v : Text} {c : Char} {before after : Bool} {start i k : Nat}

/-! ## Where a word fits -/

/-- The edge of the text or a blank is in front of byte `i`. -/
def OpenBefore (t : Text) (i : Nat) : Prop :=
  i = 0 ∨ ∃ front c, t.before? i = some (front ++ [c]) ∧ isBlank c = true

/-- The edge of the text or a blank is at byte `i`. -/
def OpenAt (t : Text) (i : Nat) : Prop :=
  i = t.width ∨ ∃ c rest, t.after? i = some (c :: rest) ∧ isBlank c = true

/-- The word stands at byte `i` up to case, open on each side that must be. -/
def Fits (t word : Text) (before after : Bool) (i : Nat) : Prop :=
  ∃ stop u, t.between? i stop = some u ∧ SameUpToCase u word ∧
    (before = true → t.OpenBefore i) ∧ (after = true → t.OpenAt stop)

theorem Fits.isPlace (h : t.Fits word before after i) : t.IsPlace i := by
  obtain ⟨stop, u, hu, -⟩ := h
  exact isPlace_left hu

theorem openBefore_append (front rest : Text) :
    (front ++ rest).OpenBefore front.width ↔ front.getLast?.all isBlank = true := by
  have hcut : (front ++ rest).before? front.width = some front := before?_eq_some_iff.2 ⟨rest, rfl, rfl⟩
  unfold OpenBefore
  rw [hcut, width_eq_zero]
  rcases List.eq_nil_or_concat front with rfl | ⟨s, d, rfl⟩
  · simp
  · simp [and_assoc]

theorem openAt_append (front rest : Text) :
    (front ++ rest).OpenAt front.width ↔ rest.head?.all isBlank = true := by
  unfold OpenAt
  rw [after?_append, width_append, left_eq_add, width_eq_zero]
  cases rest with
  | nil => simp
  | cons d v => simp [and_assoc]

theorem agreeing?_isSome_iff :
    (agreeing? word t).isSome = true ↔ ∃ u v, t = u ++ v ∧ SameUpToCase u word := by
  constructor
  · intro h
    obtain ⟨n, hn⟩ := Option.isSome_iff_exists.1 h
    obtain ⟨u, v, ht, -, huv⟩ := agreeing?_eq_some hn
    exact ⟨u, v, ht, huv⟩
  · rintro ⟨u, v, rfl, huv⟩
    induction huv with
    | nil => rfl
    | @cons d w u ws hdw _ ih => simpa [agreeing?, sameLetter_iff.2 hdw] using ih

/-- The test of the search, made where `rest` begins, is whether the word fits there. -/
theorem fits_append_iff (front rest : Text) :
    (front ++ rest).Fits word before after front.width ↔
      ((agreeing? word rest).isSome && (!before || front.getLast?.all isBlank) &&
        (!after || (rest.drop word.length).head?.all isBlank)) = true := by
  have hopen {u v : Text} (huv : SameUpToCase u word) (hrest : rest = u ++ v) :
      (front ++ rest).OpenAt (front.width + u.width) ↔
        (rest.drop word.length).head?.all isBlank = true := by
    rw [hrest, ← huv.length_eq, List.drop_left, ← List.append_assoc, ← width_append]
    exact openAt_append (front ++ u) v
  simp only [Bool.and_eq_true, Bool.or_eq_true, Bool.not_eq_true', ← Bool.not_eq_true, ← imp_iff_not_or,
    and_assoc, agreeing?_isSome_iff, ← openBefore_append front rest]
  constructor
  · rintro ⟨stop, u, hu, huv, hbefore, hafter⟩
    obtain ⟨v, hv, -⟩ := after?_of_between? hu
    rw [after?_append, Option.some_inj] at hv
    obtain ⟨-, -, -, -, rfl⟩ := between?_eq_some_iff.1 hu
    exact ⟨⟨u, v, hv, huv⟩, hbefore, fun h => (hopen huv hv).1 (hafter h)⟩
  · rintro ⟨⟨u, v, hv, huv⟩, hbefore, hafter⟩
    have hu : (front ++ rest).between? front.width (front.width + u.width) = some u := by
      apply between?_of_after?
      rw [after?_append, hv]
    exact ⟨_, u, hu, huv, hbefore, fun h => (hopen huv hv).2 (hafter h)⟩

/-! ## Going on behind a character -/

/-- From the place of a character on there is that place, and then those behind the character. -/
theorem IsPlace.eq_or_behind (h : (front ++ c :: v).IsPlace k) (hk : front.width ≤ k) :
    k = front.width ∨ (front ++ [c]).width ≤ k := by
  have hfront : (front ++ c :: v).IsPlace front.width := ⟨front, c :: v, rfl, rfl⟩
  obtain ⟨u, hu⟩ := hfront.between h hk
  obtain ⟨w, hw, -⟩ := after?_of_between? hu
  obtain ⟨-, -, -, -, rfl⟩ := between?_eq_some_iff.1 hu
  rw [after?_append, Option.some_inj] at hw
  cases u with
  | nil => exact .inl rfl
  | cons d u =>
    obtain ⟨rfl, -⟩ := List.cons.inj hw
    apply Or.inr
    simp

/-- The places from `start` on where the word fits. -/
def fitting (t word : Text) (before after : Bool) (start : Nat) : Set Nat :=
  {i | start ≤ i ∧ t.Fits word before after i}

theorem fitting_width (hword : word ≠ []) : t.fitting word before after t.width = ∅ := by
  apply Set.eq_empty_iff_forall_notMem.2
  rintro i ⟨hi, hfits⟩
  obtain rfl : i = t.width := Nat.le_antisymm hfits.isPlace.le_width hi
  rw [← List.append_nil t, width_append, width_nil, Nat.add_zero, fits_append_iff] at hfits
  obtain ⟨w, ws, rfl⟩ := List.exists_cons_of_ne_nil hword
  simp [agreeing?] at hfits

/-- Where the word does not fit, going on behind one character passes over no place where it does. -/
theorem fitting_skip (h : ¬ (front ++ c :: v).Fits word before after front.width) :
    (front ++ c :: v).fitting word before after front.width =
      (front ++ c :: v).fitting word before after (front ++ [c]).width := by
  ext k
  constructor
  · rintro ⟨hk, hfits⟩
    obtain rfl | hbehind := hfits.isPlace.eq_or_behind hk
    · exact absurd hfits h
    · exact ⟨hbehind, hfits⟩
  · rintro ⟨hk, hfits⟩
    rw [width_append] at hk
    exact ⟨Nat.le_of_add_right_le hk, hfits⟩

/-- What a search for the least number of a set must answer. -/
def IsFirstOf (s : Set Nat) : Option Nat → Prop
  | some i => IsLeast s i
  | none => s = ∅

namespace IsFirstOf

variable {s : Set Nat} {r : Option Nat}

theorem eq_some_iff (h : IsFirstOf s r) : r = some i ↔ IsLeast s i := by
  cases r with
  | none =>
    have hempty : s = ∅ := h
    simp [hempty, IsLeast]
  | some j =>
    rw [Option.some_inj]
    constructor
    · rintro rfl
      exact h
    · exact fun hi => IsLeast.unique h hi

theorem eq_none_iff (h : IsFirstOf s r) : r = none ↔ s = ∅ := by
  cases r with
  | none => exact iff_of_true rfl h
  | some j => exact iff_of_false nofun (Set.Nonempty.ne_empty ⟨j, h.1⟩)

end IsFirstOf

theorem spacedOccurrence?_isFirst (hword : word ≠ []) (front rest : Text) :
    IsFirstOf ((front ++ rest).fitting word before after front.width)
      ((spacedOccurrence? word before after front.getLast? rest).map (front.width + ·)) := by
  -- a character that is passed over goes to the front, so the text as a whole stays the same
  induction rest generalizing front with
  | nil =>
    rw [List.append_nil]
    exact fitting_width hword
  | cons c v ih =>
    have hnext := ih (front ++ [c])
    rw [List.append_assoc, List.singleton_append, List.getLast?_concat] at hnext
    rw [spacedOccurrence?]
    split
    · rename_i hhere
      exact ⟨⟨Nat.le_refl _, (fits_append_iff front (c :: v)).2 hhere⟩, fun k hk => hk.1⟩
    · rename_i hhere
      rw [fitting_skip (mt (fits_append_iff front (c :: v)).1 hhere), Option.map_map]
      have hshift : (front ++ [c]).width = front.width + c.utf8Size := by simp
      simpa only [hshift, Nat.add_assoc, Function.comp_def] using hnext

/-! ## The first place -/

/-- The search answers with the least place from `start` on where the word fits, and with nothing just
when there is none. The loop over offsets ends with this answer. -/
theorem findSpaced?_first (before after : Bool) (hword : word ≠ []) (hstart : t.IsPlace start) :
    (∀ i, t.findSpaced? start word before after = some i ↔
      IsLeast {k | start ≤ k ∧ t.Fits word before after k} i) ∧
    (t.findSpaced? start word before after = none ↔
      ∀ k, start ≤ k → ¬ t.Fits word before after k) ∧
    ∀ fuel, t.width < fuel →
      t.seekSpaced word before after fuel start =
        Search.ofOption (t.findSpaced? start word before after) := by
  obtain ⟨front, rest, rfl, rfl⟩ := hstart
  have hfirst : IsFirstOf ((front ++ rest).fitting word before after front.width)
      ((front ++ rest).findSpaced? front.width word before after) := by
    rw [findSpaced?_append]
    exact spacedOccurrence?_isFirst hword front rest
  refine ⟨fun i => hfirst.eq_some_iff, ?_, fun fuel hfuel => ?_⟩
  · rw [hfirst.eq_none_iff, Set.eq_empty_iff_forall_notMem]
    exact forall_congr' fun k => not_and
  · apply seekSpaced_eq hword
    rw [width_append] at hfuel
    omega

/-- The Kelvin sign agrees with the word but is three bytes wide, and where it stands first a letter
follows it. -/
theorem findSpaced?_first_kelvin :
    "k".toList ≠ [] ∧ IsPlace "ok \u212aelvin \u212a".toList 1 ∧
      IsLeast {k | 1 ≤ k ∧ Fits "ok \u212aelvin \u212a".toList "k".toList true true k} 12 ∧
      seekSpaced "ok \u212aelvin \u212a".toList "k".toList true true 16 1 = pure 12 := by
  have hword : "k".toList ≠ [] := by decide
  have hplace : IsPlace "ok \u212aelvin \u212a".toList 1 :=
    ⟨['o'], "k \u212aelvin \u212a".toList, by decide, by decide⟩
  have hfound : findSpaced? "ok \u212aelvin \u212a".toList 1 "k".toList true true = some 12 := by
    decide +kernel
  obtain ⟨hsome, -, hloop⟩ := findSpaced?_first true true hword hplace
  refine ⟨hword, hplace, (hsome 12).1 hfound, ?_⟩
  rw [hloop 16 (by decide), hfound]
  rfl

end Phrasebook.Text
