import Phrasebook.Text.Property
import Mathlib.Data.List.Infix
import Mathlib.Data.List.DropRight

/-!
Places in a text and what stands between them. A cut succeeds exactly at a place, two cuts that meet
join, and skipping or trimming blanks leads from place to place.
-/

namespace Phrasebook.Text

variable {t u v r : Text} {i j k n : Nat}

theorem width_eq_zero : t.width = 0 ↔ t = [] := by
  cases t with
  | nil => simp
  | cons c t => have := c.utf8Size_pos; simp only [width_cons, reduceCtorEq, iff_false]; omega

theorem width_reverse (t : Text) : width t.reverse = width t := by
  induction t with
  | nil => rfl
  | cons c t ih => simp [ih, Nat.add_comm]

theorem width_le_of_infix (h : u <:+: t) : u.width ≤ t.width := by
  obtain ⟨a, b, rfl⟩ := h
  simp only [width_append]
  omega

/-- A part of a text that is as wide as the text is all of it. -/
theorem eq_of_infix_of_width_le (h : u <:+: t) (hw : t.width ≤ u.width) : u = t := by
  obtain ⟨a, b, rfl⟩ := h
  simp only [width_append] at hw
  obtain rfl : a = [] := width_eq_zero.1 (by omega)
  obtain rfl : b = [] := width_eq_zero.1 (by omega)
  simp

/-! ## Cuts -/

theorem after?_eq_some_iff : t.after? i = some r ↔ ∃ a, t = a ++ r ∧ width a = i := by
  unfold after?
  rw [Option.map_eq_some_iff]
  constructor
  · rintro ⟨⟨a, b⟩, hcut, rfl⟩
    exact ⟨a, append_of_cut? hcut⟩
  · rintro ⟨a, rfl, rfl⟩
    exact ⟨(a, r), cut?_append a r, rfl⟩

theorem before?_eq_some_iff : t.before? i = some r ↔ ∃ b, t = r ++ b ∧ width r = i := by
  unfold before?
  rw [Option.map_eq_some_iff]
  constructor
  · rintro ⟨⟨a, b⟩, hcut, rfl⟩
    exact ⟨b, append_of_cut? hcut⟩
  · rintro ⟨b, rfl, rfl⟩
    exact ⟨(r, b), cut?_append r b, rfl⟩

theorem between?_eq_some_iff :
    t.between? i j = some u ↔ ∃ a b, t = a ++ (u ++ b) ∧ width a = i ∧ i + width u = j := by
  unfold between?
  rw [Option.bind_eq_bind, Option.bind_eq_some_iff]
  constructor
  · rintro ⟨r, hr, h⟩
    obtain ⟨a, rfl, rfl⟩ := after?_eq_some_iff.1 hr
    split_ifs at h with hij
    obtain ⟨b, rfl, hw⟩ := before?_eq_some_iff.1 h
    exact ⟨a, b, rfl, rfl, by omega⟩
  · rintro ⟨a, b, rfl, rfl, rfl⟩
    refine ⟨u ++ b, after?_eq_some_iff.2 ⟨a, rfl, rfl⟩, ?_⟩
    rw [if_pos (Nat.le_add_right _ _)]
    exact before?_eq_some_iff.2 ⟨b, rfl, by omega⟩

/-- Whether byte `i` is the offset of a character or the end. -/
def IsPlace (t : Text) (i : Nat) : Prop := ∃ a b, t = a ++ b ∧ width a = i

theorem isPlace_iff : t.IsPlace i ↔ ∃ r, t.after? i = some r := by
  constructor
  · rintro ⟨a, b, h⟩
    exact ⟨b, after?_eq_some_iff.2 ⟨a, h⟩⟩
  · rintro ⟨b, h⟩
    obtain ⟨a, ha⟩ := after?_eq_some_iff.1 h
    exact ⟨a, b, ha⟩

theorem isPlace_zero (t : Text) : t.IsPlace 0 := ⟨[], t, rfl, rfl⟩

theorem isPlace_width (t : Text) : t.IsPlace t.width := ⟨t, [], by simp, rfl⟩

theorem IsPlace.le_width (h : t.IsPlace i) : i ≤ t.width := by
  obtain ⟨a, b, rfl, rfl⟩ := h
  simp

/-- Between two places stands a text. -/
theorem IsPlace.between (hi : t.IsPlace i) (hj : t.IsPlace j) (hij : i ≤ j) :
    ∃ u, t.between? i j = some u := by
  obtain ⟨a, b, rfl, rfl⟩ := hi
  obtain ⟨c, d, h, rfl⟩ := hj
  rcases List.append_eq_append_iff.1 h with ⟨x, rfl, rfl⟩ | ⟨x, rfl, rfl⟩
  · exact ⟨x, between?_eq_some_iff.2 ⟨a, d, rfl, rfl, by simp⟩⟩
  · rw [width_append] at hij
    obtain rfl : x = [] := width_eq_zero.1 (by omega)
    exact ⟨[], between?_eq_some_iff.2 ⟨c, b, by simp, by simp, by simp⟩⟩

theorem between?_self (h : t.IsPlace i) : t.between? i i = some [] := by
  obtain ⟨a, b, rfl, rfl⟩ := h
  exact between?_eq_some_iff.2 ⟨a, b, rfl, rfl, rfl⟩

theorem between?_append (h₁ : t.between? i j = some u) (h₂ : t.between? j k = some v) :
    t.between? i k = some (u ++ v) := by
  obtain ⟨a, b, rfl, rfl, rfl⟩ := between?_eq_some_iff.1 h₁
  obtain ⟨c, d, h, hc, rfl⟩ := between?_eq_some_iff.1 h₂
  rw [← List.append_assoc] at h
  obtain ⟨rfl, rfl⟩ : a ++ u = c ∧ b = v ++ d := by
    rcases List.append_eq_append_iff.1 h with ⟨x, rfl, hx⟩ | ⟨x, hx, hb⟩
    · obtain rfl : x = [] := width_eq_zero.1 (by simp only [width_append] at hc; omega)
      exact ⟨by simp, by simpa using hx⟩
    · have hw := congrArg width hx
      obtain rfl : x = [] := width_eq_zero.1 (by simp only [width_append] at hw; omega)
      exact ⟨by simpa using hx, by simpa using hb.symm⟩
  exact between?_eq_some_iff.2 ⟨a, d, by simp, rfl, by simp [Nat.add_assoc]⟩

theorem isPlace_left (h : t.between? i j = some u) : t.IsPlace i := by
  obtain ⟨a, b, rfl, rfl, rfl⟩ := between?_eq_some_iff.1 h
  exact ⟨a, u ++ b, rfl, rfl⟩

theorem isPlace_right (h : t.between? i j = some u) : t.IsPlace j := by
  obtain ⟨a, b, rfl, rfl, rfl⟩ := between?_eq_some_iff.1 h
  exact ⟨a ++ u, b, by simp, by simp⟩

theorem infix_of_between? (h : t.between? i j = some u) : u <:+: t := by
  obtain ⟨a, b, rfl, -, -⟩ := between?_eq_some_iff.1 h
  exact ⟨a, b, by simp⟩

/-- A text that follows a place stands between that place and its own end. -/
theorem between?_of_after? (h : t.after? i = some (u ++ r)) :
    t.between? i (i + u.width) = some u := by
  obtain ⟨a, rfl, rfl⟩ := after?_eq_some_iff.1 h
  exact between?_eq_some_iff.2 ⟨a, r, rfl, rfl, rfl⟩

theorem after?_of_between? (h : t.between? i j = some u) :
    ∃ r, t.after? i = some (u ++ r) ∧ t.after? j = some r := by
  obtain ⟨a, b, rfl, rfl, rfl⟩ := between?_eq_some_iff.1 h
  refine ⟨b, after?_eq_some_iff.2 ⟨a, rfl, rfl⟩, ?_⟩
  exact after?_eq_some_iff.2 ⟨a ++ u, by simp, by simp⟩

/-! ## Blanks -/

/-- Nothing but blanks stands between two places. -/
def BlankBetween (t : Text) (i j : Nat) : Prop :=
  ∃ u, t.between? i j = some u ∧ ∀ c ∈ u, isBlank c = true

theorem BlankBetween.refl (h : t.IsPlace i) : t.BlankBetween i i :=
  ⟨[], between?_self h, by simp⟩

theorem BlankBetween.trans (h₁ : t.BlankBetween i j) (h₂ : t.BlankBetween j k) :
    t.BlankBetween i k := by
  obtain ⟨u, hu, hub⟩ := h₁
  obtain ⟨v, hv, hvb⟩ := h₂
  refine ⟨u ++ v, between?_append hu hv, fun c hc => ?_⟩
  rcases List.mem_append.1 hc with hc | hc
  · exact hub c hc
  · exact hvb c hc

theorem BlankBetween.isPlace_right (h : t.BlankBetween i j) : t.IsPlace j := by
  obtain ⟨u, hu, -⟩ := h
  exact Text.isPlace_right hu

theorem skipBlank_isPlace (t : Text) (i : Nat) : t.IsPlace (t.skipBlank i) := by
  unfold skipBlank
  split
  · rename_i rest h
    rw [← List.takeWhile_append_dropWhile (p := isBlank) (l := rest)] at h
    exact isPlace_right (between?_of_after? h)
  · exact isPlace_width t

theorem skipBlank_blank (h : t.IsPlace i) : t.BlankBetween i (t.skipBlank i) := by
  obtain ⟨rest, hr⟩ := isPlace_iff.1 h
  unfold skipBlank
  rw [hr]
  refine ⟨rest.takeWhile isBlank, ?_, fun c hc => List.mem_takeWhile_imp hc⟩
  rw [← List.takeWhile_append_dropWhile (p := isBlank) (l := rest)] at hr
  exact between?_of_after? hr

/-- The blanks that a text begins with, as far as they go in a number of characters. -/
theorem blank_take_takeWhile (h : t.after? i = some r) (n : Nat) :
    t.BlankBetween i (i + width ((r.takeWhile isBlank).take n)) := by
  refine ⟨(r.takeWhile isBlank).take n, ?_, fun c hc => ?_⟩
  · have hr : r = (r.takeWhile isBlank).take n ++
        ((r.takeWhile isBlank).drop n ++ r.dropWhile isBlank) := by
      rw [← List.append_assoc, List.take_append_drop, List.takeWhile_append_dropWhile]
    rw [hr] at h
    exact between?_of_after? h
  · exact List.mem_takeWhile_imp (List.mem_of_mem_take hc)

/-- Trimming the end takes away blanks. -/
theorem trimEnd_append (t : Text) : ∃ b, t = trimEnd t ++ b ∧ ∀ c ∈ b, isBlank c = true := by
  refine ⟨(t.reverse.takeWhile isBlank).reverse, ?_, fun c hc => ?_⟩
  · unfold trimEnd
    rw [← List.reverse_append, List.takeWhile_append_dropWhile, List.reverse_reverse]
  · exact List.mem_takeWhile_imp (List.mem_reverse.1 hc)

theorem trimEnd_isPrefix (t : Text) : trimEnd t <+: t := by
  obtain ⟨b, h, -⟩ := trimEnd_append t
  exact ⟨b, h.symm⟩

theorem trim_isInfix (t : Text) : trim t <:+: t :=
  (trimEnd_isPrefix _).isInfix.trans (List.dropWhile_suffix isBlank).isInfix

theorem dropWhile_isInfix (p : Char → Bool) (h : u <:+: t) : u.dropWhile p <:+: t.dropWhile p := by
  obtain ⟨a, b, rfl⟩ := h
  have hfront : u.dropWhile p <:+ (a ++ u).dropWhile p := by
    rw [List.dropWhile_append]
    split
    · exact List.suffix_rfl
    · exact (List.dropWhile_suffix p).trans (List.suffix_append _ _)
  have hback : (a ++ u).dropWhile p <+: (a ++ u ++ b).dropWhile p := by
    have happend : (a ++ u ++ b).dropWhile p = if ((a ++ u).dropWhile p).isEmpty then b.dropWhile p
        else (a ++ u).dropWhile p ++ b := List.dropWhile_append
    rw [happend]
    split
    · rename_i hnil
      rw [List.isEmpty_iff.1 hnil]
      exact List.nil_prefix
    · exact List.prefix_append _ _
  exact hfront.isInfix.trans hback.isInfix

theorem trim_isInfix_trim (h : u <:+: t) : trim u <:+: trim t := by
  unfold trim trimEnd trimStart
  apply List.reverse_infix.2
  apply dropWhile_isInfix
  apply List.reverse_infix.2
  exact dropWhile_isInfix isBlank h

theorem trim_width_le (t : Text) : (trim t).width ≤ t.width := width_le_of_infix (trim_isInfix t)

theorem trimEnd_eq_rdropWhile (t : Text) : trimEnd t = t.rdropWhile isBlank := rfl

theorem trimStart_trim (t : Text) : trimStart (trim t) = trim t := by
  rw [trimStart, List.dropWhile_eq_self_iff]
  intro hl
  have hl' : 0 < (trimStart t).length := lt_of_lt_of_le hl (trimEnd_isPrefix _).length_le
  rw [show (trim t)[0] = (trimStart t)[0] from (trimEnd_isPrefix (trimStart t)).getElem hl]
  exact List.dropWhile_get_zero_not isBlank t hl'

/-- A trimmed text has nothing left to trim. -/
theorem trim_trim (t : Text) : trim (trim t) = trim t := by
  have hstart := trimStart_trim t
  unfold trim at hstart ⊢
  rw [hstart, trimEnd_eq_rdropWhile]
  exact List.rdropWhile_idempotent isBlank (trimStart t)

theorem not_blank_head_of_trimmed (h : trim t = t) : ∀ c ∈ t.head?, isBlank c = false := by
  intro c hc
  have hstart : trimStart t = t := by rw [← h, trimStart_trim]
  cases t with
  | nil => cases hc
  | cons d t =>
    cases hc
    exact Bool.eq_false_iff.2 (List.dropWhile_eq_self_iff.1 hstart (Nat.zero_lt_succ _))

theorem not_blank_last_of_trimmed (h : trim t = t) : ∀ c ∈ t.getLast?, isBlank c = false := by
  intro c hc
  have hstart : trimStart t = t := by rw [← h, trimStart_trim]
  have hend : t.rdropWhile isBlank = t := by rw [trim, hstart] at h; exact h
  obtain ⟨u, rfl⟩ := List.getLast?_eq_some_iff.1 hc
  simpa using List.rdropWhile_eq_self_iff.1 hend (by simp)

/-- Blanks behind a text that neither begins nor ends with one are all there is to trim. -/
theorem trim_append {t b : Text} (hne : t ≠ []) (hhead : ∀ c ∈ t.head?, isBlank c = false)
    (hlast : ∀ c ∈ t.getLast?, isBlank c = false) (hb : ∀ c ∈ b, isBlank c = true) :
    trim (t ++ b) = t := by
  have hstart : trimStart (t ++ b) = t ++ b := by
    obtain ⟨c, u, rfl⟩ := List.exists_cons_of_ne_nil hne
    have hc := hhead c rfl
    rw [trimStart, List.cons_append, List.dropWhile_cons_of_neg (by simp [hc])]
  obtain ⟨d, hd⟩ : ∃ d, t.getLast? = some d := ⟨_, List.getLast?_eq_some_getLast hne⟩
  obtain ⟨v, rfl⟩ := List.getLast?_eq_some_iff.1 hd
  have hd := hlast d hd
  rw [trim, hstart, trimEnd, List.reverse_append,
    List.dropWhile_append_of_pos fun c hc => hb c (List.mem_reverse.1 hc), List.reverse_append,
    List.reverse_singleton, List.singleton_append, List.dropWhile_cons_of_neg (by simp [hd]),
    List.reverse_cons, List.reverse_reverse]

theorem trim_eq_self {t : Text} (hne : t ≠ []) (hhead : ∀ c ∈ t.head?, isBlank c = false)
    (hlast : ∀ c ∈ t.getLast?, isBlank c = false) : trim t = t := by
  have h := trim_append hne hhead hlast (b := []) (by simp)
  rwa [List.append_nil] at h

@[simp] theorem isBlank_space : isBlank ' ' = true := by decide

theorem trim_singleton {c : Char} (h : isBlank c = false) : trim [c] = [c] := by
  simp [trim, trimStart, trimEnd, h]

theorem skipBlank_of_not_blank {c : Char} (h : t.after? i = some (c :: r)) (hc : isBlank c = false) :
    t.skipBlank i = i := by
  rw [skipBlank, h]
  simp [hc]

theorem skipBlank_of_space {c : Char} (h : t.after? i = some (' ' :: c :: r)) (hc : isBlank c = false) :
    t.skipBlank i = i + 1 := by
  have hwidth : Char.utf8Size ' ' = 1 := by decide
  rw [skipBlank, h]
  simp [hc, hwidth]

end Phrasebook.Text
