import Mathlib.Algebra.Group.Nat.Even
import Mathlib.Order.Bounds.Image
import Phrasebook.Proofs.Text.Brackets
import Phrasebook.Proofs.Text.Spaced

/-!
The two scans for brackets against what counts of characters say. A character is escaped when an odd
number of backslashes stands right in front of it. The bars that cut are those in front of which as many
brackets are opened as closed; the closing bracket is the first with which as many are closed as opened.
-/

namespace Phrasebook.Text

variable {t u : Text} {a c : Char} {i : Nat}

/-! ## Escapes by counting -/

/-- The character behind the text is not escaped. -/
def LeavesPlain (u : Text) : Prop := Even (u.rtakeWhile (· == '\\')).length

theorem escapesEnd_concat (u : Text) (c : Char) :
    escapesEnd (u ++ [c]) = !(escapesEnd u && c == '\\') := by
  induction u using unescaped.induct with
  | case1 =>
    rw [List.nil_append, escapesEnd.eq_def]
    by_cases hc : c = '\\' <;> simp [hc, escapesEnd]
  | case2 => rfl
  | case3 e t ih => exact ih
  | case4 d t hd ih => rw [List.cons_append, escapesEnd_cons hd, escapesEnd_cons hd, ih]

theorem leavesPlain_iff : LeavesPlain u ↔ escapesEnd u = true := by
  unfold LeavesPlain
  induction u using List.reverseRecOn with
  | nil => simp [escapesEnd]
  | append_singleton u c ih =>
    rw [List.rtakeWhile_concat, escapesEnd_concat]
    by_cases hc : c = '\\'
    · simp [hc, Nat.even_add_one, ih]
    · simp [hc]

/-! ## Places of unescaped characters -/

/-- The places where an unescaped `c` stands, for whose front `P` holds of the unescaped characters. -/
def plainAt (c : Char) (P : Text → Prop) (t : Text) : Set Nat :=
  {i | ∃ u v, t = u ++ c :: v ∧ u.width = i ∧ escapesEnd u = true ∧ P (unescaped u)}

variable {P Q : Text → Prop}

theorem plainAt_congr (h : ∀ q, P q ↔ Q q) : plainAt c P t = plainAt c Q t :=
  congrArg (plainAt c · t) (funext fun q => propext (h q))

theorem plainAt_nil : plainAt c P [] = ∅ := by
  apply Set.eq_empty_iff_forall_notMem.2
  rintro i ⟨u, v, h, -⟩
  simp at h

theorem plainAt_backslash (hc : c ≠ '\\') : plainAt c P ['\\'] = ∅ := by
  apply Set.eq_empty_iff_forall_notMem.2
  rintro i ⟨u, v, h, -⟩
  cases u with
  | nil => exact hc (List.cons.inj h).1.symm
  | cons d u => simp at h

theorem plainAt_escape (hc : c ≠ '\\') (e : Char) (t : Text) :
    plainAt c P ('\\' :: e :: t) = ('\\'.utf8Size + e.utf8Size + ·) '' plainAt c P t := by
  ext i
  constructor
  · rintro ⟨u, v, h, rfl, hend, hP⟩
    match u with
    | [] => exact absurd (List.cons.inj h).1.symm hc
    | [d] =>
      obtain ⟨rfl, -⟩ := List.cons.inj h
      simp [escapesEnd] at hend
    | d :: d' :: u =>
      simp only [List.cons_append, List.cons.injEq] at h
      obtain ⟨rfl, rfl, rfl⟩ := h
      exact ⟨width u, ⟨u, v, rfl, rfl, hend, hP⟩, by simp [Nat.add_assoc]⟩
  · rintro ⟨j, ⟨u, v, rfl, rfl, hend, hP⟩, rfl⟩
    exact ⟨'\\' :: e :: u, v, rfl, by simp [Nat.add_assoc], hend, hP⟩

theorem plainAt_cons (ha : a ≠ '\\') (t : Text) :
    plainAt c P (a :: t) =
      {i | i = 0 ∧ a = c ∧ P []} ∪ (a.utf8Size + ·) '' plainAt c (fun q => P (a :: q)) t := by
  ext i
  constructor
  · rintro ⟨u, v, h, rfl, hend, hP⟩
    cases u with
    | nil => exact .inl ⟨rfl, (List.cons.inj h).1, hP⟩
    | cons d u =>
      obtain ⟨rfl, rfl⟩ := List.cons.inj h
      rw [escapesEnd_cons ha] at hend
      rw [unescaped_cons ha] at hP
      exact .inr ⟨width u, ⟨u, v, rfl, rfl, hend, hP⟩, rfl⟩
  · rintro (⟨rfl, rfl, hP⟩ | ⟨j, ⟨u, v, rfl, rfl, hend, hP⟩, rfl⟩)
    · exact ⟨[], t, rfl, rfl, rfl, hP⟩
    · refine ⟨a :: u, v, rfl, rfl, ?_, ?_⟩
      · rwa [escapesEnd_cons ha]
      · rwa [unescaped_cons ha]

theorem plainAt_here (hc : c ≠ '\\') (hP : P []) (t : Text) :
    plainAt c P (c :: t) = insert 0 ((c.utf8Size + ·) '' plainAt c (fun q => P (c :: q)) t) := by
  rw [plainAt_cons hc]
  ext i
  simp [hP]

theorem plainAt_past (ha : a ≠ '\\') (h : ¬ (a = c ∧ P [])) (t : Text) :
    plainAt c P (a :: t) = (a.utf8Size + ·) '' plainAt c (fun q => P (a :: q)) t := by
  rw [plainAt_cons ha]
  simp [h]

/-! ## The bars -/

/-- A bar that is not escaped and in front of which as many unescaped brackets are opened as closed. -/
def IsOuterBar (t : Text) (i : Nat) : Prop :=
  ∃ u v, t = u ++ '|' :: v ∧ u.width = i ∧ LeavesPlain u ∧
    (unescaped u).count '(' + (unescaped u).count '[' + (unescaped u).count '<' =
      (unescaped u).count ')' + (unescaped u).count ']' + (unescaped u).count '>'

theorem isOuterBar_iff : t.IsOuterBar i ↔ i ∈ plainAt '|' (fun q => 0 + depthOf q = 0) t := by
  refine exists_congr fun u => exists_congr fun v => and_congr_right fun _ => and_congr_right fun _ =>
    and_congr leavesPlain_iff ?_
  have hdepth := depthOf_eq (unescaped u)
  constructor <;> intro h <;> omega

/-- The places between the parts, where one ends and another follows. -/
def barsBetween (parts : List (Nat × Text)) : List Nat := parts.dropLast.map fun q => q.1 + q.2.width

theorem barsBetween_placed_pushFirst (start : Nat) (c : Char) {parts : List Text} (h : parts ≠ []) :
    barsBetween (placed start (pushFirst c parts)) = barsBetween (placed (start + c.utf8Size) parts) := by
  match parts, h with
  | [p], _ => rfl
  | p :: q :: ps, _ => simp [barsBetween, pushFirst, placed, Nat.add_assoc]

theorem barsBetween_placed_nil (start : Nat) {parts : List Text} (h : parts ≠ []) :
    barsBetween (placed start ([] :: parts)) = start :: barsBetween (placed (start + 1) parts) := by
  match parts, h with
  | p :: ps, _ => simp [barsBetween, placed]

theorem mem_barsBetween_iff (d : Int) (start : Nat) (t : Text) :
    i ∈ barsBetween (placed start (barParts d t)) ↔
      i ∈ (start + ·) '' plainAt '|' (fun q => d + depthOf q = 0) t := by
  induction t using unescaped.induct generalizing d start with
  | case1 => simp [plainAt_nil, placed, barsBetween]
  | case2 =>
    rw [plainAt_backslash (by decide), barParts.eq_def]
    simp [placed, barsBetween]
  | case3 e t ih =>
    rw [barParts_escape, barsBetween_placed_pushFirst _ _ (pushFirst_ne_nil _ _),
      barsBetween_placed_pushFirst _ _ (barParts_ne_nil _ _), ih, plainAt_escape (by decide)]
    simp only [Set.image_image, Nat.add_assoc]
  | case4 c t hc ih =>
    have hstep : plainAt '|' (fun q => d + depthOf (c :: q) = 0) t =
        plainAt '|' (fun q => d + depthChange c + depthOf q = 0) t :=
      plainAt_congr fun q => by rw [depthOf_cons, Int.add_assoc]
    rw [barParts_cons hc]
    split
    · rename_i hbar
      obtain ⟨rfl, rfl⟩ := hbar
      rw [barsBetween_placed_nil _ (barParts_ne_nil _ _), List.mem_cons, ih,
        plainAt_here (P := fun q => 0 + depthOf q = 0) hc rfl, Set.image_insert_eq, Set.image_image,
        Set.mem_insert_iff, hstep]
      simp only [Nat.add_assoc]
      rfl
    · rename_i hbar
      have hpast : ¬ (c = '|' ∧ d + depthOf [] = 0) := by rwa [depthOf_nil, Int.add_zero]
      rw [barsBetween_placed_pushFirst _ _ (barParts_ne_nil _ _), ih, plainAt_past hc hpast,
        Set.image_image, hstep]
      simp only [Nat.add_assoc]

/-- A part stands at its offset, behind the parts before it with a bar behind each. -/
theorem placed_eq_append (start : Nat) {parts : List Text} {front back : List (Nat × Text)} {p : Text}
    (h : placed start parts = front ++ (i, p) :: back) :
    ∃ rest, join ['|'] parts = (front.flatMap fun q => q.2 ++ ['|']) ++ (p ++ rest) ∧
      i = start + width (front.flatMap fun q => q.2 ++ ['|']) := by
  induction parts generalizing start front with
  | nil => simp [placed] at h
  | cons q qs ih =>
    rw [placed] at h
    cases front with
    | nil =>
      obtain ⟨hq, -⟩ := List.cons.inj h
      obtain ⟨rfl, rfl⟩ := Prod.mk.inj hq
      obtain ⟨rest, hrest⟩ : q <+: join ['|'] (q :: qs) := by
        cases qs with
        | nil => exact List.prefix_rfl
        | cons r rs => rw [join, List.append_assoc]; exact List.prefix_append _ _
      exact ⟨rest, hrest.symm, rfl⟩
    | cons r front =>
      rw [List.cons_append, List.cons.injEq] at h
      obtain ⟨rfl, h⟩ := h
      obtain ⟨rest, hjoin, hi⟩ := ih _ h
      have hne : qs ≠ [] := by
        rintro rfl
        simp [placed] at h
      obtain ⟨s, ss, rfl⟩ := List.exists_cons_of_ne_nil hne
      refine ⟨rest, ?_, ?_⟩
      · rw [join, hjoin]
        simp
      · have hbar : '|'.utf8Size = 1 := rfl
        rw [hi, List.flatMap_cons, width_append, width_append, width_cons, hbar, width_nil]
        simp only [Nat.add_assoc, Nat.add_zero]

theorem splitBars_eq_append {front back : List (Nat × Text)} {p : Text}
    (h : t.splitBars = front ++ (i, p) :: back) :
    t.before? i = some (front.flatMap fun q => q.2 ++ ['|']) ∧ t.between? i (i + p.width) = some p := by
  obtain ⟨rest, hjoin, hi⟩ := placed_eq_append 0 h
  rw [join_barParts] at hjoin
  rw [Nat.zero_add] at hi
  exact ⟨before?_eq_some_iff.2 ⟨p ++ rest, hjoin, hi.symm⟩,
    between?_eq_some_iff.2 ⟨_, rest, hjoin, hi.symm, rfl⟩⟩

/-! ## The bars in a loop -/

/-- The scan for bars as a loop over the characters behind byte `i`, with the offset where the part under way
begins. It breaks off where the depth does not fit in 32 bits or a part does not end between characters. -/
def seekBars (t : Text) :
    (i : Nat) → Text → (depth : Int) → (start : Nat) → Option (List (Nat × Text))
  | _, [], _, start => (t.between? start t.width).map fun p => [(start, p)]
  | i, c :: rest, depth, start =>
    if c = '\\' then
      match rest with
      | [] => (t.between? start t.width).map fun p => [(start, p)]
      | e :: rest => seekBars t (i + c.utf8Size + e.utf8Size) rest depth start
    else if c = '|' ∧ depth = 0 then do
      let p ← t.between? start i
      let ps ← seekBars t (i + 1) rest depth (i + 1)
      some ((start, p) :: ps)
    else if -2 ^ 31 ≤ depth + depthChange c ∧ depth + depthChange c < 2 ^ 31 then
      seekBars t (i + c.utf8Size) rest (depth + depthChange c) start
    else none

/-- Number of brackets of all kinds, escaped ones included. -/
def bracketCount (t : Text) : Nat := t.countP fun c => depthChange c != 0

theorem natAbs_depthChange_le (d : Int) (c : Char) (t : Text) :
    (d + depthChange c).natAbs + t.bracketCount ≤ d.natAbs + bracketCount (c :: t) := by
  rw [bracketCount, bracketCount, List.countP_cons]
  by_cases hc : depthChange c = 0
  · simp [hc]
  · have hone : (depthChange c).natAbs ≤ 1 := by
      unfold depthChange
      split_ifs <;> decide
    have hadd := Int.natAbs_add_le d (depthChange c)
    rw [if_pos (bne_iff_ne.2 hc)]
    omega

theorem seekBars_escape (t : Text) (i : Nat) (e : Char) (rest : Text) (d : Int) (start : Nat) :
    seekBars t i ('\\' :: e :: rest) d start =
      seekBars t (i + '\\'.utf8Size + e.utf8Size) rest d start := by
  rw [seekBars.eq_def]
  rfl

theorem seekBars_cons (t : Text) (i : Nat) (hc : c ≠ '\\') (rest : Text) (d : Int) (start : Nat) :
    seekBars t i (c :: rest) d start =
      if c = '|' ∧ d = 0 then do
        let p ← t.between? start i
        let ps ← seekBars t (i + 1) rest d (i + 1)
        some ((start, p) :: ps)
      else if -2 ^ 31 ≤ d + depthChange c ∧ d + depthChange c < 2 ^ 31 then
        seekBars t (i + c.utf8Size) rest (d + depthChange c) start
      else none := by
  rw [seekBars.eq_def]
  simp only [hc, if_false]

/-- The text is what lies in front of the part under way, what has been read of that part, and the rest. -/
theorem seekBars_append (front read rest : Text) (d : Int)
    (hfew : d.natAbs + rest.bracketCount < 2 ^ 31) :
    seekBars (front ++ (read ++ rest)) (width front + width read) rest d front.width =
      some (placed front.width (prepend read (barParts d rest))) := by
  have hwhole (front u : Text) : (front ++ u).between? front.width (front ++ u).width = some u :=
    between?_eq_some_iff.2 ⟨front, [], by simp, rfl, by simp⟩
  induction rest using unescaped.induct generalizing front read d with
  | case1 => rw [seekBars, hwhole, barParts_nil, prepend_first]; rfl
  | case2 =>
    rw [seekBars.eq_def, barParts.eq_def]
    simp only [if_true, hwhole, prepend_first]
    rfl
  | case3 e t ih =>
    have hfew' : d.natAbs + bracketCount t < 2 ^ 31 := by
      simp only [bracketCount, List.countP_cons] at hfew ⊢
      omega
    have ih := ih front (read ++ ['\\', e]) d hfew'
    rw [seekBars_escape, barParts_escape]
    simpa [prepend_append, Nat.add_assoc] using ih
  | case4 c t hc ih =>
    have hnext := natAbs_depthChange_le d c t
    rw [seekBars_cons _ _ hc, barParts_cons hc]
    split
    · rename_i hbar
      obtain ⟨rfl, rfl⟩ := hbar
      have hpart : (front ++ (read ++ '|' :: t)).between? front.width (front.width + read.width) =
          some read := between?_eq_some_iff.2 ⟨front, '|' :: t, rfl, rfl, rfl⟩
      have hsize : '|'.utf8Size = 1 := rfl
      have ih := ih (front ++ (read ++ ['|'])) [] 0 (Nat.lt_of_le_of_lt hnext hfew)
      simp only [List.append_assoc, List.singleton_append, List.nil_append, width_append, width_cons,
        width_nil, hsize, Nat.add_zero, prepend_nil, ← Nat.add_assoc] at ih
      rw [hpart, Option.bind_eq_bind, Option.bind_some, ih, prepend_first, List.append_nil]
      rfl
    · rw [if_pos (by omega)]
      have ih := ih front (read ++ [c]) (d + depthChange c) (by omega)
      simpa [prepend_append, Nat.add_assoc] using ih

/-! ## The closing bracket -/

theorem IsFirstOf.shift {s : Set Nat} {r : Option Nat} (h : IsFirstOf s r) (k : Nat) :
    IsFirstOf ((k + ·) '' s) (r.map (k + ·)) := by
  cases r with
  | none =>
    have hempty : s = ∅ := h
    rw [hempty, Set.image_empty]
    exact rfl
  | some i => exact Monotone.map_isLeast (fun _ _ hij => Nat.add_le_add_left hij k) h

theorem closingIn?_isFirst {opener closer : Char} (hne : opener ≠ closer) (hcloser : closer ≠ '\\')
    (depth : Nat) (t : Text) :
    IsFirstOf (plainAt closer (fun q => q.count closer = depth + q.count opener) t)
      (closingIn? opener closer (depth + 1) t) := by
  induction t using unescaped.induct generalizing depth with
  | case1 => rw [plainAt_nil, closingIn?_nil]; exact rfl
  | case2 => rw [plainAt_backslash hcloser, closingIn?.eq_def]; exact rfl
  | case3 e t ih =>
    rw [plainAt_escape hcloser, closingIn?_escape]
    exact (ih depth).shift _
  | case4 c t hc ih =>
    -- a character that is passed over changes the number of open brackets
    have hpast (depth' : Nat) (hhere : ¬ (c = closer ∧ 0 = depth))
        (hcount : depth' + [c].count closer = depth + [c].count opener) :
        IsFirstOf (plainAt closer (fun q => q.count closer = depth + q.count opener) (c :: t))
          ((closingIn? opener closer (depth' + 1) t).map (c.utf8Size + ·)) := by
      have hstep : plainAt closer (fun q => (c :: q).count closer = depth + (c :: q).count opener) t =
          plainAt closer (fun q => q.count closer = depth' + q.count opener) t :=
        plainAt_congr fun q => by
          rw [count_cons_add c q closer, count_cons_add c q opener]
          omega
      rw [plainAt_past hc (by simpa using hhere), hstep]
      exact (ih depth').shift _
    rw [closingIn?_cons hc]
    split
    · rename_i hopener
      exact hpast (depth + 1) (fun h => hne (hopener ▸ h.1)) (by simp [hopener, hne])
    · rename_i hopener
      split
      · rename_i hc'
        split
        · rename_i hzero
          subst hc' hzero
          exact ⟨⟨[], t, rfl, rfl, rfl, rfl⟩, fun _ _ => Nat.zero_le _⟩
        · rename_i hdepth
          obtain ⟨depth, rfl⟩ := Nat.exists_eq_succ_of_ne_zero hdepth
          subst hc'
          exact hpast depth (fun h => hdepth h.2.symm) (by simp [hopener])
      · rename_i hc'
        exact hpast depth (fun h => hc' h.1) (by simp [hopener, hc'])

/-- An unescaped `closer` at byte `k`; from byte `start` to it, the `closer` included, as many are opened as
closed. Escapes are counted from `start` on. -/
def ClosesFrom (t : Text) (start : Nat) (opener closer : Char) (k : Nat) : Prop :=
  ∃ u, t.between? start k = some u ∧ (∃ v, t.after? k = some (closer :: v)) ∧ LeavesPlain u ∧
    (unescaped u ++ [closer]).count opener = (unescaped u ++ [closer]).count closer

theorem closesFrom_behind {opener closer : Char} {front rest : Text} (hne : opener ≠ closer)
    (hopener : opener ≠ '\\') :
    {k | front.width < k ∧ (front ++ opener :: rest).ClosesFrom front.width opener closer k} =
      (front.width + ·) '' ((opener.utf8Size + ·) ''
        plainAt closer (fun q => q.count closer = 0 + q.count opener) rest) := by
  have hcount (u : Text) : (unescaped (opener :: u) ++ [closer]).count opener =
      (unescaped (opener :: u) ++ [closer]).count closer ↔
        (unescaped u).count closer = 0 + (unescaped u).count opener := by
    rw [unescaped_cons hopener, List.cons_append, List.count_cons_self, List.count_cons_of_ne hne,
      List.count_append, List.count_append, List.count_singleton_self,
      List.count_eq_zero.2 (List.mem_singleton.not.2 hne)]
    omega
  ext k
  constructor
  · rintro ⟨hk, u, hu, ⟨v, hv⟩, hplain, hequal⟩
    obtain ⟨r, hr, hr'⟩ := after?_of_between? hu
    obtain ⟨-, -, -, -, hwidth⟩ := between?_eq_some_iff.1 hu
    subst hwidth
    obtain rfl : r = closer :: v := Option.some.inj (hr'.symm.trans hv)
    rw [after?_append, Option.some_inj] at hr
    cases u with
    | nil => simp at hk
    | cons d u =>
      obtain ⟨rfl, rfl⟩ := List.cons.inj hr
      rw [leavesPlain_iff, escapesEnd_cons hopener] at hplain
      exact ⟨_, ⟨_, ⟨u, v, rfl, rfl, hplain, (hcount u).1 hequal⟩, rfl⟩, rfl⟩
  · rintro ⟨-, ⟨-, ⟨u, v, rfl, rfl, hend, hequal⟩, rfl⟩, rfl⟩
    have hu : (front ++ opener :: (u ++ closer :: v)).between? front.width
        (front.width + width (opener :: u)) = some (opener :: u) :=
      between?_eq_some_iff.2 ⟨front, closer :: v, rfl, rfl, rfl⟩
    have hv : (front ++ opener :: (u ++ closer :: v)).after? (front.width + width (opener :: u)) =
        some (closer :: v) := after?_eq_some_iff.2 ⟨front ++ opener :: u, by simp, by simp⟩
    have hpos := opener.utf8Size_pos
    refine ⟨?_, opener :: u, hu, ⟨v, hv⟩, ?_, (hcount u).2 hequal⟩
    · dsimp only
      omega
    · rwa [leavesPlain_iff, escapesEnd_cons hopener]

/-- Behind an opening bracket the scan begins with one open. -/
theorem closing?_append {opener : Char} (hopener : opener ≠ '\\') (front rest : Text) (closer : Char) :
    (front ++ opener :: rest).closing? front.width opener closer =
      ((closingIn? opener closer 1 rest).map (opener.utf8Size + ·)).map (front.width + ·) := by
  rw [closing?, after?_append, Option.bind_eq_bind, Option.bind_some, closingIn?_opener hopener]
  cases closingIn? opener closer 1 rest <;> rfl

theorem closing?_isFirst {opener closer : Char} (hne : opener ≠ closer) (hopener : opener ≠ '\\')
    (hcloser : closer ≠ '\\') (front rest : Text) :
    IsFirstOf {k | front.width < k ∧
        (front ++ opener :: rest).ClosesFrom front.width opener closer k}
      ((front ++ opener :: rest).closing? front.width opener closer) := by
  rw [closesFrom_behind hne hopener, closing?_append hopener]
  exact ((closingIn?_isFirst hne hcloser 0 rest).shift _).shift _

/-- What stands between the opening bracket and the one that closes it. -/
theorem balanced_of_closing? {opener closer : Char} (hne : opener ≠ closer) (hopener : opener ≠ '\\')
    {front rest : Text}
    (h : (front ++ opener :: rest).closing? front.width opener closer = some i) :
    ∃ inside, (front ++ opener :: rest).between? (front.width + opener.utf8Size) i = some inside ∧
      Balanced opener closer inside := by
  rw [closing?_append hopener, Option.map_map] at h
  obtain ⟨n, hn, rfl⟩ := Option.map_eq_some_iff.1 h
  obtain ⟨u, v, rfl, rfl, hu⟩ := takesBack_of_closingIn? hne hn
  refine ⟨u, between?_eq_some_iff.2 ⟨front ++ [opener], closer :: v, ?_, ?_, ?_⟩,
    (takesBack_zero.1 hu).2⟩
  · simp
  · simp
  · simp [Nat.add_assoc]

/-! ## Both scans -/

/-- Cutting at bars: the parts with the bars between them are the text. Each part stands at its offset, and in
front of it stand the parts before it with a bar behind each. The places between the parts are those of the
bars that are not escaped and in front of which as many unescaped brackets are opened as closed. With fewer
than 2 ^ 31 brackets, a loop with a depth of 32 bits gives the same parts.

Closing an opening bracket: found is the first unescaped closing bracket with which as many are closed as
opened, and nothing just when there is none. What stands between the two brackets is balanced. -/
theorem scans_exact (t : Text) :
    join ['|'] (t.splitBars.map Prod.snd) = t ∧
    (∀ front i p back, t.splitBars = front ++ (i, p) :: back →
      t.before? i = some (front.flatMap fun q => q.2 ++ ['|']) ∧
        t.between? i (i + p.width) = some p) ∧
    (∀ i, i ∈ barsBetween t.splitBars ↔ t.IsOuterBar i) ∧
    (t.bracketCount < 2 ^ 31 → t.seekBars 0 t 0 0 = some t.splitBars) ∧
    ∀ start opener closer, opener ≠ closer → opener ≠ '\\' → closer ≠ '\\' →
      (∃ rest, t.after? start = some (opener :: rest)) →
        (∀ i, t.closing? start opener closer = some i ↔
          IsLeast {k | start < k ∧ t.ClosesFrom start opener closer k} i) ∧
        (t.closing? start opener closer = none ↔
          ∀ k, start < k → ¬ t.ClosesFrom start opener closer k) ∧
        ∀ i, t.closing? start opener closer = some i →
          ∃ inside, t.between? (start + opener.utf8Size) i = some inside ∧
            Balanced opener closer inside := by
  refine ⟨?_, fun front i p back => splitBars_eq_append, fun i => ?_, fun hfew => ?_, ?_⟩
  · rw [map_snd_splitBars, join_barParts]
  · rw [isOuterBar_iff, splitBars, mem_barsBetween_iff]
    simp
  · exact seekBars_append [] [] t 0 (by simpa using hfew)
  · rintro start opener closer hne hopener hcloser ⟨rest, hrest⟩
    obtain ⟨front, rfl, rfl⟩ := after?_eq_some_iff.1 hrest
    have hfirst := closing?_isFirst hne hopener hcloser front rest
    refine ⟨fun i => hfirst.eq_some_iff, ?_, fun i => balanced_of_closing? hne hopener⟩
    rw [hfirst.eq_none_iff, Set.eq_empty_iff_forall_notMem]
    exact forall_congr' fun k => not_and

/-- A letter of two bytes, an escaped bar, a bar and an escaped parenthesis inside parentheses, and a bar
that a parenthesis closed too early puts outside the brackets around it. -/
def crossing : Text :=
  ['é', '\\', '|', '|', '(', '\\', ')', '|', 'b', ')', '|', ')', '[', '|', ']']

/-- The escaped parenthesis does not close, and the bar between the square brackets cuts. -/
theorem scans_exact_crossing :
    crossing.splitBars = [(0, ['é', '\\', '|']), (5, ['(', '\\', ')', '|', 'b', ')']),
      (12, [')', '[']), (15, [']'])] ∧
    crossing.bracketCount < 2 ^ 31 ∧ crossing.seekBars 0 crossing 0 0 = some crossing.splitBars ∧
    crossing.between? 12 14 = some [')', '['] ∧
    crossing.IsOuterBar 14 ∧ ¬ crossing.IsOuterBar 3 ∧ ¬ crossing.IsOuterBar 8 ∧
    '(' ≠ ')' ∧ '(' ≠ '\\' ∧ ')' ≠ '\\' ∧ (∃ rest, crossing.after? 5 = some ('(' :: rest)) ∧
    IsLeast {k | 5 < k ∧ crossing.ClosesFrom 5 '(' ')' k} 10 ∧
    ∃ inside, crossing.between? 6 10 = some inside ∧ Balanced '(' ')' inside := by
  obtain ⟨-, hparts, hbars, hloop, hclosing⟩ := scans_exact crossing
  have hsplit : crossing.splitBars = [(0, ['é', '\\', '|']), (5, ['(', '\\', ')', '|', 'b', ')']),
      (12, [')', '[']), (15, [']'])] := by decide
  have hfew : crossing.bracketCount < 2 ^ 31 := by
    have hcount : crossing.bracketCount = 6 := by decide
    omega
  have hopen : ∃ rest, crossing.after? 5 = some ('(' :: rest) := ⟨_, rfl⟩
  have hclosed : crossing.closing? 5 '(' ')' = some 10 := by decide
  have hbetween := (hparts [_, _] 12 [')', '['] [_] hsplit).2
  obtain ⟨hfirst, -, hinside⟩ := hclosing 5 '(' ')' (by decide) (by decide) (by decide) hopen
  refine ⟨hsplit, hfew, hloop hfew, hbetween, (hbars 14).1 ?_, mt (hbars 3).2 ?_, mt (hbars 8).2 ?_,
    by decide, by decide, by decide, hopen, (hfirst 10).1 hclosed, hinside 10 hclosed⟩ <;>
    rw [hsplit] <;> decide

end Phrasebook.Text
