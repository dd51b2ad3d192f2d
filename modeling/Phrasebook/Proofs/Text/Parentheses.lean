import Phrasebook.Proofs.Text.Brackets
import Phrasebook.Proofs.Text.Place

/-!
Parentheses around a text. The scan for the closing bracket does not look past it, so a parenthesis
that is closed somewhere in a text is one around the piece up to there. Parentheses put around a text are
around it just when those of the text itself are balanced.
-/

namespace Phrasebook.Text

/-- The scan ends at byte `n` of a text, in front of the closing bracket, whatever stands behind
it. -/
def ClosesAt (opener closer : Char) (depth : Nat) (t : Text) (n : Nat) : Prop :=
  ∃ u v : Text, t = u ++ closer :: v ∧ u.width = n ∧
    ∀ w, closingIn? opener closer depth (u ++ closer :: w) = some n

/-- What the scan passes over may stand in front. -/
theorem ClosesAt.prepend {opener closer : Char} {depth depth' n : Nat} {s t : Text}
    (hstep : ∀ w, closingIn? opener closer depth (s ++ w) =
      (closingIn? opener closer depth' w).map (s.width + ·))
    (h : ClosesAt opener closer depth' t n) :
    ClosesAt opener closer depth (s ++ t) (s.width + n) := by
  obtain ⟨u, v, rfl, rfl, hw⟩ := h
  refine ⟨s ++ u, v, by simp, by simp, fun w => ?_⟩
  rw [List.append_assoc, hstep, hw, Option.map_some]

theorem closesAt_of_closingIn? {opener closer : Char} {t : Text} {depth n : Nat}
    (h : closingIn? opener closer (depth + 1) t = some n) :
    ClosesAt opener closer (depth + 1) t n := by
  induction t using unescaped.induct generalizing depth n with
  | case1 => simp at h
  | case2 =>
    rw [closingIn?.eq_def] at h
    simp at h
  | case3 e t ih =>
    have hstep (w : Text) : closingIn? opener closer (depth + 1) (['\\', e] ++ w) =
        (closingIn? opener closer (depth + 1) w).map (width ['\\', e] + ·) := by simp
    rw [closingIn?_escape] at h
    obtain ⟨m, hm, rfl⟩ := Option.map_eq_some_iff.1 h
    simpa using (ih hm).prepend hstep
  | case4 c t hc ih =>
    have hcons (w : Text) := closingIn?_cons hc opener closer depth w
    by_cases hco : c = opener
    · have hstep (w : Text) : closingIn? opener closer (depth + 1) ([c] ++ w) =
          (closingIn? opener closer (depth + 2) w).map (width [c] + ·) := by
        rw [List.singleton_append, hcons, if_pos hco]
        rfl
      rw [hcons, if_pos hco] at h
      obtain ⟨m, hm, rfl⟩ := Option.map_eq_some_iff.1 h
      simpa using (ih hm).prepend hstep
    · by_cases hcc : c = closer
      · cases depth with
        | zero =>
          rw [hcons, if_neg hco, if_pos hcc, if_pos rfl] at h
          cases h
          refine ⟨[], t, by rw [hcc]; rfl, rfl, fun w => ?_⟩
          have hw := hcons w
          rwa [if_neg hco, if_pos hcc, if_pos rfl, hcc] at hw
        | succ depth =>
          have hstep (w : Text) : closingIn? opener closer (depth + 2) ([c] ++ w) =
              (closingIn? opener closer (depth + 1) w).map (width [c] + ·) := by
            rw [List.singleton_append, hcons, if_neg hco, if_pos hcc, if_neg (by omega)]
            rfl
          rw [hcons, if_neg hco, if_pos hcc, if_neg (by omega)] at h
          obtain ⟨m, hm, rfl⟩ := Option.map_eq_some_iff.1 h
          simpa using (ih hm).prepend hstep
      · have hstep (w : Text) : closingIn? opener closer (depth + 1) ([c] ++ w) =
            (closingIn? opener closer (depth + 1) w).map (width [c] + ·) := by
          rw [List.singleton_append, hcons, if_neg hco, if_neg hcc]
          rfl
        rw [hcons, if_neg hco, if_neg hcc] at h
        obtain ⟨m, hm, rfl⟩ := Option.map_eq_some_iff.1 h
        simpa using (ih hm).prepend hstep

theorem width_parenthesized (t : Text) : width ('(' :: t ++ [')']) = t.width + 2 := by
  simp only [List.cons_append, width_cons, width_append, width_nil, show '('.utf8Size = 1 from rfl,
    show ')'.utf8Size = 1 from rfl]
  omega

/-- The parentheses are around the text if the scan from the first one ends at the last. -/
theorem unwrap?_of_closingIn? {t : Text} (h : closingIn? '(' ')' 1 (t ++ [')']) = some t.width) :
    unwrap? ('(' :: t ++ [')']) = some t := by
  have hclose : closing? ('(' :: t ++ [')']) 0 '(' ')' = some (1 + t.width) := by
    have hscan : closingIn? '(' ')' 0 ('(' :: (t ++ [')'])) = _ :=
      closingIn?_opener (by decide) ')' 0 _
    rw [h] at hscan
    change (closingIn? '(' ')' 0 ('(' :: (t ++ [')']))).bind _ = _
    rw [hscan]
    simp [show '('.utf8Size = 1 from rfl]
  have hinside : between? ('(' :: t ++ [')']) 1 (1 + t.width) = some t :=
    between?_eq_some_iff.2 ⟨['('], [')'], rfl, rfl, rfl⟩
  rw [List.cons_append, unwrap?, ← List.cons_append, hclose]
  simp only [Option.bind_eq_bind, Option.bind_some, hinside]
  rw [if_pos]
  rw [width_parenthesized]
  omega

/-- A text that begins with a parenthesis, cut where that one closes. -/
theorem closing?_eq_some {t rest : Text} {i close : Nat} (ht : t.after? i = some rest)
    (hopen : rest.head? = some '(') (h : t.closing? i '(' ')' = some close) :
    ∃ inside, t.between? (i + 1) close = some inside ∧
      t.between? i (close + 1) = some ('(' :: inside ++ [')']) ∧
      unwrap? ('(' :: inside ++ [')']) = some inside := by
  obtain ⟨rest', hrest', h⟩ := Option.bind_eq_some_iff.1 h
  cases ht.symm.trans hrest'
  obtain ⟨n, hn, h⟩ := Option.bind_eq_some_iff.1 h
  cases h
  obtain ⟨t', rfl⟩ : ∃ t', rest = '(' :: t' := by
    cases rest with
    | nil => cases hopen
    | cons c t' => cases hopen; exact ⟨t', rfl⟩
  rw [closingIn?_opener (by decide)] at hn
  obtain ⟨m, hm, rfl⟩ := Option.map_eq_some_iff.1 hn
  obtain ⟨u, v, rfl, rfl, hw⟩ := closesAt_of_closingIn? hm
  obtain ⟨a, rfl, rfl⟩ := after?_eq_some_iff.1 ht
  have hopener : '('.utf8Size = 1 := rfl
  refine ⟨u, ?_, ?_, ?_⟩
  · exact between?_eq_some_iff.2 ⟨a ++ ['('], ')' :: v, by simp, by simp [hopener], by omega⟩
  · refine between?_eq_some_iff.2 ⟨a, v, by simp, rfl, ?_⟩
    rw [width_parenthesized]
    omega
  · exact unwrap?_of_closingIn? (hw [])

/-- What stands inside the parentheses around a text is narrower than the text. -/
theorem unwrap?_width {t inside : Text} (h : unwrap? t = some inside) :
    inside.width < t.width := by
  unfold unwrap? at h
  split at h
  · obtain ⟨close, -, h⟩ := Option.bind_eq_some_iff.1 h
    split at h
    · rename_i hclose
      obtain ⟨a, b, -, -, hw⟩ := between?_eq_some_iff.1 h
      omega
    · cases h
  · cases h

theorem unwrap?_isInfix {t inside : Text} (h : unwrap? t = some inside) : inside <:+: t := by
  unfold unwrap? at h
  split at h
  · obtain ⟨close, -, h⟩ := Option.bind_eq_some_iff.1 h
    split at h
    · exact infix_of_between? h
    · cases h
  · cases h

/-- Parentheses around a text can be taken off again just when the text does not end inside an escape and
its own parentheses are balanced. -/
theorem unwrap?_parenthesized_iff {t : Text} :
    unwrap? ('(' :: t ++ [')']) = some t ↔ escapesEnd t = true ∧ Balanced '(' ')' t := by
  rw [← takesBack_zero]
  constructor
  · intro h
    obtain ⟨close, hclose, h⟩ := Option.bind_eq_some_iff.1 h
    obtain ⟨hend, -⟩ := Option.ite_none_right_eq_some.1 h
    rw [width_parenthesized] at hend
    obtain ⟨n, hn, hclose⟩ := Option.bind_eq_some_iff.1 hclose
    cases hclose
    change closingIn? '(' ')' 0 ('(' :: (t ++ [')'])) = some n at hn
    rw [closingIn?_opener (by decide)] at hn
    obtain ⟨m, hm, rfl⟩ := Option.map_eq_some_iff.1 hn
    obtain ⟨u, v, happend, hwidth, hu⟩ := takesBack_of_closingIn? (by decide) hm
    -- the first bracket that leaves none open is the last character, so nothing stands behind it
    have htotal := congrArg width happend
    simp only [width_cons, width_append, width_nil] at htotal
    have hopener : '('.utf8Size = 1 := rfl
    obtain rfl : v = [] := width_eq_zero.1 (by omega)
    rwa [List.append_cancel_right happend]
  · intro h
    refine unwrap?_of_closingIn? ?_
    exact (closingIn?_eq_some_iff (by decide) (by decide)).2 ⟨t, [], rfl, rfl, h⟩

end Phrasebook.Text
