/-!
Text is a list of characters. A place in it is a byte offset into its UTF-8 form: the offset of a
character is the width of what stands before it. Offsets inside a character or past the end are
legal questions with no answer, so the cuts below are partial.
-/

namespace Phrasebook

/-- Script text, pattern text and everything cut out of them. -/
abbrev Text := List Char

namespace Text

/-- Number of bytes of the UTF-8 form. -/
def width : Text → Nat
  | [] => 0
  | c :: t => c.utf8Size + width t

@[simp] theorem width_nil : width [] = 0 := rfl

@[simp] theorem width_cons (c : Char) (t : Text) : width (c :: t) = c.utf8Size + width t := rfl

@[simp] theorem width_append (s t : Text) : width (s ++ t) = width s + width t := by
  induction s with
  | nil => simp
  | cons c s ih => simp [ih, Nat.add_assoc]

/-- The text cut in two at byte `n`. -/
def cut? : Text → Nat → Option (Text × Text)
  | t, 0 => some ([], t)
  | [], _ + 1 => none
  | c :: t, n + 1 =>
    if c.utf8Size ≤ n + 1 then (cut? t (n + 1 - c.utf8Size)).map fun (a, b) => (c :: a, b) else none

def before? (t : Text) (n : Nat) : Option Text :=
  (cut? t n).map (·.1)

def after? (t : Text) (n : Nat) : Option Text :=
  (cut? t n).map (·.2)

def between? (t : Text) (i j : Nat) : Option Text := do
  let rest ← t.after? i
  if i ≤ j then before? rest (j - i) else none

/-- The pieces between the characters that `sep` marks; always at least one. -/
def splitWhen (sep : Char → Bool) : Text → List Text
  | [] => [[]]
  | c :: t =>
    if sep c then [] :: splitWhen sep t
    else
      match splitWhen sep t with
      | [] => [[c]]
      | p :: ps => (c :: p) :: ps

def join (sep : Text) : List Text → Text
  | [] => []
  | [p] => p
  | p :: q :: ps => p ++ sep ++ join sep (q :: ps)

theorem cut?_append (s t : Text) : cut? (s ++ t) (width s) = some (s, t) := by
  induction s with
  | nil => cases t <;> rfl
  | cons c s ih =>
    have hc := c.utf8Size_pos
    obtain ⟨n, hn⟩ : ∃ n, c.utf8Size + width s = n + 1 := ⟨c.utf8Size + width s - 1, by omega⟩
    have hs : n + 1 - c.utf8Size = width s := by omega
    have hle : c.utf8Size ≤ n + 1 := by omega
    simp only [List.cons_append, width_cons, hn, cut?, hle, if_true, hs, ih, Option.map_some]

theorem append_of_cut? {t a b : Text} {n : Nat} (h : cut? t n = some (a, b)) :
    t = a ++ b ∧ width a = n := by
  induction t generalizing n a b with
  | nil =>
    cases n with
    | zero => simp only [cut?, Option.some.injEq, Prod.mk.injEq] at h; simp [← h.1, ← h.2]
    | succ n => simp [cut?] at h
  | cons c t ih =>
    cases n with
    | zero => simp only [cut?, Option.some.injEq, Prod.mk.injEq] at h; simp [← h.1, ← h.2]
    | succ n =>
      simp only [cut?] at h
      split at h
      · rename_i hle
        obtain ⟨⟨a', b'⟩, hcut, heq⟩ := Option.map_eq_some_iff.1 h
        obtain ⟨rfl, rfl⟩ := Prod.mk.inj heq
        obtain ⟨rfl, hw⟩ := ih hcut
        exact ⟨rfl, by simp only [width_cons]; omega⟩
      · cases h

end Text

end Phrasebook
