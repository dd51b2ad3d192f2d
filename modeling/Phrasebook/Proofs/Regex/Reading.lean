import Phrasebook.Regex.Engine
import Phrasebook.Regex.Reading
import Mathlib.Data.List.TakeDrop

/-!
Reading stays the same in front of more text. What a reader finds at the beginning of a text it also
finds when the end of an anchored expression follows, and leaves as much more: no reader looks past
what it takes for anything that a closing parenthesis could change.
-/

namespace Phrasebook.Regex

/-- The end of an anchored expression. -/
def anchorEnd : Text := [')', '$']

/-! ## Runs of characters -/

section Runs

variable {p : Char → Bool} {s r : Text} {c : Char}

theorem drop_takeWhile (p : Char → Bool) (s : Text) :
    s.drop (s.takeWhile p).length = s.dropWhile p :=
  calc s.drop (s.takeWhile p).length
      = (s.takeWhile p ++ s.dropWhile p).drop (s.takeWhile p).length := by
        rw [List.takeWhile_append_dropWhile]
    _ = s.dropWhile p := List.drop_left

theorem dropWhile_append_end (h : s.dropWhile p = c :: r) (e : Text) :
    (s ++ e).dropWhile p = c :: (r ++ e) := by
  rw [List.dropWhile_append, h]
  rfl

theorem takeWhile_append_end (h : s.dropWhile p = c :: r) (e : Text) :
    (s ++ e).takeWhile p = s.takeWhile p := by
  rw [List.takeWhile_append, if_neg]
  intro hl
  rw [← drop_takeWhile, hl, List.drop_length] at h
  cases h

/-- What a text does not begin with it does not begin with in front of the end either. -/
theorem append_end_ne (hc : c ≠ ')') (h : ∀ t, s ≠ c :: t) (t : Text) : s ++ anchorEnd ≠ c :: t := by
  cases s with
  | nil => exact fun heq => hc (List.cons.inj heq).1.symm
  | cons x s =>
    intro heq
    rw [List.cons_append] at heq
    exact h s (by rw [(List.cons.inj heq).1])

theorem append_end_ne_two {d : Char} (hc : c ≠ ')') (hd : d ≠ ')') (h : ∀ t, s ≠ c :: d :: t)
    (t : Text) : s ++ anchorEnd ≠ c :: d :: t := by
  cases s with
  | nil => exact fun heq => hc (List.cons.inj heq).1.symm
  | cons x s =>
    intro heq
    obtain ⟨rfl, htail⟩ := List.cons.inj heq
    exact append_end_ne hd (fun u (hu : s = d :: u) => h u (by rw [hu])) t htail

end Runs

variable {s r : Text}

/-! ## Escapes -/

theorem codePoint?_append {n : Nat} {x : Escaped} (h : codePoint? n s = some (x, r)) :
    codePoint? n (s ++ anchorEnd) = some (x, r ++ anchorEnd) := by
  unfold codePoint? at h
  split at h
  · rename_i t
    rw [List.cons_append, codePoint?]
    dsimp only at h ⊢
    rw [drop_takeWhile] at h ⊢
    obtain ⟨rest, hrest, h⟩ := Option.bind_eq_some_iff.1 h
    obtain ⟨c, hdrop⟩ : ∃ c, t.dropWhile (· ≠ '}') = c :: rest := by
      cases hd : t.dropWhile (· ≠ '}') with
      | nil => rw [hd] at hrest; cases hrest
      | cons c u => rw [hd] at hrest; cases hrest; exact ⟨c, rfl⟩
    rw [takeWhile_append_end hdrop, dropWhile_append_end hdrop]
    simp only [Option.bind_eq_bind, List.tail?_cons, Option.bind_some]
    split at h
    · cases h
    · rename_i hne
      rw [if_neg hne]
      obtain ⟨v, hv, h⟩ := Option.bind_eq_some_iff.1 h
      obtain ⟨c, hc, h⟩ := Option.bind_eq_some_iff.1 h
      cases h
      rw [hv, Option.bind_some, hc]
      rfl
  · rename_i hs
    have hs' := append_end_ne (by decide) (fun t ht => hs t ht)
    dsimp only at h
    split at h
    · cases h
    · rename_i hn
      obtain ⟨v, hv, h⟩ := Option.bind_eq_some_iff.1 h
      obtain ⟨c, hc, h⟩ := Option.bind_eq_some_iff.1 h
      cases h
      unfold codePoint?
      split
      · rename_i t ht
        exact absurd ht (hs' t)
      · rw [List.take_append_of_le_length (by omega), List.drop_append_of_le_length (by omega)]
        dsimp only
        rw [if_neg (by rw [List.length_append]; omega), hv]
        simp [hc]

theorem boundary?_append {x : Escaped} (h : boundary? s = some (x, r)) :
    boundary? (s ++ anchorEnd) = some (x, r ++ anchorEnd) := by
  unfold boundary? at h
  split at h
  · cases h
  · rename_i c t
    rw [List.cons_append, List.cons_append, boundary?]
    · split at h
      · rename_i hc
        rw [if_pos hc]
        split at h
        · rename_i rest hrest
          rw [dropWhile_append_end hrest, takeWhile_append_end hrest]
          dsimp only at h ⊢
          split at h <;> cases h <;> simp_all
        · cases h
      · rename_i hc
        rw [if_neg hc]
        cases h
        rfl
  · rename_i hone htwo
    cases h
    have hs : ∀ t, s ≠ '{' :: t := by
      intro t ht
      cases t with
      | nil => exact hone ht
      | cons c t => exact htwo c t ht
    have hs' := append_end_ne (by decide) hs
    unfold boundary?
    split
    · rename_i heq
      exact absurd heq (hs' _)
    · rename_i heq
      exact absurd heq (hs' _)
    · rfl

theorem escape?_append {x : Escaped} (h : escape? s = some (x, r)) :
    escape? (s ++ anchorEnd) = some (x, r ++ anchorEnd) := by
  cases s with
  | nil => cases h
  | cons c t =>
    rw [List.cons_append]
    unfold escape? at h ⊢
    split at h
    · cases h
    · rename_i c t heq
      cases heq
      split at h
      all_goals try (cases h; rfl)
      case h_1 | h_2 | h_3 => exact codePoint?_append h
      case h_18 => exact boundary?_append h
      case h_22 =>
        split at h
        · rename_i hc
          cases h
          rw [if_pos hc]
        · cases h

/-! ## Bracketed sets -/

theorem setItem?_append {x : Escaped} (h : setItem? s = some (x, r)) :
    setItem? (s ++ anchorEnd) = some (x, r ++ anchorEnd) := by
  unfold setItem? at h
  split at h
  · cases h
  · rename_i t
    rw [List.cons_append, setItem?]
    obtain ⟨⟨y, u⟩, he, h⟩ := Option.bind_eq_some_iff.1 h
    rw [escape?_append he]
    cases y with
    | look l => cases h
    | char c => cases h; rfl
    | set s => cases h; rfl
  · rename_i c t hc
    cases h
    rw [List.cons_append, setItem?]
    exact hc

theorem setRange?_append {x : CharSet} (h : setRange? s = some (x, r)) :
    setRange? (s ++ anchorEnd) = some (x, r ++ anchorEnd) := by
  unfold setRange? at h ⊢
  obtain ⟨⟨first, t⟩, hfirst, h⟩ := Option.bind_eq_some_iff.1 h
  rw [setItem?_append hfirst]
  simp only [Option.bind_eq_bind, Option.bind_some] at h ⊢
  split at h
  · cases h
  · cases h
    rfl
  · cases h
    rfl
  · rename_i t hclose hdash
    obtain ⟨⟨last, u⟩, hlast, hrange⟩ := Option.bind_eq_some_iff.1 h
    -- the character after the dash is there, so the end does not change what the dash means
    obtain ⟨c, t, rfl⟩ : ∃ c v, t = c :: v := List.exists_cons_of_ne_nil (by rintro rfl; cases hlast)
    rw [List.cons_append]
    split
    · rename_i heq
      cases heq
    · rename_i heq
      cases heq
      exact absurd rfl (hclose _)
    · rename_i heq
      cases heq
      exact absurd rfl (hdash _)
    · rename_i v _ _ heq
      obtain rfl : v = c :: t ++ anchorEnd := (List.cons.inj heq).2.symm
      rw [setItem?_append hlast, Option.bind_some]
      dsimp only at hrange ⊢
      split at hrange
      · split at hrange
        · rename_i hab
          cases hrange
          rw [if_pos hab]
        · cases hrange
      · cases hrange
    · rename_i hne
      exact absurd rfl (hne _)
  · rename_i hnil hclose hdash hitem
    cases h
    obtain ⟨c, t, rfl⟩ := List.exists_cons_of_ne_nil hnil
    split
    · rename_i heq
      cases heq
    · rename_i heq
      exact absurd (congrArg (· :: t) (List.cons.inj heq).1) (hitem t)
    · rename_i heq
      exact absurd (congrArg (· :: t) (List.cons.inj heq).1) (hitem t)
    · rename_i heq
      exact absurd (congrArg (· :: t) (List.cons.inj heq).1) (hitem t)
    · rfl

/-- Whether a set is complemented, and what follows the sign of that. -/
def signed (t : Text) : Bool × Text :=
  match t with
  | '^' :: t => (true, t)
  | t => (false, t)

theorem signed_append (t : Text) :
    signed (t ++ anchorEnd) = ((signed t).1, (signed t).2 ++ anchorEnd) := by
  unfold signed
  split
  · rename_i u heq
    cases t with
    | nil => cases heq
    | cons c t =>
      obtain ⟨rfl, rfl⟩ := List.cons.inj heq
      rfl
  · rename_i hne
    split
    · exact absurd rfl (hne _)
    · rfl

/-- The inside of a named set, after the sign of a complement. -/
def namedBody? (negated : Bool) (t : Text) : Option (CharSet × Text) := do
  let ranges ← asciiRanges? (String.ofList (t.takeWhile (· ≠ ':')))
  let s : CharSet := .ofRanges (ranges.map fun (a, b) => (a.toNat, b.toNat))
  match t.dropWhile (· ≠ ':') with
  | ':' :: ']' :: rest => some (if negated then s.complement else s, rest)
  | _ => none

theorem namedSet?_cons (t : Text) :
    namedSet? (':' :: t) = namedBody? (signed t).1 (signed t).2 := by
  unfold namedSet? namedBody?
  simp only [drop_takeWhile]
  rfl

theorem namedBody?_append (negated : Bool) (t : Text) :
    namedBody? negated (t ++ anchorEnd) =
      (namedBody? negated t).map fun (x, r) => (x, r ++ anchorEnd) := by
  unfold namedBody?
  cases hd : t.dropWhile (· ≠ ':') with
  | nil =>
    -- no colon ends the name, and the end of an anchored expression has none
    rw [List.dropWhile_append, hd, if_pos List.isEmpty_nil,
      show anchorEnd.dropWhile (· ≠ ':') = [] by decide]
    cases asciiRanges? (String.ofList ((t ++ anchorEnd).takeWhile (· ≠ ':'))) <;>
      cases asciiRanges? (String.ofList (t.takeWhile (· ≠ ':'))) <;> rfl
  | cons c u =>
    rw [takeWhile_append_end hd, dropWhile_append_end hd]
    cases asciiRanges? (String.ofList (t.takeWhile (· ≠ ':'))) with
    | none => rfl
    | some ranges =>
      simp only [Option.bind_eq_bind, Option.bind_some]
      cases u with
      | nil => split <;> simp_all [anchorEnd]
      | cons d u => split <;> simp_all

theorem namedSet?_append (t : Text) :
    namedSet? (t ++ anchorEnd) = (namedSet? t).map fun (x, r) => (x, r ++ anchorEnd) := by
  cases t with
  | nil => rfl
  | cons c t =>
    by_cases hc : c = ':'
    · subst hc
      rw [List.cons_append, namedSet?_cons, namedSet?_cons, signed_append, namedBody?_append]
    · have hnone (u : Text) : namedSet? (c :: u) = none := by
        unfold namedSet?
        split
        · rename_i heq
          exact absurd (List.cons.inj heq).1 hc
        · rfl
      rw [List.cons_append, hnone, hnone]
      rfl

/-- The start of a bracketed set, after the sign of a complement. -/
def openBody (negated : Bool) (t : Text) : Bool × Items × Text :=
  let dashes := t.takeWhile (· == '-')
  let items := dashes.foldl (fun items c => items.add (.single c)) ({} : Items)
  match dashes, t.dropWhile (· == '-') with
  | [], ']' :: t => (negated, items.add (.single ']'), t)
  | _, t => (negated, items, t)

theorem openSet_eq (t : Text) : openSet t = openBody (signed t).1 (signed t).2 := by
  unfold openSet openBody
  simp only [← drop_takeWhile]
  rfl

theorem openSet_append (t : Text) :
    openSet (t ++ anchorEnd) =
      ((openSet t).1, (openSet t).2.1, (openSet t).2.2 ++ anchorEnd) := by
  rw [openSet_eq, openSet_eq, signed_append]
  generalize (signed t).1 = negated
  generalize (signed t).2 = u
  unfold openBody
  cases hd : u.dropWhile (· == '-') with
  | nil =>
    have hu : u.takeWhile (· == '-') = u := by
      have happ := List.takeWhile_append_dropWhile (p := (· == '-')) (l := u)
      rwa [hd, List.append_nil] at happ
    dsimp only
    rw [List.takeWhile_append, List.dropWhile_append, hd, hu, if_pos rfl, if_pos List.isEmpty_nil,
      show anchorEnd.takeWhile (· == '-') = [] by decide,
      show anchorEnd.dropWhile (· == '-') = anchorEnd by decide, List.append_nil]
    cases u <;> rfl
  | cons c v =>
    dsimp only
    rw [takeWhile_append_end hd, dropWhile_append_end hd]
    cases u.takeWhile (· == '-') with
    | nil =>
      by_cases hc : c = ']'
      · subst hc
        rfl
      · simp [hc]
    | cons d ds => rfl

theorem setBody?_append {flags : Flags} {fuel fuel' : Nat} (hf : fuel ≤ fuel')
    {pending : Option (SetOp × SetPart)} {items : Items} {x : SetPart}
    (h : setBody? flags fuel pending items s = some (x, r)) :
    setBody? flags fuel' pending items (s ++ anchorEnd) = some (x, r ++ anchorEnd) := by
  induction fuel generalizing fuel' pending items s x r with
  | zero => cases h
  | succ fuel ih =>
    obtain ⟨fuel', rfl⟩ : ∃ n, fuel' = n + 1 := ⟨fuel' - 1, by omega⟩
    replace hf : fuel ≤ fuel' := by omega
    unfold setBody? at h
    dsimp only at h
    split at h
    · cases h
    · cases h
      rw [List.cons_append, setBody?]
    · rw [List.cons_append, List.cons_append, setBody?]
      exact ih hf h
    · rw [List.cons_append, List.cons_append, setBody?]
      exact ih hf h
    · rw [List.cons_append, List.cons_append, setBody?]
      exact ih hf h
    · rename_i t
      rw [List.cons_append, setBody?, namedSet?_append]
      split at h
      · rename_i y u hnamed
        rw [hnamed]
        exact ih hf h
      · rename_i hnamed
        rw [hnamed, openSet_append]
        obtain ⟨⟨inner, u⟩, hinner, h⟩ := Option.bind_eq_some_iff.1 h
        dsimp only at hinner h ⊢
        rw [Option.map_none]
        dsimp only
        rw [ih hf hinner]
        exact ih hf h
    · rename_i hnil hclose hand hminus htilde hopen
      obtain ⟨⟨y, u⟩, hrange, h⟩ := Option.bind_eq_some_iff.1 h
      unfold setBody?
      dsimp only
      split
      · rename_i heq
        exact absurd (List.append_eq_nil_iff.1 heq).1 hnil
      · rename_i heq
        exact absurd heq (append_end_ne (by decide) (fun t => hclose t) _)
      · rename_i heq
        exact absurd heq (append_end_ne_two (by decide) (by decide) (fun t => hand t) _)
      · rename_i heq
        exact absurd heq (append_end_ne_two (by decide) (by decide) (fun t => hminus t) _)
      · rename_i heq
        exact absurd heq (append_end_ne_two (by decide) (by decide) (fun t => htilde t) _)
      · rename_i heq
        exact absurd heq (append_end_ne (by decide) (fun t => hopen t) _)
      · rw [setRange?_append hrange]
        exact ih hf h

theorem bracketed?_append {flags : Flags} {x : Part} (h : bracketed? flags s = some (x, r)) :
    bracketed? flags (s ++ anchorEnd) = some (x, r ++ anchorEnd) := by
  unfold bracketed? at h ⊢
  rw [openSet_append]
  rcases hopen : openSet s with ⟨negated, start, t⟩
  rw [hopen] at h
  obtain ⟨⟨inner, u⟩, hinner, h⟩ := Option.bind_eq_some_iff.1 h
  cases h
  dsimp only at hinner ⊢
  rw [setBody?_append (by simp) hinner]
  rfl

/-! ## Repetitions -/

theorem repeated?_append {min : Nat} {max : Option Nat} {pieces x : List Piece}
    (h : repeated? min max pieces s = some (x, r)) :
    repeated? min max pieces (s ++ anchorEnd) = some (x, r ++ anchorEnd) := by
  cases s with
  | nil =>
    unfold repeated? at h ⊢
    dsimp only at h
    split at h
    · cases h
      rfl
    · cases h
  | cons c s =>
    by_cases hc : c = '?'
    · subst hc
      unfold repeated? at h ⊢
      dsimp only [List.cons_append] at h ⊢
      split at h
      · cases h
        rfl
      · cases h
    · unfold repeated? at h ⊢
      dsimp only [List.cons_append] at h ⊢
      split at h
      · cases h
        simp [hc]
      · cases h

theorem count?_append {c : Char} (h : (count? s).2 = c :: r) :
    count? (s ++ anchorEnd) = ((count? s).1, c :: (r ++ anchorEnd)) := by
  unfold count? at h ⊢
  dsimp only at h ⊢
  rw [drop_takeWhile] at h ⊢
  obtain ⟨d, u, hu⟩ : ∃ d u, (s.dropWhile Text.isBlank).dropWhile Char.isDigit = d :: u := by
    refine List.exists_cons_of_ne_nil fun hnil => ?_
    rw [hnil] at h
    cases h
  obtain ⟨e, v, hv⟩ : ∃ e v, s.dropWhile Text.isBlank = e :: v := by
    refine List.exists_cons_of_ne_nil fun hnil => ?_
    rw [hnil] at hu
    cases hu
  rw [dropWhile_append_end hv, ← List.cons_append, ← hv, takeWhile_append_end hu,
    dropWhile_append_end hu, ← List.cons_append, ← hu, dropWhile_append_end h]

theorem bounds?_append {x : Nat × Option Nat} (h : bounds? s = some (x, r)) :
    bounds? (s ++ anchorEnd) = some (x, r ++ anchorEnd) := by
  unfold bounds? at h ⊢
  rcases hcount : count? s with ⟨low, t⟩
  rw [hcount] at h
  dsimp only at h
  obtain ⟨c, u, rfl⟩ : ∃ c u, t = c :: u := by
    refine List.exists_cons_of_ne_nil fun hnil => ?_
    rw [hnil] at h
    cases h
  have hcount' := count?_append (show (count? s).2 = c :: u by rw [hcount])
  rw [hcount] at hcount'
  rw [hcount']
  dsimp only
  split at h
  · rename_i t heq
    cases heq
    cases low with
    | none => cases h
    | some low => cases h; rfl
  · rename_i t heq
    cases heq
    cases low with
    | none => cases h
    | some low => cases h; rfl
  · rename_i t hclose heq
    cases heq
    cases low with
    | none => cases h
    | some low =>
      simp only [Option.bind_eq_bind, Option.bind_some] at h
      split at h
      · rename_i high t hhigh
        have hhigh' := count?_append (show (count? u).2 = '}' :: t by rw [hhigh])
        rw [hhigh] at hhigh'
        split
        · rename_i heq
          cases heq
        · rename_i heq
          exact absurd (List.cons.inj heq).2 (append_end_ne (by decide) (fun v => hclose v) _)
        · rename_i heq
          rw [← (List.cons.inj heq).2, hhigh']
          simp only [Option.bind_eq_bind, Option.bind_some]
          split at h
          · rename_i hle
            cases h
            rw [if_pos hle]
          · cases h
        · rename_i hother
          exact absurd rfl (hother _)
      · cases h
  · cases h

/-! ## Groups -/

theorem groupName?_append {names : List Text} {x : Text} (h : groupName? names s = some (x, r)) :
    groupName? names (s ++ anchorEnd) = some (x, r ++ anchorEnd) := by
  unfold groupName? at h ⊢
  dsimp only at h ⊢
  rw [drop_takeWhile] at h ⊢
  split at h
  · rename_i first others rest htake hdrop
    rw [takeWhile_append_end hdrop, dropWhile_append_end hdrop, htake]
    rw [htake] at h
    split at h
    · rename_i hok
      cases h
      exact if_pos hok
    · cases h
  · cases h

theorem directive?_append {flags flags' : Flags} {value : Bool} {used used' : List Char} {c : Char}
    (h : directive? flags value used s = some (flags', used', c, r)) :
    directive? flags value used (s ++ anchorEnd) = some (flags', used', c, r ++ anchorEnd) := by
  induction s generalizing flags value used with
  | nil => cases h
  | cons d s ih =>
    rw [directive?] at h
    rw [List.cons_append, directive?]
    split at h
    · rename_i hd
      rw [if_pos hd]
      split at h
      · cases h
      · rename_i hminus
        cases h
        rw [if_neg hminus]
    · rename_i hd
      rw [if_neg hd]
      split at h
      · cases h
      · rename_i hused
        rw [if_neg hused]
        split at h
        · rename_i hminus
          rw [if_pos hminus]
          exact ih h
        · rename_i hminus
          rw [if_neg hminus]
          obtain ⟨flags₁, hflags, h⟩ := Option.bind_eq_some_iff.1 h
          rw [hflags]
          exact ih h

/-- What the start of a group comes to when its name is read first. -/
def named? (seen : Seen) (t : Text) : Option (Opening × Text) := do
  let (name, t) ← groupName? seen.names t
  some (.recording { seen with groups := seen.groups + 1, names := name :: seen.names }, t)

theorem named?_append {seen : Seen} {x : Opening} (h : named? seen s = some (x, r)) :
    named? seen (s ++ anchorEnd) = some (x, r ++ anchorEnd) := by
  obtain ⟨⟨name, u⟩, hname, h⟩ := Option.bind_eq_some_iff.1 h
  cases h
  rw [named?, groupName?_append hname]
  rfl

/-- What it comes to when flags are read first. -/
def flagged? (seen : Seen) (t : Text) : Option (Opening × Text) := do
  let (flags, used, ending, t) ← directive? seen.flags true [] t
  if ending = ':' then some (.plain { seen with flags := flags }, t)
  else if used.isEmpty then none
  else some (.directive { seen with flags := flags }, t)

theorem flagged?_append {seen : Seen} {x : Opening} (h : flagged? seen s = some (x, r)) :
    flagged? seen (s ++ anchorEnd) = some (x, r ++ anchorEnd) := by
  obtain ⟨⟨flags, used, ending, u⟩, hdir, h⟩ := Option.bind_eq_some_iff.1 h
  dsimp only at h
  rw [flagged?, directive?_append hdir]
  simp only [Option.bind_eq_bind, Option.bind_some]
  split at h
  · rename_i hcolon
    cases h
    rw [if_pos hcolon]
  · rename_i hcolon
    rw [if_neg hcolon]
    split at h
    · cases h
    · rename_i hused
      cases h
      rw [if_neg hused]

/-- A mark of its own starts a group with a name or with flags. -/
theorem opening?_query {seen : Seen} (hnamed : ∀ t, s ≠ 'P' :: '<' :: t) (hplain : ∀ t, s ≠ '<' :: t) :
    opening? seen ('?' :: s) = flagged? seen s := by
  unfold opening?
  dsimp only
  split
  · rename_i heq
    exact absurd (List.cons.inj heq).2 (hnamed _)
  · rename_i heq
    exact absurd (List.cons.inj heq).2 (hplain _)
  · rename_i heq
    rw [← (List.cons.inj heq).2]
    rfl
  · rename_i hother
    exact absurd rfl (hother _)

theorem opening?_bare {seen : Seen} (hquery : ∀ t, s ≠ '?' :: t) :
    opening? seen s = some (.recording { seen with groups := seen.groups + 1 }, s) := by
  unfold opening?
  dsimp only
  split
  · exact absurd rfl (hquery _)
  · exact absurd rfl (hquery _)
  · exact absurd rfl (hquery _)
  · rfl

theorem opening?_append {seen : Seen} {x : Opening} (h : opening? seen s = some (x, r)) :
    opening? seen (s ++ anchorEnd) = some (x, r ++ anchorEnd) := by
  by_cases hquery : ∃ t, s = '?' :: t
  · obtain ⟨t, rfl⟩ := hquery
    by_cases hnamed : ∃ u, t = 'P' :: '<' :: u
    · obtain ⟨u, rfl⟩ := hnamed
      exact named?_append h
    by_cases hplain : ∃ u, t = '<' :: u
    · obtain ⟨u, rfl⟩ := hplain
      exact named?_append h
    rw [not_exists] at hnamed hplain
    rw [opening?_query hnamed hplain] at h
    rw [List.cons_append, opening?_query (append_end_ne_two (by decide) (by decide) hnamed)
      (append_end_ne (by decide) hplain)]
    exact flagged?_append h
  · rw [not_exists] at hquery
    rw [opening?_bare hquery] at h
    cases h
    exact opening?_bare (append_end_ne (by decide) hquery)

/-! ## Whole expressions -/

theorem tail?_append (h : s.tail? = some r) : (s ++ anchorEnd).tail? = some (r ++ anchorEnd) := by
  cases s with
  | nil => cases h
  | cons c s => cases h; rfl

theorem branches?_append {fuel fuel' : Nat} (hf : fuel ≤ fuel') {seen seen' : Seen}
    {others : List Part} {pieces : List Piece} {x : Part}
    (h : branches? fuel seen others pieces s = some (x, seen', r)) :
    branches? fuel' seen others pieces (s ++ anchorEnd) = some (x, seen', r ++ anchorEnd) := by
  induction fuel generalizing fuel' seen seen' others pieces s r x with
  | zero => cases h
  | succ fuel ih =>
    obtain ⟨fuel', rfl⟩ : ∃ n, fuel' = n + 1 := ⟨fuel' - 1, by omega⟩
    replace hf : fuel ≤ fuel' := by omega
    unfold branches? at h
    split at h
    · cases h
      rfl
    · cases h
      rw [List.cons_append, branches?]
    · rw [List.cons_append, branches?]
      exact ih hf h
    · obtain ⟨⟨ps, t⟩, hrep, h⟩ := Option.bind_eq_some_iff.1 h
      rw [List.cons_append, branches?, repeated?_append hrep]
      exact ih hf h
    · obtain ⟨⟨ps, t⟩, hrep, h⟩ := Option.bind_eq_some_iff.1 h
      rw [List.cons_append, branches?, repeated?_append hrep]
      exact ih hf h
    · obtain ⟨⟨ps, t⟩, hrep, h⟩ := Option.bind_eq_some_iff.1 h
      rw [List.cons_append, branches?, repeated?_append hrep]
      exact ih hf h
    · obtain ⟨⟨⟨min, max⟩, t⟩, hbounds, h⟩ := Option.bind_eq_some_iff.1 h
      obtain ⟨⟨ps, u⟩, hrep, h⟩ := Option.bind_eq_some_iff.1 h
      rw [List.cons_append, branches?, bounds?_append hbounds]
      simp only [Option.bind_eq_bind, Option.bind_some]
      rw [repeated?_append hrep]
      exact ih hf h
    · obtain ⟨⟨p, t⟩, hset, h⟩ := Option.bind_eq_some_iff.1 h
      rw [List.cons_append, branches?, bracketed?_append hset]
      exact ih hf h
    · obtain ⟨⟨opening, t⟩, hopen, h⟩ := Option.bind_eq_some_iff.1 h
      rw [List.cons_append, branches?, opening?_append hopen]
      simp only [Option.bind_eq_bind, Option.bind_some]
      cases opening with
      | directive inner => exact ih hf h
      | plain inner =>
        obtain ⟨⟨p, after, u⟩, hinner, h⟩ := Option.bind_eq_some_iff.1 h
        obtain ⟨v, hv, h⟩ := Option.bind_eq_some_iff.1 h
        dsimp only
        rw [ih hf hinner, Option.bind_some, tail?_append hv, Option.bind_some]
        exact ih hf h
      | recording inner =>
        obtain ⟨⟨p, after, u⟩, hinner, h⟩ := Option.bind_eq_some_iff.1 h
        obtain ⟨v, hv, h⟩ := Option.bind_eq_some_iff.1 h
        dsimp only
        rw [ih hf hinner, Option.bind_some, tail?_append hv, Option.bind_some]
        exact ih hf h
    · obtain ⟨⟨found, t⟩, hescape, h⟩ := Option.bind_eq_some_iff.1 h
      rw [List.cons_append, branches?, escape?_append hescape]
      exact ih hf h
    · rw [List.cons_append, branches?]
      · exact ih hf h
      all_goals assumption

/-- What is read from an anchored expression. -/
def anchoredPart (p : Part) : Part :=
  sequence [.part ⟨.look .textEnd, 0⟩, .part ⟨p.node, p.nesting + 1⟩, .part ⟨.look .textStart, 0⟩]

theorem anchoredPart_node (p : Part) : (anchoredPart p).node =
    .ofParts (.look .textStart :: (p.node.parts ++ [.look .textEnd])) := by
  change Node.ofParts ([.look .textStart] ++ (p.node.parts ++ ([.look .textEnd] ++ []))) = _
  rw [List.append_nil]
  rfl

theorem branches?_anchored {source : Text} {p : Part} {seen : Seen}
    (h : branches? (source.length + 1) {} [] [] source = some (p, seen, [])) :
    branches? ((anchored source).length + 1) {} [] [] (anchored source) =
      some (anchoredPart p, { seen with flags := {} }, []) := by
  have hbody := branches?_append (show source.length + 1 ≤ source.length + 5 by omega) h
  have hopen : opening? {} ('?' :: ':' :: (source ++ anchorEnd)) =
      some (.plain {}, source ++ anchorEnd) := rfl
  have htext : anchored source = '^' :: '(' :: '?' :: ':' :: (source ++ anchorEnd) := rfl
  have hlength : (anchored source).length + 1 = source.length + 7 := by simp [htext, anchorEnd]
  rw [hlength, htext, branches?]
  · rw [branches?, hopen]
    simp only [Option.bind_eq_bind, Option.bind_some]
    rw [hbody]
    rfl
  all_goals decide

/-- The body of an anchored expression is the body of the expression between the tests of both ends of
the text. -/
theorem body_of_anchored {source : Text} {whole search : Machine}
    (hw : Machine.ofText? (anchored source) = some whole) (hs : Machine.ofText? source = some search) :
    whole.body = .ofParts (.look .textStart :: (search.body.parts ++ [.look .textEnd])) := by
  unfold Machine.ofText? at hw hs
  split at hs
  · rename_i p seen hread
    rw [branches?_anchored hread] at hw
    dsimp only at hw
    split at hs
    · cases hs
    · split at hw
      · cases hw
      · cases hs
        cases hw
        exact anchoredPart_node p
  · cases hs

end Phrasebook.Regex
