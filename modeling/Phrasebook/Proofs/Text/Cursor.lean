import Phrasebook.Proofs.Search
import Phrasebook.Matching.Boundary
import Phrasebook.Proofs.Text.Case
import Phrasebook.Proofs.Text.Listing
import Phrasebook.Proofs.Text.Parentheses

/-!
Searches as loops over byte offsets. They keep nothing of the text but offsets into it, cut out what
they look at, and fault where a cut is not made at places. Started at a place they find what the
searches by recursion on the text find, so no cut of theirs ever faults.
-/

namespace Phrasebook.Text

/-- What stands from byte `i` to byte `j`, which must be places in this order. -/
def slice (t : Text) (i j : Nat) : Search Text := Search.cut (t.between? i j)

/-- Goes from one occurrence of `word` to the next until one has the blanks it asks for. -/
def seekSpaced (t word : Text) (spacedBefore spacedAfter : Bool) : (fuel start : Nat) → Search Nat
  | 0, _ => Search.fault .tooDeep
  | fuel + 1, start => do
    let i ← Search.ofOption (t.find? start word)
    let j ← Search.ofOption (t.occursAt? i word)
    let before ← t.slice 0 i
    let behind ← t.slice j t.width
    if (!spacedBefore || before.getLast?.all isBlank) && (!spacedAfter || behind.head?.all isBlank) then
      pure i
    else
      let here ← t.slice i t.width
      seekSpaced t word spacedBefore spacedAfter fuel (i + (here.head?.map Char.utf8Size).getD 1)

/-- The parts of a list and the conjunctions between them; the current part begins at byte `start`, the
scan is at byte `i`. -/
def scanList (t : Text) : (fuel start i : Nat) → (depth : Int) → (quoted : Bool) →
    Search (List Text × List String)
  | 0, _, _, _, _ => Search.fault .tooDeep
  | fuel + 1, start, i, depth, quoted => do
    let last : Search (List Text × List String) := do
      let part ← t.slice start t.width
      pure ([part], [])
    if t.width ≤ i then last
    else
      let rest ← t.slice i t.width
      match rest with
      | [] => last
      | c :: _ =>
        if c = '"' then scanList t fuel start (i + c.utf8Size) depth (!quoted)
        else if quoted then scanList t fuel start (i + c.utf8Size) depth quoted
        else if c = '(' then scanList t fuel start (i + c.utf8Size) (depth + 1) quoted
        else if c = ')' then scanList t fuel start (i + c.utf8Size) (depth - 1) quoted
        else if c = ',' ∧ depth = 0 then
          let part ← t.slice start i
          let behind ← t.slice (i + 1) t.width
          match conjunction? behind with
          | some (name, after) =>
            let j := i + 1 + (behind.width - after.width)
            let (ps, cs) ← scanList t fuel j j depth quoted
            pure (part :: ps, name :: cs)
          | none =>
            let (ps, cs) ← scanList t fuel (i + 1) (i + 1) depth quoted
            pure (part :: ps, cs)
        else if isBlank c ∧ depth = 0 then
          match conjunction? rest with
          | some (name, after) =>
            let part ← t.slice start i
            let j := i + (rest.width - after.width)
            let (ps, cs) ← scanList t fuel j j depth quoted
            pure (part :: ps, name :: cs)
          | none => scanList t fuel start (i + c.utf8Size) depth quoted
        else scanList t fuel start (i + c.utf8Size) depth quoted

/-- The parts of a list of two or more, and whether it stands for all of them. -/
def slicedList (t : Text) : Search (List Text × Bool) := do
  let (ps, cs) ← scanList t (t.length + 1) 0 0 0 false
  let ps := ps.map trim
  if ps.length < 2 || ps.any (·.isEmpty) then failure
  else pure (ps, !(!cs.isEmpty && cs.all (· == "or")))

/-- The inside of the parentheses around the whole text. -/
def slicedInside (t : Text) : Search Text :=
  match t with
  | '(' :: _ => do
    let close ← Search.ofOption (t.closing? 0 '(' ')')
    if close + 1 = t.width then t.slice 1 close else failure
  | _ => failure

/-! ## Cuts around a place -/

theorem slice_append (a u b : Text) :
    slice (a ++ (u ++ b)) a.width (a.width + u.width) = pure u := by
  rw [slice, between?_eq_some_iff.2 ⟨a, b, rfl, rfl, rfl⟩]
  rfl

theorem slice_before (a b : Text) : slice (a ++ b) 0 a.width = pure a := by
  have := slice_append [] a b
  rwa [width_nil, Nat.zero_add] at this

theorem slice_behind (a b : Text) : slice (a ++ b) a.width (a ++ b).width = pure b := by
  have := slice_append a b []
  rwa [List.append_nil, ← width_append] at this

/-! ## Occurrences of a word -/

variable {word t : Text} {before after : Bool}

theorem spacedOccurrence?_of_never {previous : Option Char} (h : firstOccurrence? word t = none) :
    spacedOccurrence? word before after previous t = none := by
  induction t generalizing previous with
  | nil => rfl
  | cons c t ih =>
    rw [firstOccurrence?] at h
    split at h
    · cases h
    · rename_i hfirst
      rw [spacedOccurrence?, if_neg (by simp [hfirst]), ih (Option.map_eq_none_iff.1 h)]
      rfl

/-- Only the first occurrence, and what stands behind its first character, can have the blanks. -/
theorem spacedOccurrence?_of_firstOccurrence? (before after : Bool) (previous : Option Char)
    (hword : word ≠ []) {n : Nat} (h : firstOccurrence? word t = some n) :
    ∃ (s : Text) (c : Char) (v : Text) (m : Nat),
      t = s ++ c :: v ∧ s.width = n ∧ agreeing? word (c :: v) = some m ∧
      spacedOccurrence? word before after previous t =
        if (!before || (s.getLast?.or previous).all isBlank) &&
            (!after || ((c :: v).drop word.length).head?.all isBlank) then some n
        else (spacedOccurrence? word before after (some c) v).map (n + c.utf8Size + ·) := by
  induction t generalizing previous n with
  | nil =>
    rw [firstOccurrence?, if_neg hword] at h
    cases h
  | cons c t ih =>
    rw [firstOccurrence?] at h
    split at h
    · rename_i hfirst
      cases h
      obtain ⟨m, hm⟩ := Option.isSome_iff_exists.1 hfirst
      refine ⟨[], c, t, m, rfl, rfl, hm, ?_⟩
      rw [spacedOccurrence?, hfirst, Bool.true_and]
      simp
    · rename_i hfirst
      obtain ⟨k, hk, rfl⟩ := Option.map_eq_some_iff.1 h
      obtain ⟨s, d, v, m, rfl, rfl, hm, heq⟩ := ih (some c) hk
      refine ⟨c :: s, d, v, m, rfl, rfl, hm, ?_⟩
      have hlast : (c :: s).getLast?.or previous = s.getLast?.or (some c) := by
        cases s <;> simp [List.getLast?_cons]
      rw [spacedOccurrence?, if_neg (by simp [hfirst]), heq, hlast]
      split
      · rfl
      · cases spacedOccurrence? word before after (some d) v <;> simp [Nat.add_assoc]

theorem agreeing?_drop {m : Nat} (h : agreeing? word t = some m) :
    ∃ u, t = u ++ t.drop word.length ∧ width u = m := by
  obtain ⟨u, v, rfl, hm, huv⟩ := agreeing?_eq_some h
  exact ⟨u, by rw [← huv.length_eq, List.drop_left], hm⟩

theorem after?_append (a b : Text) : after? (a ++ b) a.width = some b :=
  after?_eq_some_iff.2 ⟨a, rfl, rfl⟩

theorem find?_append (front rest word : Text) : find? (front ++ rest) front.width word =
    (firstOccurrence? word rest).map (front.width + ·) := by
  rw [find?, after?_append]
  simp only [Option.bind_eq_bind, Option.bind_some]
  cases firstOccurrence? word rest <;> rfl

theorem occursAt?_append (front rest word : Text) : occursAt? (front ++ rest) front.width word =
    (agreeing? word rest).map (front.width + ·) := by
  rw [occursAt?, after?_append]
  simp only [Option.bind_eq_bind, Option.bind_some]
  cases agreeing? word rest <;> rfl

theorem findSpaced?_append (front rest word : Text) (before after : Bool) :
    findSpaced? (front ++ rest) front.width word before after =
      (spacedOccurrence? word before after front.getLast? rest).map (front.width + ·) := by
  rw [findSpaced?, cut?_append]
  simp only [Option.bind_eq_bind, Option.bind_some]
  cases spacedOccurrence? word before after front.getLast? rest <;> rfl

/-- The loop where an occurrence begins with `c`: it stops there or goes on behind that character. -/
theorem seekSpaced_occurrence {front v : Text} {c : Char} {m : Nat} (fuel start : Nat)
    (hfind : find? (front ++ c :: v) start word = some front.width)
    (hm : agreeing? word (c :: v) = some m) :
    seekSpaced (front ++ c :: v) word before after (fuel + 1) start =
      if (!before || front.getLast?.all isBlank) &&
          (!after || ((c :: v).drop word.length).head?.all isBlank) then pure front.width
      else seekSpaced (front ++ c :: v) word before after fuel (front ++ [c]).width := by
  obtain ⟨u, hu, rfl⟩ := agreeing?_drop hm
  have hbehind : slice (front ++ c :: v) (front.width + u.width) (front ++ c :: v).width =
      pure ((c :: v).drop word.length) := by
    have ht : front ++ c :: v = (front ++ u) ++ (c :: v).drop word.length := by
      rw [List.append_assoc, ← hu]
    rw [ht, ← width_append front u, slice_behind]
  have hnext : front.width + (((c :: v).head?.map Char.utf8Size).getD 1) = (front ++ [c]).width := by
    simp
  rw [seekSpaced, hfind]
  change (Search.ofOption (occursAt? _ front.width word) >>= _) = _
  rw [occursAt?_append, hm]
  change (slice (front ++ c :: v) 0 front.width >>= _) = _
  rw [slice_before]
  change (slice (front ++ c :: v) (front.width + u.width) (front ++ c :: v).width >>= _) = _
  rw [hbehind]
  change ite _ _ _ = _
  rw [slice_behind]
  change ite _ _ (seekSpaced (front ++ c :: v) word before after fuel
    (front.width + (((c :: v).head?.map Char.utf8Size).getD 1))) = _
  rw [hnext]

theorem seekSpaced_eq (hword : word ≠ []) (front rest : Text) (fuel : Nat)
    (hfuel : rest.width < fuel) :
    seekSpaced (front ++ rest) word before after fuel front.width =
      Search.ofOption (findSpaced? (front ++ rest) front.width word before after) := by
  induction fuel generalizing front rest with
  | zero => omega
  | succ fuel ih =>
    have hfind := find?_append front rest word
    rw [findSpaced?_append]
    cases hfirst : firstOccurrence? word rest with
    | none =>
      rw [hfirst] at hfind
      rw [seekSpaced, hfind, spacedOccurrence?_of_never hfirst]
      rfl
    | some n =>
      obtain ⟨s, c, v, m, rfl, rfl, hm, heq⟩ :=
        spacedOccurrence?_of_firstOccurrence? before after front.getLast? hword hfirst
      rw [hfirst, Option.map_some, ← width_append, ← List.append_assoc] at hfind
      have hnext := ih (front ++ s ++ [c]) v (by
        have := c.utf8Size_pos
        simp only [width_append, width_cons] at hfuel
        omega)
      rw [findSpaced?_append, List.append_assoc (front ++ s), List.singleton_append,
        List.getLast?_concat] at hnext
      rw [← List.append_assoc, seekSpaced_occurrence fuel _ hfind hm, heq, hnext, List.getLast?_append]
      split
      · rw [Option.map_some, width_append]
        rfl
      · rw [Option.map_map]
        congr 2
        funext k
        simp only [width_append, width_cons, width_nil, Function.comp_apply]
        omega

/-! ## Lists and parentheses -/

/-- The scan over offsets, at the end of the current part, comes to the same as the recursion on what is
left of the text, if that is no longer than the fuel. -/
def ScansAlike (t : Text) (fuel : Nat) : Prop :=
  ∀ (front part rest : Text) (depth : Int) (quoted : Bool), t = front ++ part ++ rest →
    rest.length ≤ fuel →
      scanList t (fuel + 1) front.width (front ++ part).width depth quoted =
        pure (listParts fuel depth quoted part.reverse rest)

theorem scanList_end {front part : Text} (ht : t = front ++ part ++ []) (fuel : Nat) (depth : Int)
    (quoted : Bool) :
    scanList t (fuel + 1) front.width (front ++ part).width depth quoted =
      pure (listParts fuel depth quoted part.reverse []) := by
  have hlast : listParts fuel depth quoted part.reverse [] = ([part], []) := by
    cases fuel <;> simp [listParts]
  rw [List.append_nil] at ht
  subst ht
  rw [scanList, if_pos (Nat.le_refl _), slice_behind, hlast]
  rfl

/-- One more character of the current part. -/
theorem ScansAlike.next {fuel : Nat} (h : ScansAlike t fuel) {front part rest : Text} {c : Char}
    (ht : t = front ++ part ++ c :: rest) (hrest : rest.length ≤ fuel) (depth : Int) (quoted : Bool) :
    scanList t (fuel + 1) front.width ((front ++ part).width + c.utf8Size) depth quoted =
      pure (listParts fuel depth quoted (c :: part.reverse) rest) := by
  have hpart : t = front ++ (part ++ [c]) ++ rest := by
    rw [ht]
    simp
  have hwidth : (front ++ (part ++ [c])).width = (front ++ part).width + c.utf8Size := by
    rw [← List.append_assoc, width_append (front ++ part), width_cons, width_nil, Nat.add_zero]
  have := h front (part ++ [c]) rest depth quoted hpart hrest
  rwa [hwidth, List.reverse_concat] at this

/-- A separator ends the part, and the next one begins with a suffix of what was left. -/
theorem ScansAlike.jump {fuel : Nat} (h : ScansAlike t fuel) {front rest after : Text}
    (ht : t = front ++ rest) (hafter : after <:+ rest) (hshort : after.length ≤ fuel) (depth : Int)
    (quoted : Bool) :
    scanList t (fuel + 1) (front.width + (rest.width - after.width))
      (front.width + (rest.width - after.width)) depth quoted =
        pure (listParts fuel depth quoted [] after) := by
  obtain ⟨x, rfl⟩ := hafter
  have hskip : t = front ++ x ++ [] ++ after := by
    rw [ht]
    simp
  have hwidth : front.width + (Text.width (x ++ after) - after.width) = (front ++ x).width := by
    rw [width_append x, Nat.add_sub_cancel, width_append]
  have := h (front ++ x) [] after depth quoted hskip hshort
  rw [List.append_nil] at this
  rw [hwidth]
  exact this

theorem ScansAlike.succ {fuel : Nat} (h : ScansAlike t fuel) : ScansAlike t (fuel + 1) := by
  intro front part rest depth quoted ht hrest
  cases rest with
  | nil => exact scanList_end ht (fuel + 1) depth quoted
  | cons c rest =>
    have hlength : rest.length ≤ fuel := by simpa using hrest
    have hnext := h.next ht hlength
    have hjump {after : Text} (hafter : after <:+ c :: rest) (hshort : after.length ≤ fuel) :=
      h.jump ht hafter hshort depth quoted
    have hinside : ¬ t.width ≤ (front ++ part).width := by
      have := c.utf8Size_pos
      rw [ht, width_append (front ++ part), width_cons]
      omega
    have hhere : t.slice (front ++ part).width t.width = pure (c :: rest) := by
      rw [ht, slice_behind]
    have hpart : t.slice front.width (front ++ part).width = pure part := by
      rw [ht, List.append_assoc, width_append, slice_append]
    rw [scanList, if_neg hinside, hhere, Search.pure_bind, listParts]
    dsimp only
    split_ifs with hquote hq hopen hclose hcomma hblank
    · exact hnext depth _
    · exact hnext depth _
    · exact hnext _ quoted
    · exact hnext _ quoted
    · obtain rfl := hcomma.1
      have hone : ','.utf8Size = 1 := rfl
      have hbehind : t.slice ((front ++ part).width + 1) t.width = pure rest := by
        have hcut := slice_behind (front ++ part ++ [',']) rest
        rwa [List.append_assoc (front ++ part), List.singleton_append, ← ht, width_append (front ++ part),
          width_cons, width_nil] at hcut
      rw [hpart, Search.pure_bind, hbehind, Search.pure_bind]
      cases hconj : conjunction? rest with
      | none =>
        have := hjump (List.suffix_cons _ _) hlength
        rw [width_cons, hone, Nat.add_sub_cancel_right] at this
        dsimp only
        rw [this, Search.pure_bind, List.reverse_reverse]
      | some found =>
        obtain ⟨name, after⟩ := found
        have hafter := conjunction?_isSuffix hconj
        have hle := width_le_of_infix hafter.isInfix
        have := hjump (hafter.trans (List.suffix_cons _ _)) (hafter.length_le.trans hlength)
        have hj : (front ++ part).width + 1 + (Text.width rest - after.width) =
            (front ++ part).width + (Text.width (',' :: rest) - after.width) := by
          rw [width_cons, hone]
          omega
        dsimp only
        rw [hj, this, Search.pure_bind, List.reverse_reverse]
    · cases hconj : conjunction? (c :: rest) with
      | none => exact hnext depth quoted
      | some found =>
        obtain ⟨name, after⟩ := found
        have hshort := (conjunction?_isSuffix_tail hconj).length_le.trans hlength
        dsimp only
        rw [hpart, Search.pure_bind, hjump (conjunction?_isSuffix hconj) hshort, Search.pure_bind,
          List.reverse_reverse]
    · exact hnext depth quoted

theorem scansAlike (t : Text) (fuel : Nat) : ScansAlike t fuel := by
  induction fuel with
  | zero =>
    intro front part rest depth quoted ht hrest
    obtain rfl := List.eq_nil_of_length_eq_zero (Nat.le_zero.1 hrest)
    exact scanList_end ht 0 depth quoted
  | succ fuel ih => exact ih.succ

theorem slicedList_eq (t : Text) : slicedList t = Search.ofOption (splitList? t) := by
  have hscan := scansAlike t t.length [] [] t 0 false rfl (Nat.le_refl _)
  rw [slicedList, splitList?]
  change (scanList t (t.length + 1) 0 0 0 false >>= _) = _
  change scanList t (t.length + 1) 0 0 0 false = _ at hscan
  rw [hscan, Search.pure_bind]
  dsimp only [List.reverse_nil]
  split <;> rfl

theorem slicedInside_eq (t : Text) : slicedInside t = Search.ofOption (unwrap? t) := by
  by_cases hopen : ∃ rest, t = '(' :: rest
  · obtain ⟨rest, rfl⟩ := hopen
    rw [slicedInside, unwrap?]
    cases hclose : closing? ('(' :: rest) 0 '(' ')' with
    | none => rfl
    | some close =>
      obtain ⟨inside, hinside, -, -⟩ := closing?_eq_some (t := '(' :: rest) rfl rfl hclose
      rw [Search.ofOption_some_bind, Option.bind_eq_bind, Option.bind_some, slice, hinside]
      split <;> rfl
  · have hmiss : slicedInside t = failure := by
      unfold slicedInside
      split
      · exact absurd ⟨_, rfl⟩ hopen
      · rfl
    have hnone : unwrap? t = none := by
      unfold unwrap?
      split
      · exact absurd ⟨_, rfl⟩ hopen
      · rfl
    rw [hmiss, hnone]
    rfl

end Phrasebook.Text
