import Phrasebook.Proofs.Resolution.Nesting
import Phrasebook.Proofs.Text.Cursor

/-!
All cuts are made at places. A match that begins at a place ends at one that is not before it and not
behind the end of the text. Where the searches for the end of a slot or of a regular expression, the
splitting of lists and the taking off of parentheses cut by byte offsets, they cut at places, and so do
matching and resolving as wholes, whatever patterns and texts they meet.
-/

namespace Phrasebook

section

variable [RegexEngine]

/-! ## Boundaries by offsets -/

/-- A word to look for is not empty. -/
def Boundary.Worded : Boundary → Prop
  | word w _ _ => w ≠ []
  | _ => True

/-- The place of the boundary, with every cut checked. -/
def Boundary.seek (b : Boundary) (t : Text) (start : Nat) : Search Nat :=
  match b with
  | word w before after => t.seekSpaced w before after (t.width + 1) start
  | regex g => do
    let rest ← t.slice start t.width
    let m ← Search.ofOption ((g.search.findAll rest).find? (0 < ·.start))
    pure (start + m.start)
  | blank => do
    let rest ← t.slice start t.width
    let n ← Search.ofOption rest.firstBlank?
    pure (start + n)
  | textEnd => pure t.width

theorem Boundary.seek_eq {b : Boundary} (hb : b.Worded) {t : Text} {start : Nat}
    (hs : t.IsPlace start) : b.seek t start = Search.ofOption (b.place? t start) := by
  obtain ⟨front, rest, rfl, rfl⟩ := hs
  cases b with
  | word w before after =>
    refine Text.seekSpaced_eq hb front rest _ ?_
    rw [Text.width_append]
    omega
  | regex g =>
    rw [seek, Text.slice_behind, Search.pure_bind, place?, Text.after?_append, Option.bind_eq_bind,
      Option.bind_some]
    cases (g.search.findAll rest).find? (0 < ·.start) <;> rfl
  | blank =>
    rw [seek, Text.slice_behind, Search.pure_bind, place?, Text.after?_append, Option.bind_eq_bind,
      Option.bind_some]
    cases rest.firstBlank? <;> rfl
  | textEnd => rfl

namespace Pattern

mutual

theorem boundaries_worded : ∀ (p : Pattern) (slotNext : Bool), ∀ b ∈ (p.boundaries slotNext).1, b.Worded
  | literal t, slotNext, b, hb => by
    rw [boundaries] at hb
    split at hb
    · split at hb
      · obtain rfl := List.mem_singleton.1 hb
        trivial
      · cases hb
    · rename_i hword
      obtain rfl := List.mem_singleton.1 hb
      exact hword
  | sequence ps, slotNext, b, hb => boundariesAll_worded ps slotNext b hb
  | optional p, slotNext, b, hb => boundaries_worded p false b hb
  | choice bs, slotNext, b, hb => boundariesAny_worded bs b hb
  | regex g, slotNext, b, hb => by
    obtain rfl := List.mem_singleton.1 hb
    trivial
  | slot types accepts nullable, slotNext, b, hb => by
    obtain rfl := List.mem_singleton.1 hb
    trivial

theorem boundariesAll_worded : ∀ (ps : List Pattern) (slotNext : Bool),
    ∀ b ∈ (boundariesAll slotNext ps).1, b.Worded
  | [], slotNext, b, hb => nomatch hb
  | p :: ps, slotNext, b, hb => by
    rw [boundariesAll] at hb
    dsimp only at hb
    have hp := boundaries_worded p ((slotFirstAll? ps).getD slotNext) b
    split at hb
    · exact hp hb
    · rcases List.mem_append.1 hb with hb | hb
      · exact hp hb
      · exact boundariesAll_worded ps slotNext b hb

theorem boundariesAny_worded : ∀ (bs : List (Int32 × Pattern)), ∀ b ∈ (boundariesAny bs).1, b.Worded
  | [], b, hb => nomatch hb
  | (_, p) :: bs, b, hb => by
    rw [boundariesAny] at hb
    rcases List.mem_append.1 hb with hb | hb
    · exact boundaries_worded p false b hb
    · exact boundariesAny_worded bs b hb

end

end Pattern

theorem Tail.boundaries_worded (tail : Tail) : ∀ b ∈ tail.boundaries, b.Worded := by
  intro b hb
  rw [Tail.boundaries] at hb
  dsimp only at hb
  have hflat := Pattern.boundariesAll_worded tail.flatten false b
  split at hb
  · exact hflat hb
  · rcases List.mem_append.1 hb with hb | hb
    · exact hflat hb
    · obtain rfl := List.mem_singleton.1 hb
      trivial

namespace Matching

/-! ## Ends by offsets -/

/-- The end of a regular expression, with every cut checked. -/
def slicedRegexEnd (part : RegexPart) (tail : Tail) (source : Text) (i : Nat) :
    Search (Nat × Captured) :=
  let start := source.skipBlank i
  let upTo (b : Boundary) : Search (Nat × Captured) := do
    let stop ← b.seek source start
    let region ← source.slice start stop
    let region := Text.trimEnd region
    let m ← Search.ofOption (part.whole.find? region)
    pure (start + region.width, m.toCaptured)
  let here : Search (Nat × Captured) := do
    let m ← Search.ofOption (part.search.findAfter? source start)
    if m.start = start then pure (m.stop, m.toCaptured) else failure
  Search.first upTo tail.boundaries <|> here

/-- The end of a slot, with every cut checked. -/
def slicedSlotEnd (resolve : Resolver) (types : List SlotType) (accepts : Acceptance) (tail : Tail)
    (a : Attempt) (i : Nat) : Search (Nat × Expression) :=
  let start := a.source.skipBlank i
  let upTo (b : Boundary) : Search (Nat × Expression) := do
    let stop ← b.seek a.source start
    let candidate ← a.source.slice start stop
    let e ← resolveSlot resolve types accepts a.chain candidate
    pure (stop, e)
  let parenthesized : Search (Nat × Expression) := do
    let rest ← a.source.slice start a.source.width
    if rest.head? = some '(' then
      let close ← Search.ofOption (a.source.closing? start '(' ')')
      let inside ← a.source.slice (start + 1) close
      let e ← resolveSlot resolve types accepts a.chain inside
      pure (close + 1, e)
    else failure
  Search.first upTo tail.boundaries <|> parenthesized

theorem slicedRegexEnd_eq (part : RegexPart) (tail : Tail) (source : Text) (i : Nat) :
    slicedRegexEnd part tail source i = regexEnd part tail source i := by
  unfold slicedRegexEnd regexEnd
  dsimp only
  congr 1
  refine Search.first_congr fun b hb => ?_
  rw [Boundary.seek_eq (tail.boundaries_worded b hb) (source.skipBlank_isPlace i)]
  rfl

theorem slicedSlotEnd_eq (resolve : Resolver) (types : List SlotType) (accepts : Acceptance)
    (tail : Tail) (a : Attempt) (i : Nat) :
    slicedSlotEnd resolve types accepts tail a i = slotEnd resolve types accepts tail a i := by
  have hstart := a.source.skipBlank_isPlace i
  have hrest : a.source.slice (a.source.skipBlank i) a.source.width =
      Search.cut (a.source.after? (a.source.skipBlank i)) := by
    obtain ⟨front, rest, ht, hi⟩ := hstart
    rw [← hi, ht, Text.slice_behind, Text.after?_append]
    rfl
  unfold slicedSlotEnd slotEnd
  dsimp only
  rw [hrest]
  congr 1
  refine Search.first_congr fun b hb => ?_
  rw [Boundary.seek_eq (tail.boundaries_worded b hb) hstart]
  rfl

/-! ## Where matches end -/

theorem Covers.le {fills : Nat → Text → Item → List Expression → List Captured → Prop} {source : Text}
    {i j : Nat} {items : List Item} {es : List Expression} {cs : List Captured}
    (h : Covers fills source i items j es cs) : i ≤ j := by
  have hle {k l : Nat} {u : Text} (h : source.between? k l = some u) : k ≤ l := by
    obtain ⟨a, b, -, -, rfl⟩ := Text.between?_eq_some_iff.1 h
    exact Nat.le_add_right _ _
  induction h with
  | done h =>
    obtain ⟨u, hu, -⟩ := h
    exact hle hu
  | fill hgap hs _ _ ih =>
    obtain ⟨u, hu, -⟩ := hgap
    exact ((hle hu).trans (hle hs)).trans ih

end Matching

namespace Book

open Search

/-- Whatever the patterns, the texts and the sessions are, a match begun at a place ends at a place
behind it in the text, and no cut made in matching, resolving and understanding effects is made anywhere
else: none of the three faults, and the searches and splits that run over the text do the same by
offsets with every cut checked. -/
theorem cuts_at_places [RegexEngine.Lawful] (b : Book) :
    (∀ (resolve : Resolver) (p : Pattern) (tail : Tail) (i j : Nat) (a a' : Attempt) (s s' : Session),
      a.source.IsPlace i → Matching.node resolve p tail i a s = (.found (j, a'), s') →
        i ≤ j ∧ j ≤ a.source.width ∧ a.source.IsPlace j) ∧
    (∀ pattern text i, Faultless (b.matchFrom pattern text i)) ∧
    (∀ text expected, Faultless (b.resolve text expected)) ∧
    (∀ text, Faultless (b.parseEffect text)) ∧
    (∀ part tail source i,
      Matching.slicedRegexEnd part tail source i = Matching.regexEnd part tail source i) ∧
    (∀ resolve types accepts tail a i, Matching.slicedSlotEnd resolve types accepts tail a i =
      Matching.slotEnd resolve types accepts tail a i) ∧
    ∀ t : Text, t.slicedList = ofOption t.splitList? ∧ t.slicedInside = ofOption t.unwrap? := by
  refine ⟨?_, fun pattern text i => (matchFrom_wellNested pattern text i).faultless,
    fun text expected => (resolve_wellNested text expected).faultless,
    fun text => (parseEffect_wellNested text).faultless, Matching.slicedRegexEnd_eq,
    Matching.slicedSlotEnd_eq, fun t => ⟨t.slicedList_eq, t.slicedInside_eq⟩⟩
  intro resolve p tail i j a a' s s' hi h
  obtain ⟨items, es, cs, m, -, hcovers, -⟩ :=
    Matching.node_finds_sound resolve p tail i a j a' hi ⟨s, s', h⟩
  have hj := hcovers.isPlace_right
  exact ⟨hcovers.le, hj.le_width, hj⟩

end Book

end

namespace Book

/-- A word that is wider in the text than in the pattern, a number in parentheses, and a capital. -/
def kelvinPattern [RegexEngine] : Pattern :=
  .sequence [.literal ['k', ' '], .slot [⟨⟨1⟩, "number", true⟩] .both false, .literal [' ', 'é']]

def kelvinText : Text := ['\u212a', ' ', '(', '1', ')', ' ', 'É', '!']

theorem cuts_at_places_kelvin :
    ∃ a', (Matching.node ((Standard.book {}).resolver 26) kelvinPattern [] 0 (.start kelvinText [])
        (Standard.book {}).fresh).1 = .found (10, a') ∧
      0 ≤ 10 ∧ 10 ≤ kelvinText.width ∧ kelvinText.IsPlace 10 := by
  obtain ⟨hnode, -⟩ := cuts_at_places (Standard.book {})
  rcases h : Matching.node ((Standard.book {}).resolver 26) kelvinPattern [] 0 (.start kelvinText [])
    (Standard.book {}).fresh with ⟨o, s'⟩
  have hend : (Matching.node ((Standard.book {}).resolver 26) kelvinPattern [] 0
      (.start kelvinText []) (Standard.book {}).fresh).1.toOption.map (·.1) = some 10 := by
    decide
  rw [h] at hend
  cases o with
  | missed => cases hend
  | fault e => cases hend
  | found r =>
    obtain ⟨j, a'⟩ := r
    cases hend
    exact ⟨a', rfl, hnode _ kelvinPattern [] 0 10 _ a' _ s' (Text.isPlace_zero _) h⟩

end Book

end Phrasebook
