import Phrasebook.Matching.Attempt
import Phrasebook.Matching.Boundary
import Phrasebook.Search

/-!
Greedy matching. Every part of a pattern either ends at one place or fails; it is never asked for a
second one. A slot ends at the first of its boundaries that leaves a text which can be resolved. How
texts in slots are resolved is a parameter here.
-/

namespace Phrasebook

variable [RegexEngine]

/-- A way to resolve a text for a slot, inside the attempts under way. -/
abbrev Resolver := Text → SlotType → Acceptance → List Frame → Search Expression

namespace Matching

/-- The end of literal text that is met up to case, after any blanks. The blanks at the end of the
literal may be used up, as far as the text has them. -/
def literalEnd (literal source : Text) (i : Nat) : Search Nat := do
  let start := source.skipBlank i
  let word := Text.trim literal
  if word = [] then pure start
  else
    let stop ← Search.ofOption (source.occursAt? start word)
    let rest ← Search.cut (source.after? stop)
    let trailing := (literal.reverse.takeWhile Text.isBlank).length
    pure (stop + Text.width ((rest.takeWhile Text.isBlank).take trailing))

/-- A regular expression that fills the region up to one of the boundaries, or else one that matches
just here. -/
def regexEnd (part : RegexPart) (tail : Tail) (source : Text) (i : Nat) : Search (Nat × Captured) :=
  let start := source.skipBlank i
  let upTo (b : Boundary) : Search (Nat × Captured) := do
    let stop ← Search.ofOption (b.place? source start)
    let region ← Search.cut (source.between? start stop)
    let region := Text.trimEnd region
    let m ← Search.ofOption (part.whole.find? region)
    pure (start + region.width, m.toCaptured)
  let here : Search (Nat × Captured) := do
    let m ← Search.ofOption (part.search.findAfter? source start)
    if m.start = start then pure (m.stop, m.toCaptured) else failure
  Search.first upTo tail.boundaries <|> here

def resolveSlot (resolve : Resolver) (types : List SlotType) (accepts : Acceptance)
    (chain : List Frame) (candidate : Text) : Search Expression :=
  let candidate := Text.trim candidate
  if candidate = [] then failure
  else Search.first (fun type => resolve candidate type accepts chain) types

/-- A slot up to one of its boundaries, or else the inside of a parenthesis that opens here. -/
def slotEnd (resolve : Resolver) (types : List SlotType) (accepts : Acceptance) (tail : Tail)
    (a : Attempt) (i : Nat) : Search (Nat × Expression) :=
  let start := a.source.skipBlank i
  let upTo (b : Boundary) : Search (Nat × Expression) := do
    let stop ← Search.ofOption (b.place? a.source start)
    let candidate ← Search.cut (a.source.between? start stop)
    let e ← resolveSlot resolve types accepts a.chain candidate
    pure (stop, e)
  let parenthesized : Search (Nat × Expression) := do
    let rest ← Search.cut (a.source.after? start)
    if rest.head? = some '(' then
      let close ← Search.ofOption (a.source.closing? start '(' ')')
      let inside ← Search.cut (a.source.between? (start + 1) close)
      let e ← resolveSlot resolve types accepts a.chain inside
      pure (close + 1, e)
    else failure
  Search.first upTo tail.boundaries <|> parenthesized

mutual

/-- Matches a pattern from byte `i` of the attempt's text on, in front of `tail`. Gives the place
where the match ends, and the attempt with what was found. -/
def node (resolve : Resolver) :
    Pattern → Tail → (i : Nat) → Attempt → Search (Nat × Attempt)
  | .literal t, _, i, a => do
    let stop ← literalEnd t a.source i
    pure (stop, a)
  | .sequence ps, tail, i, a => parts resolve ps tail i a
  | .optional p, tail, i, a =>
    (do
      let (stop, b) ← node resolve p tail i a.branch
      pure (stop, a.merge b.findings)) <|> pure (i, a)
  | .choice bs, tail, i, a => branches resolve bs tail i a
  | .regex part, tail, i, a => do
    let (stop, c) ← regexEnd part tail a.source i
    pure (stop, a.addCapture c)
  | .slot types accepts _, tail, i, a => do
    let (stop, e) ← slotEnd resolve types accepts tail a i
    pure (stop, a.addExpression e)

def parts (resolve : Resolver) :
    List Pattern → Tail → (i : Nat) → Attempt → Search (Nat × Attempt)
  | [], _, i, a => pure (i, a)
  | p :: ps, tail, i, a => do
    let (j, a) ← node resolve p (ps :: tail) i a
    parts resolve ps tail j a

def branches (resolve : Resolver) :
    List (Int32 × Pattern) → Tail → (i : Nat) → Attempt → Search (Nat × Attempt)
  | [], _, _, _ => failure
  | (mark, p) :: bs, tail, i, a =>
    (do
      let (stop, b) ← node resolve p tail i a.branch
      pure (stop, (a.merge b.findings).addMark mark)) <|> branches resolve bs tail i a

end

end Matching

end Phrasebook
