import Phrasebook.Pattern.Basic
import Phrasebook.Class

/-!
Phrases and the order in which they are tried. The phrases that were of use come first, the latest
one leading; the others follow by priority. How many recent phrases are remembered may be limited
for each class of results.
-/

namespace Phrasebook

variable [RegexEngine]

/-- A phrase: its patterns, each with its position among the declared ones, and what makes something
of a match. -/
structure Phrase (F : Type) where
  name : String
  returns : ClassId
  /-- Number of declared patterns, also those that could not be read. -/
  declared : Nat
  patterns : List (Nat × Pattern)
  make : F
  priority : Int32

namespace Phrase

def defaultPriority : Int32 := 5

/-- Higher priority goes first, and of equal ones the phrase with more declared patterns. -/
def goesFirst {F : Type} (p q : Phrase F) : Bool :=
  q.priority < p.priority || (p.priority == q.priority && q.declared ≤ p.declared)

end Phrase

/-- All phrases of a kind in the order of their ids. -/
structure PhraseTable (F : Type) where
  phrases : List (Phrase F)
  /-- How many recent phrases are remembered for each class; zero is no limit. -/
  capacity : Nat

/-- What has happened to the phrases of a table: which were of use, latest first, and how often each
was tried. -/
structure Usage where
  recent : List Nat
  attempts : List Nat
deriving DecidableEq, Repr

namespace PhraseTable

variable {F : Type}

/-- The phrases sorted; those that go equally keep their order. -/
def ofList (phrases : List (Phrase F)) (capacity : Nat) : PhraseTable F :=
  ⟨phrases.mergeSort Phrase.goesFirst, capacity⟩

def size (t : PhraseTable F) : Nat := t.phrases.length

def unused (t : PhraseTable F) : Usage := ⟨[], List.replicate t.size 0⟩

def admits (t : PhraseTable F) (accepts : ClassId → Bool) (id : Nat) : Bool :=
  t.phrases[id]?.any (accepts ·.returns)

def candidates (t : PhraseTable F) (u : Usage) (accepts : ClassId → Bool) : List Nat :=
  let recent := u.recent.filter (t.admits accepts)
  let others := (List.range t.size).filter fun id => t.admits accepts id && !recent.contains id
  recent ++ others

/-- The ids without those of class `c` after the first `n`. -/
def limited (t : PhraseTable F) (c : ClassId) : (n : Nat) → List Nat → List Nat
  | _, [] => []
  | n, id :: ids =>
    if t.admits (· == c) id then
      match n with
      | 0 => limited t c 0 ids
      | n + 1 => id :: limited t c n ids
    else id :: limited t c n ids

def promote (t : PhraseTable F) (u : Usage) (id : Nat) : Usage :=
  match t.phrases[id]? with
  | none => u
  | some p =>
    let recent := id :: u.recent.filter (· ≠ id)
    { u with
      recent := if t.capacity = 0 then recent else t.limited p.returns t.capacity recent }

def attemptsOf (t : PhraseTable F) (u : Usage) (name : String) : Nat :=
  (t.phrases.zip u.attempts).foldl (fun sum (p, n) => if p.name == name then sum + n else sum) 0

end PhraseTable

def Usage.tried (u : Usage) (id : Nat) : Usage :=
  { u with attempts := u.attempts.modify id (· + 1) }

end Phrasebook
