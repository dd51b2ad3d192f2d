import Phrasebook.Journal
import Phrasebook.Phrase

/-!
Searching with side effects. A search finds something or misses; either way it may have tried
phrases, moved them to the front and told events, and all that stays when another way is tried next.
Two faults are kept apart from a miss, so that it can be proved that they never occur: a cut at an
offset that is no place in the text, and texts nested deeper than the bound.
-/

namespace Phrasebook

/-- What changes while texts are resolved. -/
structure Session where
  expressions : Usage
  effects : Usage
  /-- Events, latest first. -/
  journal : List Event
deriving DecidableEq, Repr

inductive Fault where
  | noPlace
  | tooDeep
deriving DecidableEq, Repr

inductive Outcome (α : Type) where
  | found (a : α)
  | missed
  | fault (f : Fault)
deriving DecidableEq, Repr

def Outcome.toOption {α : Type} : Outcome α → Option α
  | found a => some a
  | missed => none
  | fault _ => none

def Search (α : Type) : Type := Session → Outcome α × Session

namespace Search

variable {α β : Type}

def bind (x : Search α) (f : α → Search β) : Search β := fun s =>
  match x s with
  | (.found a, s) => f a s
  | (.missed, s) => (.missed, s)
  | (.fault e, s) => (.fault e, s)

instance : Monad Search where
  pure a := fun s => (.found a, s)
  bind := bind

def orElse (x : Search α) (y : Unit → Search α) : Search α := fun s =>
  match x s with
  | (.missed, s) => y () s
  | r => r

instance : Alternative Search where
  failure := fun s => (.missed, s)
  orElse := orElse

def fault (e : Fault) : Search α := fun s => (.fault e, s)

def ofOption : Option α → Search α
  | some a => pure a
  | none => failure

/-- A cut that must be possible. -/
def cut : Option α → Search α
  | some a => pure a
  | none => fault .noPlace

/-- The first of the list from which `f` finds something. -/
def first (f : α → Search β) : List α → Search β
  | [] => failure
  | a :: as => f a <|> first f as

/-- What `f` finds from each of the list; one miss is a miss. -/
def every (f : α → Search β) : List α → Search (List β)
  | [] => pure []
  | a :: as => do
    let b ← f a
    let bs ← every f as
    pure (b :: bs)

/-- Finds whether something is found. -/
def optional (x : Search α) : Search (Option α) :=
  (do let a ← x; pure (some a)) <|> pure none

def session : Search Session := fun s => (.found s, s)

def change (f : Session → Session) : Search Unit := fun s => (.found (), f s)

def tell (e : Event) : Search Unit := change fun s => { s with journal := e :: s.journal }

end Search

end Phrasebook
