import Phrasebook.Book
import Phrasebook.Matching.Greedy
import Phrasebook.Text.Brackets
import Phrasebook.Text.Listing

/-!
Understanding a text as an expression of an expected type: by what stands inside parentheses around
it, as a literal, as a list of parts, or by a phrase. The steps that resolve further texts take the
resolver for those as a parameter; `Book.resolver` ties the knot with a bound on the nesting. A
nested text is shorter than the one around it, or the same one again, and then no phrase is tried,
so twice the width of the text and two more is bound enough.
-/

namespace Phrasebook

variable [RegexEngine]

inductive Shelf where
  | expressions
  | effects

namespace Session

def modifyUsage (s : Session) (f : Usage → Usage) : Shelf → Session
  | .expressions => { s with expressions := f s.expressions }
  | .effects => { s with effects := f s.effects }

end Session

/-- Whether an attempt under way is already working on the text, so that trying phrases on it again
could only lead back here. -/
def isUnderWay (t : Text) (enclosing : List Frame) : Bool :=
  enclosing.any fun f => Text.trim f.source == t

namespace Book

def classOf (b : Book) (expected : SlotType) : ClassId :=
  match b.types.get? expected.id with
  | some t => t.kind
  | none => .object

/-- Whether what is declared as `source` may be of use as `target`. -/
def compatible (b : Book) (source target : ClassId) : Bool :=
  b.classes.isAssignable source target || b.conversions.mayConvert source target

def adapt (b : Book) (e : Expression) (target : ClassId) : Expression :=
  if b.classes.isAssignable e.returns target then e else e.converted target b.conversions

/-- The value that a type reads from a text. Strings without a reader of their own are quoted. -/
def literalValue? (t : ValueType) (text : Text) : Option Value :=
  if t.parses then t.parse text
  else if t.kind == .string then (Text.unquoted? text).map fun s => .string (String.ofList s)
  else none

/-- The text as a literal of class `target`, by the first type whose value can be converted. -/
def literal? (b : Book) (text : Text) (target : ClassId) : Option Expression :=
  b.types.types.findSome? fun t => do
    guard (b.compatible t.kind target)
    let v ← literalValue? t text
    let v ← b.conversions.convert? v target
    some (.literal v.kind [v] text)

/-- Tries a phrase on the whole of a text: the first of its patterns that matches and of which
something can be made. -/
def tryPhrase {F T : Type} (resolve : Resolver) (shelf : Shelf) (id : Nat) (phrase : Phrase F)
    (make : F → Occurrence → Except Refusal T) (text : Text) (enclosing : List Frame) : Search T :=
  Search.first (fun (index, pattern) => do
    Search.change (·.modifyUsage (·.tried id) shelf)
    let a := Attempt.start text enclosing
    Search.tell (.tryingPattern phrase.name index a.depth)
    let (stop, a) ← Matching.node resolve pattern [] 0 a
    let rest ← Search.cut (text.after? stop)
    if Text.trim rest ≠ [] then failure
    match make phrase.make (a.finish index) with
    | .ok made => pure made
    | .error e =>
      Search.tell (.refused phrase.name e.message)
      failure) phrase.patterns

def promote (b : Book) (shelf : Shelf) (id : Nat) : Search Unit :=
  Search.change fun s =>
    match shelf with
    | .expressions => { s with expressions := b.expressions.promote s.expressions id }
    | .effects => { s with effects := b.effects.promote s.effects id }

def byCandidate (b : Book) (resolve : Resolver) (text : Text) (expected : SlotType)
    (enclosing : List Frame) (id : Nat) : Search Expression := do
  let phrase ← Search.ofOption b.expressions.phrases[id]?
  let made ← tryPhrase resolve .expressions id phrase (fun make o => make o) text enclosing
  let e := b.adapt made (b.classOf expected)
  if expected.single && !e.single then
    Search.tell (.pluralRejected phrase.name)
    failure
  b.promote .expressions id
  pure e

def byPhrase (b : Book) (resolve : Resolver) (text : Text) (expected : SlotType)
    (enclosing : List Frame) : Search Expression := do
  let target := b.classOf expected
  let s ← Search.session
  let ids := b.expressions.candidates s.expressions (b.compatible · target)
  Search.first (b.byCandidate resolve text expected enclosing) ids

def asList (b : Book) (resolve : Resolver) (text : Text) (expected : SlotType)
    (accepts : Acceptance) (enclosing : List Frame) : Search Expression := do
  let (parts, all) ← Search.ofOption (Text.splitList? text)
  let items ← Search.every (fun part => resolve part expected accepts enclosing) parts
  pure (.list items all (b.classOf expected))

/-- One step of resolving; `resolve` is asked for the texts inside. -/
def step (b : Book) (resolve : Resolver) : Resolver := fun text expected accepts enclosing =>
  let text := Text.trim text
  if text = [] then failure
  else
    match Text.unwrap? text with
    | some inside => resolve inside expected accepts enclosing
    | none =>
      (if accepts = .expressionsOnly then failure
        else Search.ofOption (b.literal? text (b.classOf expected))) <|>
      (if expected.single then failure else b.asList resolve text expected accepts enclosing) <|>
      (if accepts = .literalsOnly || isUnderWay text enclosing then failure
        else b.byPhrase resolve text expected enclosing)

/-- Resolves texts nested at most `n` deep, counting the outermost; `bottom` stands for all that is
deeper. -/
def resolverFrom (b : Book) (bottom : Resolver) : (n : Nat) → Resolver
  | 0 => bottom
  | n + 1 => b.step (b.resolverFrom bottom n)

def resolver (b : Book) (n : Nat) : Resolver :=
  b.resolverFrom (fun _ _ _ _ => Search.fault .tooDeep) n

/-- A bound on the nesting in a text. -/
def nestingBound (t : Text) : Nat := 2 * t.width + 2

def resolveBy (b : Book) (resolve : Resolver) (text : Text) (expected : SlotType) :
    Search Expression :=
  resolve text expected .both [] <|> do
    if b.settings.logUnresolved then
      Search.tell (.expressionNotUnderstood (Text.trim text) expected.name)
    failure

def resolve (b : Book) (text : Text) (expected : SlotType) : Search Expression :=
  b.resolveBy (b.resolver (nestingBound text)) text expected

/-- Understands a text as an expression of the type with a name; the plural accepts lists. -/
def resolveAs (b : Book) (text : Text) (typeName : String) : Search Expression :=
  match b.types.slotType? typeName with
  | some expected => b.resolve text expected
  | none => do
    Search.tell (.unknownType typeName)
    failure

inductive LinesError where
  | unknownType (name : String)
deriving DecidableEq, Repr

def LinesError.message : LinesError → String
  | unknownType name => s!"Unknown type '{name}'"

def resolveLines (b : Book) (lines : List Text) (typeName : String) :
    Except LinesError (Search (List (Option Expression))) :=
  match b.types.slotType? typeName with
  | some expected => .ok (Search.every (fun line => (b.resolve line expected).optional) lines)
  | none => .error (.unknownType typeName)

def effectByPhrase (b : Book) (resolve : Resolver) (text : Text) : Search Effect := do
  if text = [] then failure
  let s ← Search.session
  Search.first (fun id => do
    let phrase ← Search.ofOption b.effects.phrases[id]?
    let e ← tryPhrase resolve .effects id phrase (fun make o => make o) text []
    b.promote .effects id
    pure e) (b.effects.candidates s.effects fun _ => true)

def parseEffectBy (b : Book) (resolve : Resolver) (text : Text) : Search Effect :=
  let text := Text.trim text
  b.effectByPhrase resolve text <|> do
    if b.settings.logUnresolved then Search.tell (.effectNotUnderstood text)
    failure

def parseEffect (b : Book) (text : Text) : Search Effect :=
  b.parseEffectBy (b.resolver (nestingBound text)) text

def matchBy (resolve : Resolver) (pattern : Pattern) (text : Text) (i : Nat) :
    Search (Nat × Attempt) :=
  Matching.node resolve pattern [] i (Attempt.start text [])

/-- Matches a pattern from byte `i` of a text on; it may end before the text does. -/
def matchFrom (b : Book) (pattern : Pattern) (text : Text) (i : Nat) : Search (Nat × Attempt) :=
  matchBy (b.resolver (nestingBound text)) pattern text i

def matchPattern (b : Book) (pattern : Pattern) (text : Text) : Search (Nat × Attempt) :=
  b.matchFrom pattern text 0

end Book

end Phrasebook
