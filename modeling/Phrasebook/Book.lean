import Phrasebook.TypeTable
import Phrasebook.Pattern.Reading
import Phrasebook.Matching.Attempt
import Phrasebook.Search
import Phrasebook.Settings.Basic

/-!
A book: the types, conversions and phrases that texts are understood by. It is put together as a
draft and does not change once it is finished; what changes while it is used is the session.
-/

namespace Phrasebook

variable [RegexEngine]

/-- Makes an expression of a match, or refuses it. -/
abbrev ExpressionMaker := Occurrence → Except Refusal Expression

abbrev EffectMaker := Occurrence → Except Refusal Effect

structure Book where
  settings : Settings
  types : TypeTable
  conversions : ConversionGraph
  expressions : PhraseTable ExpressionMaker
  effects : PhraseTable EffectMaker

namespace Book

def classes (b : Book) : ClassTree := b.conversions.classes

def fresh (b : Book) : Session := ⟨b.expressions.unused, b.effects.unused, []⟩

/-- How often the phrases with a name were tried, expressions and effects alike. -/
def attemptsOf (b : Book) (s : Session) (name : String) : Nat :=
  b.expressions.attemptsOf s.expressions name + b.effects.attemptsOf s.effects name

def display (b : Book) (v : Value) : String :=
  match b.types.byClass? v.kind b.classes with
  | some t => t.display v
  | none => v.toText

def readPattern (b : Book) (t : Text) : Except PatternError Pattern :=
  Pattern.ofText b.types.slotType? t

end Book

/-- A phrase whose patterns have not been read yet. -/
structure PhraseDraft (F : Type) where
  name : String
  returns : ClassId
  patterns : List Text
  make : F
  priority : Int32 := Phrase.defaultPriority

namespace PhraseDraft

variable {F : Type}

/-- Reads the patterns; those that are wrong are left out and told. -/
def finish (types : TypeNames) (d : PhraseDraft F) : Phrase F × List Event :=
  let readings := d.patterns.zipIdx.map fun (t, i) => (t, i, Pattern.ofText types t)
  ({ name := d.name
     returns := d.returns
     declared := d.patterns.length
     patterns := readings.filterMap fun
       | (_, i, .ok p) => some (i, p)
       | (_, _, .error _) => none
     make := d.make
     priority := d.priority },
   readings.filterMap fun
     | (_, _, .ok _) => none
     | (t, _, .error e) => some (.patternRejected d.name t e))

end PhraseDraft

inductive PhraseError where
  | unknownReturnType (type phrase : String)
  | expressionWithoutPatterns (phrase : String)
  | effectWithoutPatterns (phrase : String)
deriving DecidableEq, Repr

def PhraseError.message : PhraseError → String
  | unknownReturnType type phrase => s!"Unknown return type '{type}' for expression '{phrase}'"
  | expressionWithoutPatterns phrase => s!"expression '{phrase}' declares no patterns"
  | effectWithoutPatterns phrase => s!"effect '{phrase}' declares no patterns"

structure Draft where
  settings : Settings := {}
  classes : ClassTree := .builtin
  types : TypeTable := .empty
  conversions : List Conversion := []
  expressions : List (PhraseDraft ExpressionMaker) := []
  effects : List (PhraseDraft EffectMaker) := []

namespace Draft

def addClass (d : Draft) (name : String) (parent : ClassId) : Except ClassError Draft := do
  let (_, classes) ← d.classes.register name parent
  return { d with classes := classes }

def addType (d : Draft) (t : TypeDeclaration) : Except TypeError Draft := do
  let (_, types) ← d.types.register t
  return { d with types := types }

def addConversion (d : Draft) (e : Conversion) : Draft :=
  { d with conversions := d.conversions ++ [e] }

def addExpression (d : Draft) (name returnType : String) (patterns : List Text)
    (priority : Int32) (make : ExpressionMaker) : Except PhraseError Draft :=
  match d.types.byName? returnType with
  | none => .error (.unknownReturnType returnType name)
  | some t =>
    if patterns.isEmpty then .error (.expressionWithoutPatterns name)
    else
      .ok { d with expressions := d.expressions ++ [⟨name, t.kind, patterns, make, priority⟩] }

def addEffect (d : Draft) (name : String) (patterns : List Text) (make : EffectMaker) :
    Except PhraseError Draft :=
  if patterns.isEmpty then .error (.effectWithoutPatterns name)
  else
    .ok { d with effects := d.effects ++ [{ name, returns := .object, patterns, make }] }

/-- The graph of the conversions in order, chains included. Conversions for pairs that are covered
are left out and told. -/
def graph (d : Draft) : ConversionGraph × List Event :=
  let (g, events) := d.conversions.foldl (fun (g, events) (e : Conversion) =>
    match g.register e with
    | some g => (g, events)
    | none => (g, events ++ [.conversionSkipped (d.classes.name e.source) (d.classes.name e.target)]))
    (ConversionGraph.empty d.classes, ([] : List Event))
  let closed := g.closure
  (closed, events ++ [.chainsAdded (closed.edges.length - g.edges.length) closed.edges.length])

def finish (d : Draft) : Book × List Event :=
  let (conversions, told) := d.graph
  let expressions := d.expressions.map (·.finish d.types.slotType?)
  let effects := d.effects.map (·.finish d.types.slotType?)
  ({ settings := d.settings
     types := d.types
     conversions := conversions
     expressions := .ofList (expressions.map (·.1)) d.settings.recentCapacity
     effects := .ofList (effects.map (·.1)) d.settings.recentCapacity },
   told ++ expressions.flatMap (·.2) ++ effects.flatMap (·.2))

end Draft

end Phrasebook
