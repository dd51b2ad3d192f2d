import Phrasebook.Book
import Phrasebook.Text.Quoted

/-!
The state of a book as text: structures with their fields, for a look from outside.
-/

namespace Phrasebook.Inspection

variable [RegexEngine]

/-- A structure with the texts of its fields. -/
def record (name : String) (fields : List (String × String)) : String :=
  name ++ " \x7b " ++ ", ".intercalate (fields.map fun (k, v) => k ++ ": " ++ v) ++ " \x7d"

/-- A structure with one unnamed field. -/
def wrapped (name content : String) : String := name ++ "(" ++ content ++ ")"

def list (items : List String) : String := "[" ++ ", ".intercalate items ++ "]"

def string (s : String) : String := String.ofList (Text.quoted s.toList)

def bool (b : Bool) : String := if b then "true" else "false"

def classId (c : ClassId) : String := wrapped "ClassId" (toString c.index)

def phrase {F : Type} (id : Nat) (p : Phrase F) : String :=
  record "SyntaxDescriptor" [
    ("id", wrapped "SyntaxId" (toString id)), ("name", string p.name),
    ("return_class", classId p.returns), ("patterns", toString p.patterns.length),
    ("priority", toString p.priority.toInt)]

def phraseTable {F : Type} (t : PhraseTable F) : String :=
  record "SyntaxRegistry" [
    ("descriptors", list (t.phrases.zipIdx.map fun (p, id) => phrase id p))]

def valueType (t : ValueType) : String :=
  record "Type" [
    ("handle", wrapped "TypeHandle" (toString t.id.index)),
    ("forms", record "PluralForms" [
      ("singular", string t.spellings.singular), ("plural", string t.spellings.plural)]),
    ("class", classId t.kind), ("literal_parser", bool t.parses)]

def chainLimits (l : ChainLimits) : String :=
  wrapped "ChainFlags" (toString ((if l.notFirst then 1 else 0) + (if l.notSecond then 2 else 0)))

def conversion (e : Conversion) : String :=
  record "ConverterEdge" [
    ("from", classId e.source), ("to", classId e.target), ("flags", chainLimits e.limits)]

def conversionGraph (g : ConversionGraph) : String :=
  record "ConverterGraph" [("edges", list (g.edges.map conversion))]

def route : Route → String
  | .direct _ => "Direct"
  | .checkInput source _ => wrapped "CheckInput" (classId source)
  | .checkOutput target _ => wrapped "CheckOutput" (classId target)
  | .checkBoth source target _ => wrapped "CheckBoth" (classId source ++ ", " ++ classId target)

def route? : Option Route → String
  | some r => wrapped "Some" (route r)
  | none => "None"

def settings (s : Settings) : String :=
  record "EngineConfig" [
    ("log_unresolved", bool s.logUnresolved), ("mru_capacity", toString s.recentCapacity),
    ("max_parallel_threads", toString s.parallelLines)]

def book (b : Book) : String :=
  record "Engine" [
    ("config", settings b.settings), ("types", toString b.types.size),
    ("converters", toString b.conversions.edges.length),
    ("expressions", toString b.expressions.size), ("effects", toString b.effects.size)]

end Phrasebook.Inspection
