import Phrasebook.Expression
import Phrasebook.Regex.Engine

/-!
Attempts to match a text. An attempt collects what the slots, regular expressions and choices of the
pattern contribute. A part of the pattern that may fail is matched in a branch, whose findings are
merged only after it has succeeded.
-/

namespace Phrasebook

/-- What the parts of a pattern contributed, in the order of the pattern. Marks are joined by
exclusive or. -/
structure Findings where
  expressions : List Expression
  captures : List Captured
  mark : Int32

namespace Findings

def none : Findings := ⟨[], [], 0⟩

def append (a b : Findings) : Findings :=
  ⟨a.expressions ++ b.expressions, a.captures ++ b.captures, a.mark ^^^ b.mark⟩

end Findings

structure Frame where
  source : Text
  findings : Findings

/-- An attempt and those it was started from, innermost first. -/
structure Attempt where
  frame : Frame
  enclosing : List Frame

namespace Attempt

def start (source : Text) (enclosing : List Frame) : Attempt := ⟨⟨source, .none⟩, enclosing⟩

def source (a : Attempt) : Text := a.frame.source

def findings (a : Attempt) : Findings := a.frame.findings

/-- The attempt itself and those it was started from. -/
def chain (a : Attempt) : List Frame := a.frame :: a.enclosing

def depth (a : Attempt) : Nat := a.enclosing.length

def branch (a : Attempt) : Attempt := start a.source a.chain

def parent? (a : Attempt) : Option Attempt :=
  match a.enclosing with
  | [] => none
  | f :: fs => some ⟨f, fs⟩

def merge (a : Attempt) (findings : Findings) : Attempt :=
  { a with frame := { a.frame with findings := a.findings.append findings } }

def addExpression (a : Attempt) (e : Expression) : Attempt := a.merge ⟨[e], [], 0⟩

def addCapture (a : Attempt) (c : Captured) : Attempt := a.merge ⟨[], [c], 0⟩

def addMark (a : Attempt) (mark : Int32) : Attempt := a.merge ⟨[], [], mark⟩

end Attempt

inductive Refusal where
  | missingExpression (source : Text)
  | reason (text : String)
deriving DecidableEq, Repr

def Refusal.message : Refusal → String
  | missingExpression source => s!"missing sub-expression in '{String.ofList source}'"
  | reason text => text

/-- A phrase met in a text: which of its patterns matched and what was found. -/
structure Occurrence where
  source : Text
  pattern : Nat
  findings : Findings

namespace Occurrence

def mark (o : Occurrence) : Int32 := o.findings.mark

/-- Takes the first sub-expression that has not been taken. -/
def take (o : Occurrence) : Except Refusal (Expression × Occurrence) :=
  match o.findings.expressions with
  | [] => .error (.missingExpression o.source)
  | e :: es => .ok (e, { o with findings := { o.findings with expressions := es } })

end Occurrence

/-- Ends an attempt on the pattern with a position among the declared ones. -/
def Attempt.finish (a : Attempt) (pattern : Nat) : Occurrence := ⟨a.source, pattern, a.findings⟩

end Phrasebook
