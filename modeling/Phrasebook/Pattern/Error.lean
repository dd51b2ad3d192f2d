import Phrasebook.Pattern.Basic
import Phrasebook.Caret

/-!
What can be wrong with the text of a pattern. Every error carries the byte offset of its culprit.
-/

namespace Phrasebook

inductive PatternError where
  | unmatchedOpening (bracket : Char) (index : Nat)
  | unmatchedClosing (bracket : Char) (index : Nat)
  | unmatchedPercent (index : Nat)
  | invalidSlot (spec : Text) (index : Nat)
  | unknownType (name : Text) (index : Nat)
  /-- A group that cannot be compiled, with what the engine says about it. -/
  | invalidRegex {message : String} (source : Text) (index : Nat)
  | markTooLarge (digits : Text) (index : Nat)
  | trailingEscape (index : Nat)
deriving DecidableEq, Repr

namespace PatternError

/-- Byte offset of the culprit. -/
def index : PatternError → Nat
  | unmatchedOpening _ i => i
  | unmatchedClosing _ i => i
  | unmatchedPercent i => i
  | invalidSlot _ i => i
  | unknownType _ i => i
  | invalidRegex _ i => i
  | markTooLarge _ i => i
  | trailingEscape i => i

def message : PatternError → String
  | unmatchedOpening c i => s!"unmatched '{c}' at index {i}"
  | unmatchedClosing c i => s!"unmatched closing '{c}' at index {i}"
  | unmatchedPercent i => s!"unmatched '%' at index {i}"
  | invalidSlot spec i => s!"invalid placeholder '%{String.ofList spec}%' at index {i}"
  | unknownType name i => s!"unknown type '{String.ofList name}' at index {i}"
  | @invalidRegex message source i => s!"invalid regex <{String.ofList source}> at index {i}: {message}"
  | markTooLarge digits i =>
    s!"parse mark '{String.ofList digits}' at index {i} does not fit in 32 bits"
  | trailingEscape i => s!"trailing escape character at index {i}"

def render (e : PatternError) (pattern : Text) : String := caret e.message pattern e.index

end PatternError

end Phrasebook
