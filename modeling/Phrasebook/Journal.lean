import Phrasebook.Pattern.Error

/-!
What is worth telling about building a book and working with it.
-/

namespace Phrasebook

inductive Level where
  | error
  | warn
  | debug
  | trace
deriving DecidableEq, Repr

/-- Levels from loud to quiet. -/
def Level.rank : Level → Nat
  | error => 0
  | warn => 1
  | debug => 2
  | trace => 3

def Level.name : Level → String
  | error => "ERROR"
  | warn => "WARN"
  | debug => "DEBUG"
  | trace => "TRACE"

inductive Event where
  | tryingPattern (phrase : String) (pattern depth : Nat)
  | pluralRejected (phrase : String)
  | refused (phrase reason : String)
  | expressionNotUnderstood (text : Text) (expected : String)
  | effectNotUnderstood (text : Text)
  | unknownType (name : String)
  | conversionSkipped (source target : String)
  | chainsAdded (added total : Nat)
  | patternRejected (phrase : String) (pattern : Text) (error : PatternError)
deriving DecidableEq, Repr

inductive Detail where
  | number (n : Nat)
  | text (s : String)
deriving DecidableEq, Repr

namespace Event

def level : Event → Level
  | tryingPattern _ _ _ => .trace
  | pluralRejected _ => .trace
  | refused _ _ => .trace
  | expressionNotUnderstood _ _ => .warn
  | effectNotUnderstood _ => .warn
  | unknownType _ => .warn
  | conversionSkipped _ _ => .debug
  | chainsAdded _ _ => .debug
  | patternRejected _ _ _ => .error

def message : Event → String
  | tryingPattern _ _ _ => "trying pattern"
  | pluralRejected _ => "rejected: plural result for single slot"
  | refused _ _ => "factory rejected match"
  | expressionNotUnderstood _ _ => "can't understand the expression"
  | effectNotUnderstood _ => "can't understand the effect"
  | unknownType _ => "unknown type"
  | conversionSkipped _ _ => "converter already covered, skipped"
  | chainsAdded _ _ => "materialized converter chains"
  | patternRejected _ _ (.invalidRegex _ _) => "invalid pattern (regex)"
  | patternRejected _ pattern error => "invalid pattern\n" ++ error.render pattern

def details : Event → List (String × Detail)
  | tryingPattern phrase pattern depth =>
    [("name", .text phrase), ("pattern", .number pattern), ("depth", .number depth)]
  | pluralRejected phrase => [("name", .text phrase)]
  | refused phrase reason => [("name", .text phrase), ("error", .text reason)]
  | expressionNotUnderstood text expected =>
    [("text", .text (String.ofList text)), ("expected", .text expected)]
  | effectNotUnderstood text => [("text", .text (String.ofList text))]
  | unknownType name => [("type_name", .text name)]
  | conversionSkipped source target => [("from", .text source), ("to", .text target)]
  | chainsAdded added total => [("added", .number added), ("total", .number total)]
  | patternRejected phrase _ _ => [("syntax", .text phrase)]

end Event

end Phrasebook
