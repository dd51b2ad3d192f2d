import Phrasebook.Text.Basic

/-!
Regular expressions as a library offers them: a text is compiled once, and then texts are searched. What
the library makes of a text is left open. Matching relies only on where matches stand, and on the anchors
at both ends of an expression that has to fill a region.
-/

namespace Phrasebook

/-- What a match and its groups matched; a group that took no part has no text. -/
structure Captured where
  text : Text
  groups : List (Option Text)
deriving DecidableEq, Repr

/-- What a group matched; group 0 is the whole match. -/
def Captured.group? (m : Captured) (i : Nat) : Option Text :=
  match i with
  | 0 => some m.text
  | i + 1 => (m.groups[i]?).join

namespace Regex

structure Match extends Captured where
  start : Nat
deriving DecidableEq, Repr

def Match.stop (m : Match) : Nat := m.start + m.text.width

/-- The text of a regular expression that must match from end to end. -/
def anchored (source : Text) : Text := "^(?:".toList ++ source ++ ")$".toList

end Regex

class RegexEngine where
  /-- Compiled expressions. -/
  Code : Type
  /-- The expression with a source, or what is wrong with the source. -/
  compile : Text → Except String Code
  /-- The leftmost match at or after a byte; the text before it is in view. -/
  findAfter? : Code → Text → Nat → Option Regex.Match
  /-- The matches that do not overlap, left to right. -/
  findAll : Code → Text → List Regex.Match

abbrev Regex [RegexEngine] : Type := RegexEngine.Code

namespace Regex

variable [RegexEngine]

def findAfter? (r : Regex) (t : Text) (i : Nat) : Option Match := RegexEngine.findAfter? r t i

def find? (r : Regex) (t : Text) : Option Match := r.findAfter? t 0

def findAll (r : Regex) (t : Text) : List Match := RegexEngine.findAll r t

end Regex

/-- Matches stand at places of the text, and none before the place from which it is searched for. -/
class RegexEngine.Lawful [RegexEngine] : Prop where
  findAfter?_between {r : Regex} {t : Text} {i : Nat} {m : Regex.Match}
    (h : r.findAfter? t i = some m) : t.between? m.start m.stop = some m.text ∧ i ≤ m.start
  findAll_between {r : Regex} {t : Text} {m : Regex.Match} (h : m ∈ r.findAll t) :
    t.between? m.start m.stop = some m.text

/-- An anchored expression matches nothing but a whole text. -/
class RegexEngine.Anchoring [RegexEngine] : Prop where
  find?_anchored {source : Text} {search whole : Regex} (hs : compile source = .ok search)
    (hw : compile (Regex.anchored source) = .ok whole) {t : Text} {m : Regex.Match}
    (h : whole.find? t = some m) : m.text = t

end Phrasebook
