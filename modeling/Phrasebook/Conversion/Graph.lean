import Phrasebook.Conversion.Basic

/-!
The registered conversions and the search for one between two classes. A pair of classes is covered
by a conversion when each class is related to the one at its end; a pair is covered at most once, so
chaining conversions until nothing new is covered comes to an end.
-/

namespace Phrasebook

/-- The conversions between the classes of a tree, in the order in which they are tried. -/
structure ConversionGraph where
  classes : ClassTree
  edges : List Conversion

namespace ConversionGraph

def empty (classes : ClassTree) : ConversionGraph := ⟨classes, []⟩

def related (g : ConversionGraph) (a b : ClassId) : Bool :=
  g.classes.isAssignable a b || g.classes.isAssignable b a

/-- Whether a conversion already serves the pair, perhaps with checks. -/
def covers (g : ConversionGraph) (source target : ClassId) : Bool :=
  g.edges.any fun e => g.related e.source source && g.related e.target target

/-- Adds a conversion, in front of the first one that is broader at both ends. Nothing is added when
the pair is covered. -/
def register (g : ConversionGraph) (e : Conversion) : Option ConversionGraph :=
  if g.covers e.source e.target then none
  else
    let isBroader (other : Conversion) : Bool :=
      g.classes.isAssignable e.source other.source && g.classes.isAssignable other.target e.target
    match g.edges.findIdx? isBroader with
    | some i => some { g with edges := g.edges.take i ++ e :: g.edges.drop i }
    | none => some { g with edges := g.edges ++ [e] }

def chain? (g : ConversionGraph) (f h : Conversion) : Option Conversion :=
  if !f.limits.notFirst && !h.limits.notSecond && g.classes.isAssignable f.target h.source &&
      !g.covers f.source h.target then
    some (f.andThen h)
  else none

/-- Chains the conversion at position `i` with the ones at `j`, `j + 1`, … in turn, new ones at the
end included. -/
def chainRow (i : Nat) : (fuel j : Nat) → ConversionGraph → ConversionGraph
  | 0, _, g => g
  | fuel + 1, j, g =>
    match g.edges[i]?, g.edges[j]? with
    | some f, some h =>
      chainRow i fuel (j + 1)
        (match g.chain? f h with
        | some e => { g with edges := g.edges ++ [e] }
        | none => g)
    | _, _ => g

def chainRows (limit : Nat) : (fuel i : Nat) → ConversionGraph → ConversionGraph
  | 0, _, g => g
  | fuel + 1, i, g =>
    if i < g.edges.length then chainRows limit fuel (i + 1) (chainRow i limit 0 g) else g

/-- Adds the chains of two conversions until none is missing. Every chain departs where some
conversion departs and arrives where one arrives, and no pair is served twice, which bounds the
number of conversions. -/
def closure (g : ConversionGraph) : ConversionGraph :=
  let limit := g.edges.length * g.edges.length + 1
  chainRows limit limit 0 g

/-- The route from one class to another: a conversion that fits as it is, else one that fits after a
check on one side, else one that needs both checks. -/
def route? (g : ConversionGraph) (source target : ClassId) : Option Route :=
  let le := g.classes.isAssignable
  let fits (e : Conversion) : Option Route :=
    if le source e.source && le e.target target then some (.direct e.run) else none
  let fitsChecked (e : Conversion) : Option Route :=
    if le source e.source && le target e.target then some (.checkOutput target e.run)
    else if le e.source source && le e.target target then some (.checkInput e.source e.run)
    else none
  let fitsBothChecked (e : Conversion) : Option Route :=
    if le e.source source && le target e.target then some (.checkBoth e.source target e.run)
    else none
  (g.edges.findSome? fits).or ((g.edges.findSome? fitsChecked).or
    (g.edges.findSome? fitsBothChecked))

def convert? (g : ConversionGraph) (v : Value) (target : ClassId) : Option Value :=
  if v.isInstance target g.classes then some v
  else (g.route? v.kind target).bind (·.apply v g.classes)

def mayConvert (g : ConversionGraph) (source target : ClassId) : Bool :=
  g.related source target || (g.route? source target).isSome

end ConversionGraph

end Phrasebook
