import Phrasebook.Regex.Program
import Phrasebook.Regex.Room

/-!
Reading a regular expression from its text. Only the fact that a text is no regular expression is
reported, so every reader answers with an option. Every step consumes at least one character; the
length of the text bounds the recursion.
-/

namespace Phrasebook.Regex

/-- The settings that a directive such as `(?i)` changes, up to the end of the enclosing group. -/
structure Flags where
  anyCase : Bool := false
  multiLine : Bool := false
  dotMatchesNewline : Bool := false

namespace Flags

def set? (f : Flags) (letter : Char) (value : Bool) : Option Flags :=
  match letter with
  | 'i' => some { f with anyCase := value }
  | 'm' => some { f with multiLine := value }
  | 's' => some { f with dotMatchesNewline := value }
  | _ => none

end Flags

structure Seen where
  flags : Flags := {}
  groups : Nat := 0
  names : List Text := []

/-- An expression as it is written: `nesting` tells how deep its parts stand inside each other. -/
structure Part where
  node : Node
  nesting : Nat := 0

/-- One element of a sequence. A directive stands in it but cannot be repeated. -/
inductive Piece where
  | part (p : Part)
  | directive

def Piece.toPart : Piece → Part
  | part p => p
  | directive => ⟨.empty, 0⟩

inductive Escaped where
  | char (c : Char)
  | set (s : CharSet)
  | look (l : Look)

def hexValue? (digits : Text) : Option Nat :=
  digits.foldlM (fun n c =>
    if c.isDigit then some (16 * n + (c.toNat - '0'.toNat))
    else if 'a' ≤ c ∧ c ≤ 'f' then some (16 * n + (c.toNat - 'a'.toNat + 10))
    else if 'A' ≤ c ∧ c ≤ 'F' then some (16 * n + (c.toNat - 'A'.toNat + 10))
    else none) 0

def charOfCode? (n : Nat) : Option Char :=
  if n.isValidChar then some (Char.ofNat n) else none

/-- A code point in hexadecimal: `width` digits, or any positive number of them in braces. -/
def codePoint? (width : Nat) (t : Text) : Option (Escaped × Text) :=
  match t with
  | '{' :: t => do
    let digits := t.takeWhile (· ≠ '}')
    let rest ← (t.drop digits.length).tail?
    if digits.isEmpty then none
    let c ← (← hexValue? digits) |> charOfCode?
    some (.char c, rest)
  | t => do
    if t.length < width then none
    let c ← (← hexValue? (t.take width)) |> charOfCode?
    some (.char c, t.drop width)

def isLookLetter (c : Char) : Bool := c.isAlpha || c == '-'

/-- The test that `\b` starts, with the braces that may refine it; braces around anything but
letters are left for a count. -/
def boundary? (t : Text) : Option (Escaped × Text) :=
  match t with
  | ['{'] => none
  | '{' :: c :: t =>
    if isLookLetter c then
      let name := c :: t.takeWhile isLookLetter
      match t.dropWhile isLookLetter with
      | '}' :: rest =>
        match String.ofList name with
        | "start" => some (.look .wordStart, rest)
        | "end" => some (.look .wordEnd, rest)
        | "start-half" => some (.look .wordStartHalf, rest)
        | "end-half" => some (.look .wordEndHalf, rest)
        | _ => none
      | _ => none
    else some (.look .wordBoundary, '{' :: c :: t)
  | t => some (.look .wordBoundary, t)

def escape? (t : Text) : Option (Escaped × Text) :=
  match t with
  | [] => none
  | c :: t =>
    match c with
    | 'x' => codePoint? 2 t
    | 'u' => codePoint? 4 t
    | 'U' => codePoint? 8 t
    | 'd' => some (.set .digit, t)
    | 'D' => some (.set CharSet.digit.complement, t)
    | 's' => some (.set .blank, t)
    | 'S' => some (.set CharSet.blank.complement, t)
    | 'w' => some (.set .word, t)
    | 'W' => some (.set CharSet.word.complement, t)
    | 'a' => some (.char '\x07', t)
    | 'f' => some (.char '\x0c', t)
    | 't' => some (.char '\t', t)
    | 'n' => some (.char '\n', t)
    | 'r' => some (.char '\r', t)
    | 'v' => some (.char '\x0b', t)
    | 'A' => some (.look .textStart, t)
    | 'z' => some (.look .textEnd, t)
    | 'b' => boundary? t
    | 'B' => some (.look .noWordBoundary, t)
    | '<' => some (.look .wordStart, t)
    | '>' => some (.look .wordEnd, t)
    | c => if c.toNat < 0x80 && !c.isAlphanum then some (.char c, t) else none

def asciiRanges? (name : String) : Option (List (Char × Char)) :=
  match name with
  | "alnum" => some [('0', '9'), ('A', 'Z'), ('a', 'z')]
  | "alpha" => some [('A', 'Z'), ('a', 'z')]
  | "ascii" => some [('\x00', '\x7f')]
  | "blank" => some [('\t', '\t'), (' ', ' ')]
  | "cntrl" => some [('\x00', '\x1f'), ('\x7f', '\x7f')]
  | "digit" => some [('0', '9')]
  | "graph" => some [('!', '~')]
  | "lower" => some [('a', 'z')]
  | "print" => some [(' ', '~')]
  | "punct" => some [('!', '/'), (':', '@'), ('[', '\x60'), ('\x7b', '~')]
  | "space" => some [('\t', '\r'), (' ', ' ')]
  | "upper" => some [('A', 'Z')]
  | "word" => some [('0', '9'), ('A', 'Z'), ('_', '_'), ('a', 'z')]
  | "xdigit" => some [('0', '9'), ('A', 'F'), ('a', 'f')]
  | _ => none

def namedSet? (t : Text) : Option (CharSet × Text) :=
  match t with
  | ':' :: t => do
    let (negated, t) := match t with
      | '^' :: t => (true, t)
      | t => (false, t)
    let name := t.takeWhile (· ≠ ':')
    let ranges ← asciiRanges? (String.ofList name)
    let s : CharSet := .ofRanges (ranges.map fun (a, b) => (a.toNat, b.toNat))
    match t.drop name.length with
    | ':' :: ']' :: rest => some (if negated then s.complement else s, rest)
    | _ => none
  | _ => none

def setItem? (t : Text) : Option (Escaped × Text) :=
  match t with
  | [] => none
  | '\\' :: t => do
    match ← escape? t with
    | (.look _, _) => none
    | found => some found
  | c :: t => some (.char c, t)

def Escaped.toSet : Escaped → CharSet
  | .char c => .single c
  | .set s => s
  | .look _ => .empty

def setRange? (t : Text) : Option (CharSet × Text) := do
  let (first, t) ← setItem? t
  match t with
  | [] => none
  | '-' :: ']' :: _ => some (first.toSet, t)
  | '-' :: '-' :: _ => some (first.toSet, t)
  | '-' :: t =>
    let (last, t) ← setItem? t
    match first, last with
    | .char a, .char b => if a ≤ b then some (.range a b, t) else none
    | _, _ => none
  | t => some (first.toSet, t)

inductive SetOp where
  | inter
  | difference
  | symmetricDifference

def folded (flags : Flags) (s : CharSet) : CharSet := if flags.anyCase then s.anyCase else s

structure SetPart where
  set : CharSet
  nesting : Nat := 0

/-- The items of a bracketed set that have been read, with their ranges in any order. -/
structure Items where
  ranges : List (Nat × Nat) := []
  count : Nat := 0
  nesting : Nat := 0

namespace Items

def add (items : Items) (s : CharSet) (nesting : Nat := 0) : Items :=
  ⟨s.ranges ++ items.ranges, items.count + 1, max items.nesting nesting⟩

def toPart (items : Items) : SetPart :=
  ⟨.ofRanges items.ranges, if items.count < 2 then items.nesting else items.nesting + 1⟩

end Items

/-- The part read last joined with what stands before the operation in front of it. -/
def joined (flags : Flags) (pending : Option (SetOp × SetPart)) (right : SetPart) : SetPart :=
  match pending with
  | none => right
  | some (op, left) =>
    let a := folded flags left.set
    let b := folded flags right.set
    let s := match op with
      | .inter => a.inter b
      | .difference => a.inter b.complement
      | .symmetricDifference => (a.inter b.complement).union (b.inter a.complement)
    ⟨s, max left.nesting right.nesting + 1⟩

/-- The start of a bracketed set: whether it is complemented, and the dashes, or the one closing
bracket, that are plain characters there. -/
def openSet (t : Text) : Bool × Items × Text :=
  let (negated, t) := match t with
    | '^' :: t => (true, t)
    | t => (false, t)
  let dashes := t.takeWhile (· == '-')
  let items := dashes.foldl (fun items c => items.add (.single c)) ({} : Items)
  match dashes, t.drop dashes.length with
  | [], ']' :: t => (negated, items.add (.single ']'), t)
  | _, t => (negated, items, t)

def closeSet (flags : Flags) (negated : Bool) (p : SetPart) : SetPart :=
  let s := folded flags p.set
  ⟨if negated then s.complement else s, p.nesting + 1⟩

/-- The inside of a bracketed set and its closing bracket; `items` is what the part being read holds
so far. -/
def setBody? (flags : Flags) :
    (fuel : Nat) → (pending : Option (SetOp × SetPart)) → Items → Text → Option (SetPart × Text)
  | 0, _, _, _ => none
  | fuel + 1, pending, items, t =>
    let afterOp (op : SetOp) (t : Text) : Option (SetPart × Text) :=
      setBody? flags fuel (some (op, joined flags pending items.toPart)) {} t
    match t with
    | [] => none
    | ']' :: t => some (joined flags pending items.toPart, t)
    | '&' :: '&' :: t => afterOp .inter t
    | '-' :: '-' :: t => afterOp .difference t
    | '~' :: '~' :: t => afterOp .symmetricDifference t
    | '[' :: t =>
      match namedSet? t with
      | some (s, t) => setBody? flags fuel pending (items.add s) t
      | none => do
        let (negated, start, t) := openSet t
        let (inner, t) ← setBody? flags fuel none start t
        let inner := closeSet flags negated inner
        setBody? flags fuel pending (items.add inner.set inner.nesting) t
    | t => do
      let (s, t) ← setRange? t
      setBody? flags fuel pending (items.add s) t

def bracketed? (flags : Flags) (t : Text) : Option (Part × Text) := do
  let (negated, start, t) := openSet t
  let (inner, t) ← setBody? flags (t.length + 1) none start t
  let s := closeSet flags negated inner
  some (⟨.set s.set, s.nesting⟩, t)

def maxRounds : Nat := UInt32.size - 1

/-- A number with blanks around it; `none` if there is no digit or the number is too large. -/
def count? (t : Text) : Option Nat × Text :=
  let t := t.dropWhile Text.isBlank
  let digits := t.takeWhile Char.isDigit
  let n := digits.foldl (fun n c => 10 * n + (c.toNat - '0'.toNat)) 0
  (if digits.isEmpty || n > maxRounds then none else some n,
    (t.drop digits.length).dropWhile Text.isBlank)

def bounds? (t : Text) : Option ((Nat × Option Nat) × Text) :=
  let (low, t) := count? t
  match t with
  | '}' :: t => do
    let low ← low
    some ((low, some low), t)
  | ',' :: '}' :: t => do
    let low ← low
    some ((low, none), t)
  | ',' :: t => do
    let low ← low
    match count? t with
    | (some high, '}' :: t) => if low ≤ high then some ((low, some high), t) else none
    | _ => none
  | _ => none

/-- Repeats the last piece. A question mark after the bounds makes the repetition prefer fewer
rounds. -/
def repeated? (min : Nat) (max : Option Nat) (pieces : List Piece) (t : Text) :
    Option (List Piece × Text) :=
  let (greedy, t) := match t with
    | '?' :: t => (false, t)
    | t => (true, t)
  match pieces with
  | .part p :: pieces =>
    some (.part ⟨p.node.repeated min max greedy, p.nesting + 1⟩ :: pieces, t)
  | _ => none

/-- Several parts joined stand one level deeper than a single one. -/
def joinParts (join : List Node → Node) (ps : List Part) : Part :=
  match ps with
  | [p] => p
  | ps =>
    let deepest := ps.foldl (fun n p => max n p.nesting) 0
    ⟨join (ps.map (·.node)), if ps.isEmpty then 0 else deepest + 1⟩

def sequence (pieces : List Piece) : Part :=
  joinParts .sequence (pieces.reverse.map Piece.toPart)

def alternatives (last : Part) (others : List Part) : Part :=
  joinParts .choice (others.reverse ++ [last])

def isNameChar (first : Bool) (c : Char) : Bool :=
  c == '_' || if first then Text.isAlphabetic c
    else c == '.' || c == '[' || c == ']' || Text.isAlphanumeric c

def groupName? (names : List Text) (t : Text) : Option (Text × Text) :=
  let name := t.takeWhile (· ≠ '>')
  match name, t.drop name.length with
  | first :: others, '>' :: rest =>
    if isNameChar true first && others.all (isNameChar false) && !names.contains name then
      some (name, rest)
    else none
  | _, _ => none

/-- The letters of a directive up to the colon or parenthesis that ends it. A minus turns the
letters after it off; it needs one, and neither it nor a letter may stand twice. -/
def directive? (flags : Flags) :
    (value : Bool) → (used : List Char) → Text → Option (Flags × List Char × Char × Text)
  | _, _, [] => none
  | value, used, c :: t =>
    if c = ':' ∨ c = ')' then
      if used.head? = some '-' then none else some (flags, used, c, t)
    else if used.contains c then none
    else if c = '-' then directive? flags false (c :: used) t
    else do
      let flags ← flags.set? c value
      directive? flags value (c :: used) t

inductive Opening where
  | recording (seen : Seen)
  | plain (seen : Seen)
  | directive (seen : Seen)

def opening? (seen : Seen) (t : Text) : Option (Opening × Text) :=
  let named (t : Text) : Option (Opening × Text) := do
    let (name, t) ← groupName? seen.names t
    some (.recording { seen with groups := seen.groups + 1, names := name :: seen.names }, t)
  match t with
  | '?' :: 'P' :: '<' :: t => named t
  | '?' :: '<' :: t => named t
  | '?' :: t => do
    let (flags, used, ending, t) ← directive? seen.flags true [] t
    if ending = ':' then some (.plain { seen with flags := flags }, t)
    else if used.isEmpty then none
    else some (.directive { seen with flags := flags }, t)
  | t => some (.recording { seen with groups := seen.groups + 1 }, t)

def charNode (flags : Flags) (c : Char) : Node :=
  match c with
  | '.' =>
    .set (if flags.dotMatchesNewline then .complement .empty else .complement (.single '\n'))
  | '^' => .look (if flags.multiLine then .lineStart else .textStart)
  | '$' => .look (if flags.multiLine then .lineEnd else .textEnd)
  | c => .set (folded flags (.single c))

/-- Reads up to the end of the enclosing group or of the text. `others` holds the finished
alternatives and `pieces` the one being read, both last one first. -/
def branches? : (fuel : Nat) → Seen → (others : List Part) → (pieces : List Piece) → Text →
    Option (Part × Seen × Text)
  | 0, _, _, _, _ => none
  | fuel + 1, seen, others, pieces, t =>
    match t with
    | [] => some (alternatives (sequence pieces) others, seen, [])
    | ')' :: t => some (alternatives (sequence pieces) others, seen, ')' :: t)
    | '|' :: t => branches? fuel seen (sequence pieces :: others) [] t
    | '*' :: t => do
      let (pieces, t) ← repeated? 0 none pieces t
      branches? fuel seen others pieces t
    | '+' :: t => do
      let (pieces, t) ← repeated? 1 none pieces t
      branches? fuel seen others pieces t
    | '?' :: t => do
      let (pieces, t) ← repeated? 0 (some 1) pieces t
      branches? fuel seen others pieces t
    | '{' :: t => do
      let ((min, max), t) ← bounds? t
      let (pieces, t) ← repeated? min max pieces t
      branches? fuel seen others pieces t
    | '[' :: t => do
      let (p, t) ← bracketed? seen.flags t
      branches? fuel seen others (.part p :: pieces) t
    | '(' :: t => do
      let (opening, t) ← opening? seen t
      match opening with
      | .directive inner => branches? fuel inner others (.directive :: pieces) t
      | .plain inner =>
        let (p, after, t) ← branches? fuel inner [] [] t
        let t ← t.tail?
        branches? fuel { after with flags := seen.flags } others
          (.part ⟨p.node, p.nesting + 1⟩ :: pieces) t
      | .recording inner =>
        let (p, after, t) ← branches? fuel inner [] [] t
        let t ← t.tail?
        branches? fuel { after with flags := seen.flags } others
          (.part ⟨.group inner.groups p.node, p.nesting + 1⟩ :: pieces) t
    | '\\' :: t => do
      let (found, t) ← escape? t
      let n := match found with
        | .char c => .set (folded seen.flags (.single c))
        | .set s => .set s
        | .look l => .look l
      branches? fuel seen others (.part ⟨n, 0⟩ :: pieces) t
    | c :: t => branches? fuel seen others (.part ⟨charNode seen.flags c, 0⟩ :: pieces) t

/-- Reads a regular expression. One that is nested too deep or too large is none. -/
def Machine.ofText? (t : Text) : Option Machine :=
  match branches? (t.length + 1) {} [] [] t with
  | some (p, _, []) =>
    if maxNesting < p.nesting || p.node.isTooLarge then none else some (.ofNode p.node)
  | _ => none

end Phrasebook.Regex
