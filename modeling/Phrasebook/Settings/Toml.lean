import Phrasebook.Text.Basic
import Phrasebook.Decimal

/-!
TOML documents. Reading answers with the root table, or with nothing for a text that is no document:
a syntax error, a key given twice, or a table defined in two ways. Dates and times are not read.
-/

namespace Phrasebook.Toml

/-- How a table came to be, which decides what may be added to it later. -/
inductive Origin where
  /-- Under a header of its own. -/
  | header
  /-- On the way to the table of a header. -/
  | implied
  /-- On the way to a key with dots. -/
  | dotted
deriving DecidableEq, Repr

/-- A value or a table. Values in braces and in brackets are complete where they stand. -/
inductive Item where
  | text (s : Text)
  | integer (n : Int)
  | float
  | boolean (b : Bool)
  | array
  | inline
  | table (origin : Origin) (entries : List (Text × Item))
  /-- The tables under double brackets, latest first. -/
  | tables (ts : List (List (Text × Item)))
deriving Repr

abbrev Entries := List (Text × Item)

def Entries.set (es : Entries) (key : Text) (item : Item) : Entries :=
  match es with
  | [] => [(key, item)]
  | (k, i) :: es => if k = key then (k, item) :: es else (k, i) :: Entries.set es key item

/-- Changes the table at the end of a path, making the tables on the way. `dottedKey` tells that the
path belongs to a key with dots: such a path does not lead through a table with a header. -/
def descend (dottedKey : Bool) (change : Option Origin → Entries → Option Entries) :
    List Text → Option Origin → Entries → Option Entries
  | [], origin, es => change origin es
  | key :: path, _, es =>
    match es.lookup key with
    | none => do
      let origin := if dottedKey then Origin.dotted else Origin.implied
      let inner ← descend dottedKey change path (some origin) []
      some (es.set key (.table origin inner))
    | some (.table origin inner) =>
      if dottedKey && origin == .header then none
      else do
        let inner ← descend dottedKey change path (some origin) inner
        some (es.set key (.table origin inner))
    | some (.tables (t :: ts)) => do
      let t ← descend dottedKey change path (some .header) t
      some (es.set key (.tables (t :: ts)))
    | some _ => none

/-- Adds a value under a key, which may have dots. The table for a key with dots must itself have
been made by dots. -/
def addValue (path : List Text) (key : Text) (item : Item) (es : Entries) : Option Entries :=
  descend true (fun origin es =>
    if !path.isEmpty && origin != some .dotted then none
    else if (es.lookup key).isSome then none
    else some (es ++ [(key, item)])) path none es

def skipBlanks (t : Text) : Text := t.dropWhile fun c => c == ' ' || c == '\t'

def isLineChar (c : Char) : Bool := c == '\t' || (c.toNat ≥ 0x20 && c.toNat ≠ 0x7f)

def lineEnd? (t : Text) : Option Text :=
  match t with
  | '\n' :: t => some t
  | '\r' :: '\n' :: t => some t
  | _ => none

def skipComment (t : Text) : Text :=
  match t with
  | '#' :: t => t.dropWhile isLineChar
  | t => t

def finishLine? (t : Text) : Option Text :=
  match skipComment (skipBlanks t) with
  | [] => some []
  | t => lineEnd? t

def skipLines : (fuel : Nat) → Text → Text
  | 0, t => t
  | fuel + 1, t =>
    let t := skipComment (skipBlanks t)
    match lineEnd? t with
    | some t => skipLines fuel t
    | none => t

def hexDigit? (c : Char) : Option Nat :=
  if c.isDigit then some (c.toNat - '0'.toNat)
  else if 'a' ≤ c ∧ c ≤ 'f' then some (c.toNat - 'a'.toNat + 10)
  else if 'A' ≤ c ∧ c ≤ 'F' then some (c.toNat - 'A'.toNat + 10)
  else none

def unicode? (n : Nat) (t : Text) : Option (Char × Text) := do
  if t.length < n then none
  let code ← (t.take n).foldlM (fun code c => (hexDigit? c).map (16 * code + ·)) 0
  if code.isValidChar then some (Char.ofNat code, t.drop n) else none

def escape? (t : Text) : Option (Char × Text) :=
  match t with
  | 'b' :: t => some ('\x08', t)
  | 't' :: t => some ('\t', t)
  | 'n' :: t => some ('\n', t)
  | 'f' :: t => some ('\x0c', t)
  | 'r' :: t => some ('\r', t)
  | '"' :: t => some ('"', t)
  | '\\' :: t => some ('\\', t)
  | 'u' :: t => unicode? 4 t
  | 'U' :: t => unicode? 8 t
  | _ => none

def lineString? (quote : Char) : (fuel : Nat) → Text → Option (Text × Text)
  | 0, _ => none
  | _ + 1, [] => none
  | fuel + 1, c :: t =>
    if c = quote then some ([], t)
    else if c = '\\' ∧ quote = '"' then do
      let (e, t) ← escape? t
      let (s, t) ← lineString? quote fuel t
      some (e :: s, t)
    else if isLineChar c then do
      let (s, t) ← lineString? quote fuel t
      some (c :: s, t)
    else none

/-- The inside of a string on several lines, and what follows the three quotes that close it. Up to
two more quotes belong to the string. -/
def linesString? (quote : Char) : (fuel : Nat) → Text → Option (Text × Text)
  | 0, _ => none
  | _ + 1, [] => none
  | fuel + 1, c :: t =>
    if c = quote then
      let quotes := (c :: t).takeWhile (· == quote)
      let rest := (c :: t).drop quotes.length
      if quotes.length < 3 then do
        let (s, t) ← linesString? quote fuel rest
        some (quotes ++ s, t)
      else if quotes.length ≤ 5 then some (quotes.drop 3, rest)
      else none
    else if c = '\\' ∧ quote = '"' then
      match lineEnd? (skipBlanks t) with
      | some rest =>
        linesString? quote fuel (rest.dropWhile fun c => c == ' ' || c == '\t' || c == '\n' || c == '\r')
      | none => do
        let (e, t) ← escape? t
        let (s, t) ← linesString? quote fuel t
        some (e :: s, t)
    else
      match lineEnd? (c :: t) with
      | some rest => do
        let (s, t) ← linesString? quote fuel rest
        some ('\n' :: s, t)
      | none =>
        if isLineChar c then do
          let (s, t) ← linesString? quote fuel t
          some (c :: s, t)
        else none

def string? (t : Text) : Option (Text × Text) :=
  let body (quote : Char) (t : Text) : Option (Text × Text) :=
    linesString? quote (t.length + 1) ((lineEnd? t).getD t)
  match t with
  | '"' :: '"' :: '"' :: t => body '"' t
  | '\'' :: '\'' :: '\'' :: t => body '\'' t
  | '"' :: t => lineString? '"' (t.length + 1) t
  | '\'' :: t => lineString? '\'' (t.length + 1) t
  | _ => none

def isBareKeyChar (c : Char) : Bool := c.isAlphanum || c == '_' || c == '-'

def simpleKey? (t : Text) : Option (Text × Text) :=
  match t with
  | '"' :: t => lineString? '"' (t.length + 1) t
  | '\'' :: t => lineString? '\'' (t.length + 1) t
  | t =>
    let key := t.takeWhile isBareKeyChar
    if key.isEmpty then none else some (key, t.drop key.length)

/-- How many parts a key may have, and how many brackets may stand inside each other. -/
def maxDepth : Nat := 79

/-- A key with the parts before its last dot, and what follows it and its blanks; `room` bounds the
number of parts. -/
def dottedKey? : (room : Nat) → Text → Option ((List Text × Text) × Text)
  | 0, _ => none
  | room + 1, t => do
    let (part, t) ← simpleKey? (skipBlanks t)
    match skipBlanks t with
    | '.' :: t =>
      let ((path, key), t) ← dottedKey? room t
      some ((part :: path, key), t)
    | t => some (([], part), t)

def key? (t : Text) : Option ((List Text × Text) × Text) := dottedKey? maxDepth t

/-- Whether a text is a row of digits with single underscores between them. -/
def isDigits (isDigit : Char → Bool) : Text → Bool
  | [] => false
  | [c] => isDigit c
  | c :: '_' :: t => isDigit c && isDigits isDigit t
  | c :: t => isDigit c && isDigits isDigit t

def digitsValue (base : Nat) (t : Text) : Nat :=
  t.foldl (fun n c => match hexDigit? c with
    | some d => base * n + d
    | none => n) 0

def integer64? (n : Int) : Option Item :=
  if Int64.minValue.toInt ≤ n ∧ n ≤ Int64.maxValue.toInt then some (.integer n) else none

def exponent? (t : Text) : Option Int :=
  let signed (sign : Int) (t : Text) : Option Int :=
    if isDigits Char.isDigit t then some (sign * digitsValue 10 t) else none
  match t with
  | '-' :: t => signed (-1) t
  | '+' :: t => signed 1 t
  | t => signed 1 t

/-- A number with a fraction, an exponent or both, without its sign, as `(n, e)` for `n * 10 ^ e`.
There are digits on both sides of the point, and a zero does not lead. -/
def scientific? (t : Text) : Option (Nat × Int) :=
  let isDigit (c : Char) : Bool := c.isDigit || c == '_'
  let whole := t.takeWhile isDigit
  if !isDigits Char.isDigit whole || (whole.length ≠ 1 && whole.head? == some '0') then none
  else
    let scaled (fraction : Text) (rest : Text) : Option (Nat × Int) :=
      let n := digitsValue 10 (whole ++ fraction)
      let places := (fraction.filter Char.isDigit).length
      match rest with
      | [] => some (n, -places)
      | 'e' :: t => (exponent? t).map fun e => (n, e - places)
      | 'E' :: t => (exponent? t).map fun e => (n, e - places)
      | _ => none
    match t.drop whole.length with
    | [] => none
    | '.' :: t =>
      let fraction := t.takeWhile isDigit
      if isDigits Char.isDigit fraction then scaled fraction (t.drop fraction.length) else none
    | t => scaled [] t

/-- A number, as a whole. One that is too large for a double is none. -/
def number? (t : Text) : Option Item :=
  match t with
  | '0' :: 'x' :: t =>
    if isDigits (hexDigit? · |>.isSome) t then integer64? (digitsValue 16 t) else none
  | '0' :: 'o' :: t =>
    if isDigits (fun c => '0' ≤ c && c ≤ '7') t then integer64? (digitsValue 8 t) else none
  | '0' :: 'b' :: t =>
    if isDigits (fun c => c == '0' || c == '1') t then integer64? (digitsValue 2 t) else none
  | t =>
    let (negative, t) := match t with
      | '-' :: t => (true, t)
      | '+' :: t => (false, t)
      | t => (false, t)
    if isDigits Char.isDigit t && (t.length = 1 || t.head? != some '0') then
      let n : Int := digitsValue 10 t
      integer64? (if negative then -n else n)
    else if t = "inf".toList ∨ t = "nan".toList then some .float
    else do
      let (n, e) ← scientific? t
      if !negative && Decimal.isBeyond n e then none else some .float

def isTokenChar (c : Char) : Bool := c.isAlphanum || c == '_' || c == '+' || c == '-' || c == '.'

def token? (t : Text) : Option (Item × Text) :=
  let token := t.takeWhile isTokenChar
  let rest := t.drop token.length
  if token = "true".toList then some (.boolean true, rest)
  else if token = "false".toList then some (.boolean false, rest)
  else (number? token).map (·, rest)

mutual

/-- A value, from its first character on; `room` bounds the number of brackets inside each other. -/
def value? : (fuel room : Nat) → Text → Option (Item × Text)
  | 0, _, _ => none
  | fuel + 1, room, t =>
    match t, room with
    | '"' :: _, _ => (string? t).map fun (s, t) => (.text s, t)
    | '\'' :: _, _ => (string? t).map fun (s, t) => (.text s, t)
    | '[' :: _, 0 => none
    | '{' :: _, 0 => none
    | '[' :: t, room + 1 => (elements? fuel room t).map (.array, ·)
    | '{' :: t, room + 1 =>
      match skipBlanks t with
      | '}' :: t => some (.inline, t)
      | t => (members? fuel room [] t).map (.inline, ·)
    | t, _ => token? t

/-- The elements of an array up to the bracket that closes it; a comma may follow the last. -/
def elements? : (fuel room : Nat) → Text → Option Text
  | 0, _, _ => none
  | fuel + 1, room, t =>
    match skipLines (t.length + 1) t with
    | ']' :: t => some t
    | t => do
      let (_, t) ← value? fuel room t
      match skipLines (t.length + 1) t with
      | ',' :: t => elements? fuel room t
      | ']' :: t => some t
      | _ => none

def members? : (fuel room : Nat) → Entries → Text → Option Text
  | 0, _, _, _ => none
  | fuel + 1, room, es, t => do
    let ((path, key), t) ← key? t
    match t with
    | '=' :: t =>
      let (item, t) ← value? fuel room (skipBlanks t)
      let es ← addValue path key item es
      match skipBlanks t with
      | ',' :: t => members? fuel room es t
      | '}' :: t => some t
      | _ => none
    | _ => none

end

/-- The tables under headers that are complete, and the one being filled. -/
structure Document where
  root : Entries
  current : Entries
  /-- The header of the current table: the path, its last part, and whether it is in double
  brackets; none before the first header. -/
  header : Option (List Text × Text × Bool)

namespace Document

def close (d : Document) : Option Entries :=
  match d.header with
  | none => some d.current
  | some (path, key, double) =>
    descend false (fun _ es =>
      if double then
        match es.lookup key with
        | none => some (es ++ [(key, .tables [d.current])])
        | some (.tables ts) => some (es.set key (.tables (d.current :: ts)))
        | some _ => none
      else some (es.set key (.table .header d.current))) path none d.root

/-- Begins the table of a header. A table that so far is only implied goes on with what it has; any
other must be new, and double brackets must not follow a table or value of the same name. -/
def open? (d : Document) (path : List Text) (key : Text) (double : Bool) : Option Document := do
  let root ← d.close
  let root ← descend false (fun _ es => some es) path none root
  let rec find (path : List Text) (es : Entries) : Option Item :=
    match path with
    | [] => es.lookup key
    | k :: path =>
      match es.lookup k with
      | some (.table _ es) => find path es
      | some (.tables (t :: _)) => find path t
      | _ => none
  match find path root, double with
  | none, _ => some ⟨root, [], some (path, key, double)⟩
  | some (.table .implied es), false => some ⟨root, es, some (path, key, false)⟩
  | some (.tables _), true => some ⟨root, [], some (path, key, true)⟩
  | some _, _ => none

end Document

def lines? : (fuel : Nat) → Document → Text → Option Entries
  | 0, _, _ => none
  | fuel + 1, d, t =>
    match skipBlanks t with
    | [] => d.close
    | '[' :: '[' :: t => do
      let ((path, key), t) ← key? t
      match t with
      | ']' :: ']' :: t => lines? fuel (← d.open? path key true) (← finishLine? t)
      | _ => none
    | '[' :: t => do
      let ((path, key), t) ← key? t
      match t with
      | ']' :: t => lines? fuel (← d.open? path key false) (← finishLine? t)
      | _ => none
    | c :: t =>
      if c = '#' ∨ c = '\n' ∨ c = '\r' then do
        lines? fuel d (← finishLine? (c :: t))
      else do
        let ((path, key), t) ← key? (c :: t)
        match t with
        | '=' :: t =>
          let t := skipBlanks t
          let (item, t) ← value? (t.length + 1) maxDepth t
          let current ← addValue path key item d.current
          lines? fuel { d with current := current } (← finishLine? t)
        | _ => none

/-- Reads a document; a byte order mark at its start is passed over. -/
def ofText? (t : Text) : Option Entries :=
  let t := match t with
    | '\ufeff' :: t => t
    | t => t
  lines? (t.length + 1) ⟨[], [], none⟩ t

end Phrasebook.Toml
