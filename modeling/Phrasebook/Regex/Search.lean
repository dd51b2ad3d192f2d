import Phrasebook.Regex.Engine
import Phrasebook.Regex.Program

/-!
Matching by threads that run through a program side by side, one character at a time. The threads at
a place in the text are ordered by preference. A state is entered at most once at a place, by the
most preferred thread that comes there; a thread that accepts ends all those behind it. A search
starts a new thread, behind all others, at every place until one has accepted, so it finds the
leftmost match, and of the matches that begin there the preferred one.
-/

namespace Phrasebook.Regex

/-- A place in a text: what stands before it, nearest character first, and what follows. -/
structure Cursor where
  before : Text
  after : Text
deriving DecidableEq, Repr

namespace Cursor

def start (t : Text) : Cursor := ⟨[], t⟩

def at? (t : Text) (i : Nat) : Option Cursor :=
  (t.cut? i).map fun (a, b) => ⟨a.reverse, b⟩

def offset (c : Cursor) : Nat := c.before.width

def next? (c : Cursor) : Option Cursor :=
  match c.after with
  | [] => none
  | x :: t => some ⟨x :: c.before, t⟩

def textTo (c d : Cursor) : Text := c.after.take (c.after.length - d.after.length)

end Cursor

def holds (l : Look) (c : Cursor) : Bool :=
  let wordBefore := c.before.head?.any Text.isWord
  let wordAfter := c.after.head?.any Text.isWord
  match l with
  | .textStart => c.before.isEmpty
  | .textEnd => c.after.isEmpty
  | .lineStart => c.before.head?.all (· == '\n')
  | .lineEnd => c.after.head?.all (· == '\n')
  | .wordBoundary => wordBefore != wordAfter
  | .noWordBoundary => wordBefore == wordAfter
  | .wordStart => !wordBefore && wordAfter
  | .wordEnd => wordBefore && !wordAfter
  | .wordStartHalf => !wordBefore
  | .wordEndHalf => !wordAfter

/-- A thread: the state it has come to, where it began, and the borders of groups that it has passed,
latest first. -/
structure Thread where
  state : Nat
  origin : Cursor
  entered : List (Nat × Cursor) := []
  left : List (Nat × Cursor × Cursor) := []

/-- The threads at one place, the preferred one last, each about to read or to accept. For every
state `entered` holds the place where it was entered last, as the number of characters that
follow. -/
structure Front where
  threads : List Thread
  entered : Array Nat

/-- The states that follow a state without a character, the preferred one first; `none` if it reads
or accepts. -/
def Thread.onward? (t : Thread) (here : Cursor) : State → Option (List Thread)
  | .accept => none
  | .read _ _ => none
  | .look l next => some (if holds l here then [{ t with state := next }] else [])
  | .enter g next => some [{ t with state := next, entered := (g, here) :: t.entered }]
  | .leave g next =>
    some [{ t with
      state := next
      left := (g, (t.entered.lookup g).getD here, here) :: t.left }]
  | .fork first second => some [{ t with state := first }, { t with state := second }]

namespace Program

/-- Lets the waiting threads, the preferred one first, run on until they read or accept. `ahead` is
the number of characters that follow the place. -/
def settle (p : Program) (here : Cursor) (ahead : Nat) :
    (fuel : Nat) → (waiting threads : List Thread) → (entered : Array Nat) → Front
  | 0, _, threads, entered => ⟨threads, entered⟩
  | _ + 1, [], threads, entered => ⟨threads, entered⟩
  | fuel + 1, t :: waiting, threads, entered =>
    if entered[t.state]? == some ahead then settle p here ahead fuel waiting threads entered
    else
      let entered := entered.setIfInBounds t.state ahead
      match p.states[t.state]?.map (t.onward? here) with
      | none => settle p here ahead fuel waiting threads entered
      | some none => settle p here ahead fuel waiting (t :: threads) entered
      | some (some ts) => settle p here ahead fuel (ts ++ waiting) threads entered

/-- Adds a thread, and those it splits into, behind the ones at a place. Every state makes at most
two threads. -/
def enter (p : Program) (here : Cursor) (ahead : Nat) (f : Front) (t : Thread) : Front :=
  p.settle here ahead (2 * p.states.size + 1) [t] f.threads f.entered

def begin (p : Program) (here : Cursor) (ahead : Nat) (f : Front) : Front :=
  p.enter here ahead f { state := p.start, origin := here }

def accepts (p : Program) (t : Thread) : Bool := p.states[t.state]? == some .accept

def advance (p : Program) (c : Char) (here : Cursor) (ahead : Nat) (f : Front) (t : Thread) :
    Front :=
  match p.states[t.state]? with
  | some (.read s next) => if s.mem c then p.enter here ahead f { t with state := next } else f
  | _ => f

/-- Runs the threads at a place to the end. `found` is the thread that accepted last, and where it
did. -/
def run (p : Program) : (before after : Text) → (ahead : Nat) → Front →
    (found : Option (Thread × Cursor)) → Option (Thread × Cursor)
  | before, after, ahead, ⟨threads, entered⟩, found =>
    let (threads, others) := threads.reverse.span (!p.accepts ·)
    let found := match others with
      | [] => found
      | t :: _ => some (t, ⟨before, after⟩)
    match after with
    | [] => found
    | c :: after =>
      if threads.isEmpty && found.isSome then found
      else
        let here : Cursor := ⟨c :: before, after⟩
        let ahead := ahead - 1
        let f := threads.foldl (p.advance c here ahead) ⟨[], entered⟩
        run p (c :: before) after ahead (if found.isSome then f else p.begin here ahead f) found

def search (p : Program) (c : Cursor) : Option (Thread × Cursor) :=
  let ahead := c.after.length
  p.run c.before c.after ahead
    (p.begin c ahead ⟨[], Array.replicate p.states.size (ahead + 1)⟩) none

end Program

def Thread.result (t : Thread) (groups : Nat) (stop : Cursor) : Match where
  start := t.origin.offset
  text := t.origin.textTo stop
  groups := (List.range groups).map fun i =>
    (t.left.lookup (i + 1)).map fun (a, b) => a.textTo b

namespace Machine

def findFrom? (r : Machine) (c : Cursor) : Option (Match × Cursor) :=
  (r.program.search c).map fun (t, stop) => (t.result r.groups stop, stop)

/-- The leftmost match that starts at or after byte `i`; the text before it is in view. -/
def findAfter? (r : Machine) (t : Text) (i : Nat) : Option Match := do
  let c ← Cursor.at? t i
  let (m, _) ← r.findFrom? c
  some m

/-- The matches from a place on, left to right. A match is searched for from where the last one
ended; an empty match there would repeat that end and is passed over. -/
def findAllFrom (r : Machine) : (fuel : Nat) → (lastEnd : Option Nat) → Cursor → List Match
  | 0, _, _ => []
  | fuel + 1, lastEnd, c =>
    match r.findFrom? c with
    | none => []
    | some (m, stop) =>
      if m.text.isEmpty && lastEnd == some m.start then
        match c.next? with
        | none => []
        | some c => r.findAllFrom fuel lastEnd c
      else m :: r.findAllFrom fuel (some m.stop) stop

def findAll (r : Machine) (t : Text) : List Match :=
  r.findAllFrom (2 * t.length + 2) none (Cursor.start t)

end Machine

end Phrasebook.Regex
