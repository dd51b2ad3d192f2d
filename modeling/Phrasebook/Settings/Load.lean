import Phrasebook.Settings.Layer
import Phrasebook.Text.Property

/-!
Settings from files and the environment. The file of the user holds for everything; the nearest
local file, found by walking up from a start directory, goes over it; the environment variable goes
over both. A file of the user that is missing or wrong counts for nothing, a wrong local file is an
error. Files are seen as a tree that does not change meanwhile.
-/

namespace Phrasebook

/-- A path below the root of a tree, as its names in order. Among them may be `..` for the directory
above, and `.` or an empty name for the same directory. -/
abbrev Path := List String

namespace Path

def isSame (name : String) : Bool := name == "" || name == "."

/-- A path and those above it, nearest first, down to the root. The names that are left stay as they
are, and no path but the first ends in a name that leads nowhere. -/
def upwards (path : Path) : List Path :=
  let kept := path.reverse.dropWhile isSame
  path :: ((List.range kept.length).reverse.map (path.take ·)).filter fun above =>
    above.getLast?.all (!isSame ·)

end Path

/-- Where a path leads: to what has a path of proper names, or to a directory above the root. -/
inductive Place where
  | inside (path : Path)
  | above
deriving DecidableEq, Repr

inductive FileNode where
  | file (bytes : ByteArray)
  /-- A file that is there but may not be read. -/
  | locked
  | directory

/-- A tree of files. Directories on the way to what is listed are there too, and so is the root. -/
structure FileTree where
  nodes : List (Path × FileNode)

namespace FileTree

def isDirectory (tree : FileTree) (path : Path) : Bool :=
  path.isEmpty || tree.nodes.any fun (p, n) =>
    (path.isPrefixOf p && p.length > path.length) ||
      match n with
      | .directory => p == path
      | .file _ => false
      | .locked => false

def hasFile (tree : FileTree) (path : Path) : Bool :=
  tree.nodes.any fun (p, n) =>
    match n with
    | .file _ => p == path
    | .locked => p == path
    | .directory => false

def bytes? (tree : FileTree) (path : Path) : Option ByteArray :=
  tree.nodes.findSome? fun (p, n) =>
    match n with
    | .file bytes => if p == path then some bytes else none
    | .locked => none
    | .directory => none

/-- Walks a path and answers with the proper names of where it leads; every name on the way must
exist, and nothing leads through a file. `done` is what has been walked, last name first. Above the
root there are directories, of which nothing else is known. -/
def walk? (tree : FileTree) : (done : List String) → Path → Option Place
  | done, [] => some (.inside done.reverse)
  | done, name :: path =>
    if !tree.isDirectory done.reverse then none
    else if Path.isSame name then walk? tree done path
    else if name = ".." then
      match done with
      | [] => if path.all fun name => Path.isSame name || name = ".." then some .above else none
      | _ :: done => walk? tree done path
    else
      let next := (name :: done).reverse
      if tree.isDirectory next || tree.hasFile next then walk? tree (name :: done) path
      else none

def resolve? (tree : FileTree) (path : Path) : Option Place := tree.walk? [] path

def read? (tree : FileTree) (path : Path) : Option ByteArray :=
  match tree.resolve? path with
  | some (.inside path) => tree.bytes? path
  | _ => none

def isFile (tree : FileTree) (path : Path) : Bool :=
  match tree.resolve? path with
  | some (.inside path) => tree.hasFile path
  | _ => false

def readText? (tree : FileTree) (path : Path) : Option Text := do
  let s ← String.fromUTF8? (← tree.read? path)
  some s.toList

/-- The tree with a directory, and with all that a path to it passes through. -/
def makeDirectory (tree : FileTree) (path : Path) : FileTree :=
  (path.foldl (fun (tree, done) name =>
    if name = ".." then (tree, done.dropLast)
    else if Path.isSame name then (tree, done)
    else
      let next := done ++ [name]
      (if tree.isDirectory next then tree else ⟨tree.nodes ++ [(next, .directory)]⟩, next))
    (tree, [])).1

end FileTree

inductive SettingsError where
  | unreadable (path : Path)
  | malformedFile (path : Path)
  | malformed
deriving DecidableEq, Repr

/-- The wording of an error; `root` is the path of the root of the tree. -/
def SettingsError.message (root : String) : SettingsError → String
  | unreadable path => "Failed to read config file: " ++ "/".intercalate (root :: path)
  | malformedFile path => "Failed to parse " ++ "/".intercalate (root :: path)
  | malformed => "Failed to parse config"

structure SettingsFiles where
  /-- In a directory. -/
  plain : String
  /-- In a folder of a directory. -/
  folder : String
  nested : String
  /-- In the home directory. -/
  user : String
deriving DecidableEq, Repr

def SettingsFiles.ofName (name : String) : SettingsFiles where
  plain := name ++ ".toml"
  folder := "." ++ name
  nested := "config.toml"
  user := "." ++ name ++ ".toml"

namespace Settings

def fileIn? (tree : FileTree) (files : SettingsFiles) (dir : Path) : Option Path :=
  let file := dir ++ [files.plain]
  let nested := dir ++ [files.folder, files.nested]
  if tree.isFile file then some file else if tree.isFile nested then some nested else none

def nearestFile? (tree : FileTree) (files : SettingsFiles) (dir : Path) : Option Path :=
  dir.upwards.findSome? (fileIn? tree files)

/-- The local file for a start directory. A start directory that exists is taken by its proper
names, and above the root there is no such file. -/
def localFile? (tree : FileTree) (files : SettingsFiles) (start : Path) : Option Path :=
  match tree.resolve? start with
  | some (.inside path) => nearestFile? tree files path
  | some .above => none
  | none => nearestFile? tree files start

def withoutPlus (t : Text) : Text :=
  match t with
  | '+' :: t => t
  | t => t

/-- The number that a row of digits gives, if it fits 64 bits. -/
def count64? (digits : Text) : Option Nat :=
  if digits.isEmpty || !digits.all Char.isDigit then none
  else
    let n := digits.foldl (fun n c => 10 * n + (c.toNat - '0'.toNat)) 0
    if n < UInt64.size then some n else none

/-- The number that a value of the environment variable gives, blanks around it aside. -/
def environmentCapacity? (value : String) : Option Nat :=
  count64? (withoutPlus (Text.trim value.toList))

def withEnvironment (s : Settings) (value : Option String) : Settings :=
  match value.bind environmentCapacity? with
  | some n => { s with recentCapacity := n }
  | none => s

end Settings

/-- How the text of a document is read as a layer; `none` is a text that is no such document. -/
abbrev SettingsFormat := Text → Option SettingsLayer

namespace SettingsFormat

variable (format : SettingsFormat)

def ofText (t : Text) : Except SettingsError Settings :=
  match format t with
  | some l => .ok (l.apply {})
  | none => .error .malformed

def ofFile (tree : FileTree) (path : Path) : Except SettingsError Settings :=
  match tree.readText? path with
  | some t => format.ofText t
  | none => .error (.unreadable path)

/-- The settings of the user; the defaults if there is no file with settings. -/
def ofUser (tree : FileTree) (files : SettingsFiles) (home : Path) : Settings :=
  match format.ofFile tree (home ++ [files.user]) with
  | .ok s => s
  | .error _ => {}

def load (tree : FileTree) (files : SettingsFiles) (home : Path) (environment : Option String)
    (start : Path) : Except SettingsError Settings := do
  let user := format.ofUser tree files home
  match Settings.localFile? tree files start with
  | none => return user.withEnvironment environment
  | some path =>
    match tree.readText? path with
    | none => throw (.unreadable path)
    | some t =>
      match format t with
      | none => throw (.malformedFile path)
      | some l => return (l.apply user).withEnvironment environment

def toml : SettingsFormat := SettingsLayer.ofText?

end SettingsFormat

namespace Settings

def ofText (t : Text) : Except SettingsError Settings := SettingsFormat.toml.ofText t

def ofFile (tree : FileTree) (path : Path) : Except SettingsError Settings :=
  SettingsFormat.toml.ofFile tree path

def load (tree : FileTree) (files : SettingsFiles) (home : Path) (environment : Option String)
    (start : Path) : Except SettingsError Settings :=
  SettingsFormat.toml.load tree files home environment start

end Settings

end Phrasebook
