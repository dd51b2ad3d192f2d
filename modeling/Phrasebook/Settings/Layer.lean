import Phrasebook.Settings.Basic
import Phrasebook.Settings.Toml

/-!
One layer of settings: a document that gives some of the settings and says nothing about the others.
-/

namespace Phrasebook

structure SettingsLayer where
  logUnresolved : Option Bool
  recentCapacity : Option Nat
  parallelLines : Option Nat
deriving DecidableEq, Repr

namespace SettingsLayer

def apply (l : SettingsLayer) (s : Settings) : Settings where
  logUnresolved := l.logUnresolved.getD s.logUnresolved
  recentCapacity := l.recentCapacity.getD s.recentCapacity
  parallelLines := l.parallelLines.getD s.parallelLines

/-- A setting that is true or false; `none` if the key has some other value. -/
def flag? (es : Toml.Entries) (key : String) : Option (Option Bool) :=
  match es.lookup key.toList with
  | none => some none
  | some (.boolean b) => some (some b)
  | some _ => none

def count? (es : Toml.Entries) (key : String) : Option (Option Nat) :=
  match es.lookup key.toList with
  | none => some none
  | some (.integer n) => if 0 ≤ n then some (some n.toNat) else none
  | some _ => none

/-- Reads a layer from the text of a document; keys that are no settings are passed over. -/
def ofText? (t : Text) : Option SettingsLayer := do
  let es ← Toml.ofText? t
  let logUnresolved ← flag? es "log_unresolved"
  let recentCapacity ← count? es "mru_capacity"
  let parallelLines ← count? es "max_parallel_threads"
  some { logUnresolved, recentCapacity, parallelLines }

end SettingsLayer

end Phrasebook
