import Phrasebook.Regex.Reading
import Phrasebook.Regex.Search

/-!
The engine whose threads run through a program side by side.
-/

namespace Phrasebook.Regex

instance threads : RegexEngine where
  Code := Machine
  compile t :=
    match Machine.ofText? t with
    | some r => .ok r
    | none => .error "regex parse error"
  findAfter? := Machine.findAfter?
  findAll := Machine.findAll

theorem threads_compile_eq_ok_iff {t : Text} {r : Machine} :
    threads.compile t = .ok r ↔ Machine.ofText? t = some r := by
  unfold threads
  dsimp only
  cases Machine.ofText? t <;> simp

end Phrasebook.Regex
