import Phrasebook.Proofs.Draft
import Phrasebook.Proofs.Resolution.Nesting
import Phrasebook.Proofs.Text.Parentheses
import Phrasebook.Standard

/-!
Texts in parentheses. Where the parentheses around a text can be taken off again, the text means the same
with them as without: they are taken off first, and from there on everything is as if they had never been
there. They cannot be where those of the text itself are not balanced. Such a text may mean something all
the same, and with parentheses around it something else.
-/

namespace Phrasebook

theorem Text.trim_parenthesized (t : Text) : Text.trim ('(' :: t ++ [')']) = '(' :: t ++ [')'] := by
  have h := Text.trim_append (t := '(' :: t ++ [')']) (b := []) (by simp)
    (fun c hc => by cases hc; rfl) (fun c hc => by rw [List.getLast?_concat] at hc; cases hc; rfl)
    (fun c hc => absurd hc List.not_mem_nil)
  rwa [List.append_nil] at h

namespace Book

open Search

section

variable [RegexEngine] {b : Book} {t : Text}

/-- What is told of a text that is not understood is all that understanding it adds to an answer. -/
theorem misses_told (b : Book) (text : Text) (expected : SlotType) :
    Misses (if b.settings.logUnresolved then do
        Search.tell (.expressionNotUnderstood (Text.trim text) expected.name)
        failure
      else failure : Search Expression) := by
  split
  · exact fun _ => rfl
  · exact .failure

theorem resolveBy_fst (r : Resolver) (text : Text) (expected : SlotType) (s : Session) :
    (b.resolveBy r text expected s).1 = (r text expected .both [] s).1 :=
  (misses_told b text expected).orElse_fst _ s

theorem resolveBy_eq_found {r : Resolver} {text : Text} {expected : SlotType} {s s' : Session}
    {e : Expression} :
    b.resolveBy r text expected s = (.found e, s') ↔ r text expected .both [] s = (.found e, s') :=
  (misses_told b text expected).orElse_eq_found

/-- One more text is nested. -/
theorem resolver_parenthesized (h : Text.unwrap? ('(' :: t ++ [')']) = some t) (n : Nat)
    (expected : SlotType) (accepts : Acceptance) (enclosing : List Frame) :
    b.resolver (n + 1) ('(' :: t ++ [')']) expected accepts enclosing =
      b.resolver n t expected accepts enclosing := by
  have htrim := (congrArg Text.unwrap? (Text.trim_parenthesized t)).trans h
  exact step_unwrap (b.resolver n) (q := ⟨'(' :: t ++ [')'], expected, accepts, enclosing⟩) htrim

/-- A text that does not end inside an escape and whose parentheses are balanced is understood in
parentheses just when it is understood without them, as the same and with the same session left behind. -/
theorem resolve_parenthesized (b : Book) (t : Text) (expected : SlotType)
    (hescapes : Text.escapesEnd t = true) (hbalanced : Text.Balanced '(' ')' t) :
    (∀ s, (b.resolve ('(' :: t ++ [')']) expected s).1 = (b.resolve t expected s).1) ∧
    ∀ s e s', b.resolve t expected s = (.found e, s') →
      b.resolve ('(' :: t ++ [')']) expected s = (.found e, s') := by
  have hunwrap : Text.unwrap? ('(' :: t ++ [')']) = some t :=
    Text.unwrap?_parenthesized_iff.2 ⟨hescapes, hbalanced⟩
  have hbound : nestingBound ('(' :: t ++ [')']) = 2 * t.width + 5 + 1 := by
    rw [nestingBound, Text.width_parenthesized]
    omega
  have hrank := rank_lt_nestingBound (List.infix_refl t) expected .both []
  -- both bounds on the nesting are large enough for the text inside
  have hanswer : b.resolver (nestingBound ('(' :: t ++ [')'])) ('(' :: t ++ [')']) expected .both [] =
      b.resolver (nestingBound t) t expected .both [] := by
    rw [hbound, resolver_parenthesized hunwrap]
    exact resolverFrom_congr _ _ (q := ⟨t, expected, .both, []⟩)
      (by unfold nestingBound at hrank; omega) hrank
  unfold resolve
  constructor
  · intro s
    rw [resolveBy_fst, resolveBy_fst, hanswer]
  · intro s e s' hfound
    rw [resolveBy_eq_found] at hfound ⊢
    rw [hanswer, hfound]

end

/-- Numbers and arithmetic, and what looks like the inside of a sum of two numbers in parentheses stands
for a number of its own. -/
def riddle : Draft where
  types := ⟨[⟨⟨0⟩, ⟨"number", "numbers"⟩, .number, some Standard.number?, none⟩,
    ⟨⟨1⟩, ⟨"riddle", "riddles"⟩, .number,
      some fun t => if t = "1) + (2".toList then some (.integer 5) else none, none⟩]⟩
  expressions := [
    { name := "arithmetic", returns := .number,
      patterns := ["%number% (1¦+|2¦-|3¦*|4¦/) %number%".toList], make := Standard.makeArithmetic }]

/-- Parentheses at the beginning of a text and around all of it. -/
theorem resolve_parenthesized_riddle :
    ∃ e s',
      riddle.finish.1.resolve "(1 + 2) * 3".toList ⟨⟨0⟩, "number", true⟩ riddle.finish.1.fresh =
        (.found e, s') ∧
      riddle.finish.1.resolve "((1 + 2) * 3)".toList ⟨⟨0⟩, "number", true⟩ riddle.finish.1.fresh =
        (.found e, s') := by
  have hbalanced : Text.Balanced '(' ')' "(1 + 2) * 3".toList :=
    .of_inits (by decide +kernel) (by decide +kernel)
  have hwrap : '(' :: "(1 + 2) * 3".toList ++ [')'] = "((1 + 2) * 3)".toList := by decide +kernel
  obtain ⟨-, hfound⟩ := resolve_parenthesized riddle.finish.1 "(1 + 2) * 3".toList
    ⟨⟨0⟩, "number", true⟩ (by decide +kernel) hbalanced
  rw [hwrap] at hfound
  have hsome : (riddle.finish.1.resolve "(1 + 2) * 3".toList ⟨⟨0⟩, "number", true⟩
      riddle.finish.1.fresh).1.toOption.isSome = true := by
    rw [riddle.finish_of_pairwise (by decide +kernel) (by decide +kernel)]
    decide +kernel
  rcases h : riddle.finish.1.resolve "(1 + 2) * 3".toList ⟨⟨0⟩, "number", true⟩
    riddle.finish.1.fresh with ⟨o, s'⟩
  rw [h] at hsome
  cases o with
  | missed => cases hsome
  | fault f => cases hsome
  | found e => exact ⟨e, s', rfl, hfound _ e s' h⟩

/-- The class and the values of what the text is understood as in the fresh session. -/
def meaning? [RegexEngine] (b : Book) (text : Text) (expected : SlotType) : Option (ClassId × List String) :=
  (b.resolve text expected b.fresh).1.toOption.map fun e => (e.returns, e.values.map Value.toText)

/-- The first parenthesis closes before the last one opens, so they are not around the text: what is in
between is not read by itself, and there is a sum instead. -/
theorem not_resolve_parenthesized_riddle :
    riddle.finish.1.meaning? "1) + (2".toList ⟨⟨0⟩, "number", true⟩ = some (.integer, ["5"]) ∧
    riddle.finish.1.meaning? "(1) + (2)".toList ⟨⟨0⟩, "number", true⟩ = some (.number, ["3"]) := by
  rw [riddle.finish_of_pairwise (by decide +kernel) (by decide +kernel)]
  decide +kernel

end Book

end Phrasebook
