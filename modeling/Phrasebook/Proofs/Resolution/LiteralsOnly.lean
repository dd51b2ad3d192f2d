import Phrasebook.Proofs.Draft
import Phrasebook.Proofs.Resolution.Found
import Phrasebook.Proofs.Resolution.Nesting
import Phrasebook.Standard

/-!
Texts of which only literals are accepted. What is found for such a text is a literal or a list of
literals, and no phrase is tried for it or for any text inside it, however deep parentheses and lists are
nested. So nothing changes, whether anything is found or not.
-/

namespace Phrasebook.Book

open Search

section

variable [RegexEngine] {b : Book} {r : Resolver}

/-- The resolver leaves the session alone when it is asked for literals only. -/
def LiteralsQuiet (r : Resolver) : Prop :=
  ∀ text expected enclosing, Quiet (r text expected .literalsOnly enclosing)

theorem asList_quiet (hr : LiteralsQuiet r) (text : Text) (expected : SlotType)
    (enclosing : List Frame) : Quiet (b.asList r text expected .literalsOnly enclosing) := by
  unfold asList
  refine .bind (.ofOption _) fun (parts, all) => ?_
  exact .bind (.every fun part _ => hr part expected enclosing) fun items => .pure _

theorem step_quiet (hr : LiteralsQuiet r) : LiteralsQuiet (b.step r) := by
  intro text expected enclosing
  unfold step
  dsimp only
  split
  · exact .failure
  · split
    · exact hr _ expected enclosing
    · refine .orElse ?_ (.orElse ?_ ?_)
      · exact .ofOption _
      · split
        · exact .failure
        · exact asList_quiet hr _ expected enclosing
      · -- the phrases are not tried
        exact .failure

theorem resolver_quiet (b : Book) (n : Nat) : LiteralsQuiet (b.resolver n) := by
  induction n with
  | zero => exact fun _ _ _ => .fault .tooDeep
  | succ n ih => exact step_quiet ih

/-- Where only literals are accepted, no way in which an expression comes about gives another one: the
parts of a list are asked for in the same manner, and phrases are left out. -/
theorem kept_literal (b : Book) :
    b.Kept fun _ accepts e => accepts = .literalsOnly → e.isLiteral = true where
  literal _ h _ := by
    obtain ⟨t, -, h⟩ := List.exists_of_findSome?_eq_some h
    obtain ⟨-, -, h⟩ := Option.bind_eq_some_iff.1 h
    obtain ⟨u, -, h⟩ := Option.bind_eq_some_iff.1 h
    obtain ⟨v, -, h⟩ := Option.bind_eq_some_iff.1 h
    cases h
    rfl
  list _ _ h haccepts := List.all_eq_true.2 fun e he => h e he haccepts
  phrase hne _ _ _ _ haccepts := absurd haccepts hne

/-- Whatever the book, the session and the attempts under way are: if only literals are accepted of a
text, then either nothing is found or a literal is, and nothing at all has happened to the session. -/
theorem resolver_literalsOnly [RegexEngine.Lawful] (b : Book) (text : Text) (n : Nat)
    (hn : nestingBound text ≤ n) (expected : SlotType) (enclosing : List Frame) (s : Session) :
    b.resolver n text expected .literalsOnly enclosing s = (.missed, s) ∨
      ∃ e, b.resolver n text expected .literalsOnly enclosing s = (.found e, s) ∧
        e.isLiteral = true := by
  have hfaultless := resolver_faultless (b := b) hn expected .literalsOnly enclosing s
  have hquiet := resolver_quiet b n text expected enclosing s
  rcases h : b.resolver n text expected .literalsOnly enclosing s with ⟨o, s'⟩
  rw [h] at hfaultless hquiet
  obtain rfl : s' = s := hquiet
  cases o with
  | found e =>
    have hliteral := (kept_literal b).resolver n text expected .literalsOnly enclosing e ⟨s', s', h⟩
    exact Or.inr ⟨e, rfl, hliteral rfl⟩
  | missed => exact Or.inl rfl
  | fault f => exact absurd rfl (hfaultless f)

end

/-- A list in parentheses with a list in parentheses inside. -/
theorem resolver_literalsOnly_nested :
    nestingBound "((1, (2) and (3 or 4)))".toList ≤ 48 ∧
      ∃ e, (Standard.book {}).resolver 48 "((1, (2) and (3 or 4)))".toList ⟨⟨1⟩, "numbers", false⟩
          .literalsOnly [] (Standard.book {}).fresh = (.found e, (Standard.book {}).fresh) ∧
        e.isLiteral = true := by
  have hbound : nestingBound "((1, (2) and (3 or 4)))".toList ≤ 48 := by decide
  refine ⟨hbound, ?_⟩
  have hfound : ((Standard.book {}).resolver 48 "((1, (2) and (3 or 4)))".toList
      ⟨⟨1⟩, "numbers", false⟩ .literalsOnly [] (Standard.book {}).fresh).1.toOption.isSome = true := by
    decide +kernel
  have hor := resolver_literalsOnly (Standard.book {}) _ 48 hbound ⟨⟨1⟩, "numbers", false⟩ []
    (Standard.book {}).fresh
  refine hor.resolve_left fun hmissed => ?_
  rw [hmissed] at hfound
  cases hfound

end Phrasebook.Book
