import Phrasebook.Proofs.Matching.Counts
import Phrasebook.Proofs.Standard.Arithmetic

/-!
What the makers of the standard book are given. Each takes a fixed number of expressions and knows some
marks, and the patterns of its phrase find just that number of expressions and no other marks, whatever
the text. So no maker refuses a match, and none leaves an expression over.
-/

namespace Phrasebook

def Occurrence.dropLast (o : Occurrence) : Occurrence :=
  { o with findings := { o.findings with expressions := o.findings.expressions.dropLast } }

/-- The maker makes something of the occurrence and takes all its expressions: without the last one it
misses one. -/
def Occurrence.TakenBy {T : Type} (o : Occurrence) (make : Occurrence → Except Refusal T) : Prop :=
  (∃ made, make o = .ok made) ∧ make o.dropLast = .error (.missingExpression o.source)

/-- The maker takes `n` expressions from every occurrence with one of the marks. -/
def Takes {T : Type} (n : Nat) (marks : List Int32) (make : Occurrence → Except Refusal T) : Prop :=
  ∀ o : Occurrence, o.findings.expressions.length = n → o.mark ∈ marks → o.TakenBy make

/-- The patterns of the phrase find just what its maker takes, in every text and every session. -/
def Phrase.Supplies [RegexEngine] {T : Type} (phrase : Phrase (Occurrence → Except Refusal T)) : Prop :=
  ∀ index pattern, (index, pattern) ∈ phrase.patterns →
    ∀ (resolve : Resolver) (text : Text) (enclosing : List Frame) (s s' : Session) (stop : Nat)
      (a : Attempt), Matching.node resolve pattern [] 0 (.start text enclosing) s = (.found (stop, a), s') →
      (a.finish index).TakenBy phrase.make

namespace Standard

/-! ## The makers -/

theorem takes_one {T : Type} (f : Expression → T) (marks : List Int32) :
    Takes 1 marks fun o => do
      let (inner, _) ← o.take
      return f inner := by
  rintro ⟨source, pattern, es, cs, m⟩ hlength -
  obtain ⟨e, rfl⟩ := List.length_eq_one_iff.1 hlength
  exact ⟨⟨_, rfl⟩, rfl⟩

theorem takes_arithmetic : Takes 2 [1, 2, 3, 4] makeArithmetic := by
  rintro ⟨source, pattern, es, cs, m⟩ hlength hmark
  obtain ⟨left, right, rfl⟩ := List.length_eq_two.1 hlength
  simp only [Occurrence.mark, List.mem_cons, List.not_mem_nil, or_false] at hmark
  rcases hmark with rfl | rfl | rfl | rfl <;> exact ⟨⟨_, rfl⟩, rfl⟩

theorem takes_comparison : Takes 2 [1, 2] makeComparison := by
  rintro ⟨source, pattern, es, cs, m⟩ hlength hmark
  obtain ⟨left, right, rfl⟩ := List.length_eq_two.1 hlength
  simp only [Occurrence.mark, List.mem_cons, List.not_mem_nil, or_false] at hmark
  rcases hmark with rfl | rfl <;> exact ⟨⟨_, rfl⟩, rfl⟩

theorem takes_substring (marks : List Int32) : Takes 3 marks makeSubstring := by
  rintro ⟨source, pattern, es, cs, m⟩ hlength -
  obtain ⟨text, first, last, rfl⟩ := List.length_eq_three.1 hlength
  exact ⟨⟨_, rfl⟩, rfl⟩

/-! ## The patterns -/

section

variable [RegexEngine]

/-- A phrase whose pattern passes, on every way, as many slots as its maker takes. -/
theorem supplies_of_slots {T : Type} {phrase : Phrase (Occurrence → Except Refusal T)} {index n : Nat}
    {p : Pattern} (hpatterns : phrase.patterns = [(index, p)]) (hmake : Takes n p.marks phrase.make)
    (hfewest : p.fewest Matching.Item.slots = n) (hmost : p.slotCount = n) : phrase.Supplies := by
  intro index' p' hp resolve text enclosing s s' stop a h
  rw [hpatterns] at hp
  cases List.mem_singleton.1 hp
  obtain ⟨items, f, hway, hes, -, rfl⟩ := Matching.node_gains resolve p [] 0 _ stop a ⟨s, s', h⟩
  have hfindings : ((Attempt.start text enclosing).merge f).findings = f := Findings.none_append f
  have htally := Pattern.tally_way Matching.Item.slots p items f.mark hway
  rw [Pattern.most_slots, hfewest, hmost] at htally
  refine hmake _ ?_ ?_
  · rw [Attempt.finish, hfindings, hes]
    exact Nat.le_antisymm htally.2 htally.1
  · rw [Attempt.finish, Occurrence.mark, hfindings]
    exact Pattern.mem_marks p items f.mark hway

theorem marks_arithmetic : arithmeticPattern.marks = [1, 2, 3, 4] := rfl

theorem marks_comparison : comparisonPattern.marks = [1, 2] := rfl

theorem supplies_expressions {settings : Settings} :
    ∀ p ∈ (book settings).expressions.phrases, p.Supplies := by
  have harithmetic : arithmeticPhrase.Supplies :=
    supplies_of_slots rfl (marks_arithmetic ▸ takes_arithmetic) rfl rfl
  have hcomparison : (phrase "comparison" .boolean comparisonPattern makeComparison).Supplies :=
    supplies_of_slots rfl (marks_comparison ▸ takes_comparison) rfl rfl
  rw [phrases_book, expressionPhrases]
  simp only [List.forall_mem_cons]
  exact ⟨harithmetic, supplies_of_slots rfl (takes_one squared _) rfl rfl,
    supplies_of_slots rfl (takes_one whether _) rfl rfl, hcomparison,
    supplies_of_slots rfl (takes_one length _) rfl rfl,
    supplies_of_slots rfl (takes_substring _) rfl rfl, by simp⟩

theorem supplies_effects {settings : Settings} :
    ∀ p ∈ (book settings).effects.phrases, p.Supplies := by
  intro p hp
  rw [effects_book] at hp
  rw [List.mem_singleton.1 hp]
  exact supplies_of_slots rfl (takes_one print _) rfl rfl

/-- A match gains expressions, captures and marks by one way through the pattern, within the bounds that
the pattern sets, whatever was found before and wherever the match begins. So every phrase of the standard
book is made something of whenever it matches, and no expression is missing or left over. -/
theorem node_bounds :
    (∀ (resolve : Resolver) (p : Pattern) (tail : Tail) (i : Nat) (a : Attempt) (s s' : Session) (j : Nat)
      (a' : Attempt), Matching.node resolve p tail i a s = (.found (j, a'), s') →
      ∃ (items : List Matching.Item) (f : Findings), Matching.Way p items f.mark ∧
        a'.findings = ⟨a.findings.expressions ++ f.expressions, a.findings.captures ++ f.captures,
          a.findings.mark ^^^ f.mark⟩ ∧
        a'.source = a.source ∧ a'.enclosing = a.enclosing ∧
        f.expressions.length = Matching.tally Matching.Item.slots items ∧
        f.captures.length = Matching.tally Matching.Item.regexes items ∧
        p.fewest Matching.Item.slots ≤ f.expressions.length ∧ f.expressions.length ≤ p.slotCount ∧
        p.fewest Matching.Item.regexes ≤ f.captures.length ∧
        f.captures.length ≤ p.most Matching.Item.regexes) ∧
    ∀ settings : Settings, (∀ p ∈ (book settings).expressions.phrases, p.Supplies) ∧
      ∀ p ∈ (book settings).effects.phrases, p.Supplies := by
  refine ⟨fun resolve p tail i a s s' j a' h => ?_, fun _ => ⟨supplies_expressions, supplies_effects⟩⟩
  obtain ⟨items, f, hway, hes, hcs, rfl⟩ := Matching.node_gains resolve p tail i a j a' ⟨s, s', h⟩
  have hslots := Pattern.tally_way Matching.Item.slots p items f.mark hway
  have hregexes := Pattern.tally_way Matching.Item.regexes p items f.mark hway
  rw [Pattern.most_slots, ← hes] at hslots
  rw [← hcs] at hregexes
  exact ⟨items, f, hway, rfl, rfl, rfl, hes, hcs, hslots.1, hslots.2, hregexes.1, hregexes.2⟩

end

/-- The text "3 + 4". -/
def sum : Chain := .link (.digit '3' rfl) .add (.numeral (.digit '4' rfl))

/-- A sum in the standard book: two expressions, and its maker takes both. -/
theorem node_bounds_sum :
    ∃ a s', Matching.node ((book {}).resolver 12) arithmeticPattern [] 0 (.start sum.text [])
        (book {}).fresh = (.found (5, a), s') ∧
      a.findings.expressions.length = 2 ∧ (a.finish 0).TakenBy makeArithmetic := by
  have hleft : YieldsWithin (ComesTo 3) ((book {}).resolver 12) [] sum
      (.numeral (.digit '3' rfl)) := fun _ _ => step_numeral (by decide) _ _
  have hright : YieldsWithin (ComesTo 4) ((book {}).resolver 12) [] sum
      (.numeral (.digit '4' rfl)) := fun _ _ => step_numeral (by decide) _ _
  have hcut : sum.cut? = some (.add, _, _) := rfl
  obtain ⟨⟨stop, a⟩, hfound, hstop, -⟩ := node_arithmetic hcut hleft hright (book {}).fresh
  obtain rfl : stop = 5 := hstop
  rcases h : Matching.node ((book {}).resolver 12) arithmeticPattern [] 0 (.start sum.text [])
    (book {}).fresh with ⟨o, s'⟩
  obtain rfl : o = .found (5, a) := (congrArg Prod.fst h).symm.trans hfound
  obtain ⟨hbounds, hsupplies⟩ := node_bounds
  refine ⟨a, s', rfl, ?_, ?_⟩
  · obtain ⟨items, f, -, hgained, -, -, -, -, hfewest, hmost, -⟩ := hbounds _ _ _ _ _ _ _ _ _ h
    rw [hgained]
    exact Nat.le_antisymm hmost hfewest
  · have hphrase := List.mem_of_getElem? (@phrase_zero _ {})
    exact (hsupplies {}).1 _ hphrase 0 arithmeticPattern List.mem_cons_self _ _ _ _ _ _ _ h

end Standard

end Phrasebook
