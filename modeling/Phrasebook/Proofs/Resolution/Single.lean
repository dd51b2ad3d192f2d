import Phrasebook.Proofs.Except
import Phrasebook.Proofs.Expression
import Phrasebook.Proofs.Resolution.Found
import Phrasebook.Standard

/-!
How many values there are. A type in the singular asks for one value at most. If the makers make
expressions that say truly whether they are single, as long as they are given such, then everything found
says so truly, and what is found for the singular is single.
-/

namespace Phrasebook

/-- Given expressions that say truly whether they are single, the maker makes such. -/
def ExpressionMaker.KeepsTruthful (make : ExpressionMaker) : Prop :=
  ∀ o e, (∀ c ∈ o.findings.expressions, c.Truthful) → make o = .ok e → e.Truthful

namespace Book

open Search Expression

section

variable [RegexEngine]

theorem literal?_single {b : Book} {text : Text} {target : ClassId} {e : Expression}
    (h : b.literal? text target = some e) : e.single = true ∧ e.Truthful := by
  obtain ⟨t, -, h⟩ := List.exists_of_findSome?_eq_some h
  obtain ⟨-, -, h⟩ := Option.bind_eq_some_iff.1 h
  obtain ⟨u, -, h⟩ := Option.bind_eq_some_iff.1 h
  obtain ⟨v, -, h⟩ := Option.bind_eq_some_iff.1 h
  obtain rfl := Option.some.inj h
  exact ⟨rfl, truthful_literal _ _ _⟩

theorem adapt_truthful {b : Book} {e : Expression} (h : e.Truthful) (target : ClassId) :
    (b.adapt e target).Truthful := by
  unfold adapt
  split
  · exact h
  · exact h.converted target b.conversions

/-- All ways in which expressions come about keep that they say truly whether they are single, and that
they are if the singular is expected: a list is made only for the plural, and what a phrase makes is
looked at after it has been converted. -/
theorem kept_single {b : Book} (hmakers : ∀ p ∈ b.expressions.phrases, p.make.KeepsTruthful) :
    b.Kept fun expected _ e => (expected.single = true → e.single = true) ∧ e.Truthful where
  literal _ h := by
    obtain ⟨hsingle, htruthful⟩ := literal?_single h
    exact ⟨fun _ => hsingle, htruthful⟩
  list hexpected _ h := by
    refine ⟨fun hsingle => ?_, truthful_list (fun e he => (h e he).2) _ _⟩
    rw [hexpected] at hsingle
    exact absurd hsingle Bool.false_ne_true
  phrase _ hp hmake hsingle h := by
    refine ⟨hsingle, adapt_truthful (hmakers _ hp _ _ (fun c hc => ?_) hmake) _⟩
    obtain ⟨type, accepts, -, htruthful⟩ := h c hc
    exact htruthful

/-- Whatever the session is: what is found says truly whether it is single, and for a type in the singular
it is single and has one value at most. And so does everything that is put together to any depth, by
conversions and lists, from literals and from what says so truly. -/
theorem resolver_single [RegexEngine.Lawful] (b : Book)
    (hmakers : ∀ p ∈ b.expressions.phrases, p.make.KeepsTruthful) :
    (∀ n text expected accepts enclosing s s' e,
      b.resolver n text expected accepts enclosing s = (.found e, s') →
        (e.single = true → e.values.length ≤ 1) ∧
        (expected.single = true → e.single = true ∧ e.values.length ≤ 1)) ∧
    ∀ graph parts e, Assembled graph parts [e] →
      (∀ p ∈ parts, p.Truthful ∨ ∃ returns values source, p = .literal returns values source) →
      e.single = true → e.values.length ≤ 1 := by
  constructor
  · intro n text expected accepts enclosing s s' e h
    obtain ⟨hsingle, htruthful⟩ :=
      (kept_single hmakers).resolver n text expected accepts enclosing e ⟨s, s', h⟩
    exact ⟨htruthful, fun hexpected => ⟨hsingle hexpected, htruthful (hsingle hexpected)⟩⟩
  · intro graph parts e h hparts
    have htruthful : ∀ p ∈ parts, p.Truthful := by
      intro p hp
      obtain htruthful | ⟨returns, values, source, rfl⟩ := hparts p hp
      · exact htruthful
      · exact truthful_literal returns values source
    exact h.truthful htruthful e List.mem_cons_self

end

/-- Numbers and truth values, and a phrase that gives on the numbers it was given. -/
def selection : Book where
  settings := {}
  types := ⟨[⟨⟨0⟩, ⟨"number", "numbers"⟩, .number, some Standard.number?, none⟩,
    ⟨⟨1⟩, ⟨"boolean", "booleans"⟩, .boolean, some Standard.boolean?, none⟩]⟩
  conversions := ⟨.builtin, [Standard.isNonzero]⟩
  expressions := ⟨[
    ⟨"selection", .number, 1,
      [(0, .sequence [.literal "out of ".toList, .slot [⟨⟨0⟩, "numbers", false⟩] .both false])],
      fun o => o.take.map (·.1), Phrase.defaultPriority⟩], 0⟩
  effects := ⟨[], 0⟩

theorem keepsTruthful_take : ExpressionMaker.KeepsTruthful fun o => o.take.map (·.1) := by
  intro o e hgiven hmake
  change o.take.map (·.1) = .ok e at hmake
  unfold Occurrence.take at hmake
  split at hmake
  · cases hmake
  · rename_i hexpressions
    obtain rfl := Except.ok.inj hmake
    exact hgiven _ (hexpressions ▸ List.mem_cons_self)

/-- One of two numbers, as a single truth value; and one of no number and one of two numbers, the latter
as a truth value. -/
theorem resolver_single_selection :
    (∀ p ∈ selection.expressions.phrases, p.make.KeepsTruthful) ∧
    (∃ e s', selection.resolver 40 "out of 0 or 5".toList ⟨⟨1⟩, "boolean", true⟩ .both []
        selection.fresh = (.found e, s') ∧ e.single = true ∧ e.values.length ≤ 1) ∧
    (list [literal .number [] [], (list [literal .number [.integer 0] ['0'],
        literal .number [.integer 5] ['5']] false .number).converted .boolean selection.conversions]
      false .boolean).values.length ≤ 1 := by
  have hmakers : ∀ p ∈ selection.expressions.phrases, p.make.KeepsTruthful := by
    intro p hp
    rw [List.mem_singleton.1 hp]
    exact keepsTruthful_take
  obtain ⟨hfound, hassembled⟩ := resolver_single selection hmakers
  refine ⟨hmakers, ?_, ?_⟩
  · have hvalues : (selection.resolver 40 "out of 0 or 5".toList ⟨⟨1⟩, "boolean", true⟩ .both []
        selection.fresh).1.toOption.map (·.values.length) = some 1 := by decide +kernel
    obtain ⟨e, s', h, -⟩ := exists_found hvalues
    exact ⟨e, s', h, (hfound 40 _ _ _ _ _ s' e h).2 rfl⟩
  · have hnumbers (u v : Expression) : Assembled selection.conversions [u, v] [list [u, v] false .number] :=
      .list false .number (.part u (.part v .nil))
    refine hassembled selection.conversions _ _
      (.list false .boolean (.part (literal .number [] []) (.converted .boolean (hnumbers _ _)))) ?_ rfl
    intro p hp
    simp only [List.mem_cons, List.not_mem_nil, or_false] at hp
    rcases hp with rfl | rfl | rfl
    · exact Or.inr ⟨.number, [], [], rfl⟩
    · exact Or.inr ⟨.number, [.integer 0], ['0'], rfl⟩
    · exact Or.inr ⟨.number, [.integer 5], ['5'], rfl⟩

end Book

end Phrasebook
