import Phrasebook.Proofs.Draft
import Phrasebook.Proofs.Resolution.Recency
import Phrasebook.Proofs.Standard.Makers

/-!
Lines that are understood one after the other. Every line that is understood leaves its phrases in front,
so a later line for which there are several ways may be understood in another one. But where no two
phrases make different things of the same text, a line comes to the same whatever was understood before
it; and if the makers read only the shape of what they are given, at least whether it is understood at all
does not depend on that.
-/

namespace Phrasebook

theorem MadeAlike.rfl {α : Type} (x : Except Refusal α) : MadeAlike Eq x x := by
  cases x with
  | error e => exact .refused e e
  | ok a => exact .made (Eq.refl a)

namespace Book

open Search Activation

section

variable [RegexEngine] {b : Book}

/-- No two of the phrases to try on the text make different things of it, in whatever sessions. -/
def OneWay (b : Book) (r : Resolver) (text : Text) (expected : SlotType) (enclosing : List Frame) :
    Prop :=
  ∀ i j e e', i ≠ j →
    b.expressions.admits (b.compatible · (b.classOf expected)) i = true →
    b.expressions.admits (b.compatible · (b.classOf expected)) j = true →
    (b.byCandidate r text expected enclosing i).Finds e →
    (b.byCandidate r text expected enclosing j).Finds e' → e = e'

/-- There is one way for every text in the line, whatever is expected. -/
def Unambiguous (b : Book) (line : Text) : Prop :=
  ∀ text, text <:+: line → ∀ expected enclosing,
    b.OneWay (b.resolver (nestingBound text)) text expected enclosing

theorem OneWay.of_congr {r r' : Resolver} {text : Text} {expected : SlotType} {enclosing : List Frame}
    (h : b.OneWay r' text expected enclosing)
    (hr : Matching.AgreeWithin text enclosing r r') : b.OneWay r text expected enclosing := by
  intro i j e e' hij hi hj he he'
  rw [byCandidate_congr hr] at he he'
  exact h i j e e' hij hi hj he he'

/-! ## One activation in all sessions -/

def Steady (r : Resolver) (q : Activation) : Prop := EndAlike Eq (r.answer q) (r.answer q)

theorem byCandidate_steady {r : Resolver} {text : Text} {enclosing : List Frame}
    (hr : ∀ q, Matching.Asked text q.text q.enclosing → Steady r q) (expected : SlotType) (id : Nat) :
    EndAlike Eq (b.byCandidate r text expected enclosing id)
      (b.byCandidate r text expected enclosing id) := by
  have hresolvers : Matching.ResolversInStep (fun _ _ => True) Eq Eq text r r := by
    intro text' type accepts chain chain' hasked hchain
    rw [List.forall₂_eq_eq_eq] at hchain
    rw [← hchain]
    exact hr ⟨text', type, accepts, chain⟩ hasked
  unfold byCandidate
  refine .bind (.ofOption _) ?_
  rintro p _ ⟨rfl, -⟩
  have hmake (index : Nat) (f g : Findings) (hfg : f.Alike Eq g) :
      MadeAlike Eq (p.make ⟨text, index, f⟩) (p.make ⟨text, index, g⟩) := by
    rw [Matching.alike_eq_findings hfg]
    exact .rfl _
  have hchain : List.Forall₂ Eq enclosing enclosing := by rw [List.forall₂_eq_eq_eq]
  refine (tryPhrase_endAlike Matching.alike_eq_frame hresolvers hmake id hchain).bind ?_
  rintro made _ rfl
  dsimp only
  split
  · refine .bind (.change fun _ _ _ => trivial) fun _ _ _ => ?_
    exact .failure_bind _ _
  · exact .bind (.change fun _ _ _ => trivial) fun _ _ _ => .pure rfl

theorem byPhrase_steady [RegexEngine.Lawful] {r : Resolver} (hf : r.Faultless) {text : Text}
    {expected : SlotType} {enclosing : List Frame}
    (hr : ∀ q, Matching.Asked text q.text q.enclosing → Steady r q)
    (hone : b.OneWay r text expected enclosing) :
    EndAlike Eq (b.byPhrase r text expected enclosing) (b.byPhrase r text expected enclosing) := by
  unfold byPhrase
  dsimp only
  refine .bind .session fun s t _ => ?_
  refine EndAlike.first_eq (fun id => ?_) (fun id _ => ?_) (fun id _ => ?_) ?_
  · rw [PhraseTable.mem_candidates, PhraseTable.mem_candidates]
  · exact byCandidate_faultless hf text expected enclosing id
  · exact byCandidate_steady hr expected id
  · intro i hi j hj hij e e' he he'
    rw [PhraseTable.mem_candidates] at hi hj
    exact hone i j e e' hij hi hj he he'

/-- What steadies the answer of a step: that the answers to all nested activations in the line are steady,
and that the text itself is unambiguous. -/
theorem step_steady [RegexEngine.Lawful] {r : Resolver} (hf : r.Faultless) {line : Text} {q : Activation}
    (hline : q.text <:+: line) (hr : ∀ q', Nested q' q → q'.text <:+: line → Steady r q')
    (hone : isUnderWay (Text.trim q.text) q.enclosing = false →
      b.OneWay r (Text.trim q.text) q.expected q.enclosing) : Steady (b.step r) q := by
  obtain ⟨text, expected, accepts, enclosing⟩ := q
  have htrim : Text.trim text <:+: line := (Text.trim_isInfix text).trans hline
  unfold Steady Resolver.answer step
  dsimp only
  split
  · exact .failure
  · split
    · rename_i inside hunwrap
      refine hr ⟨inside, expected, accepts, enclosing⟩ (Or.inl ?_)
        ((Text.unwrap?_isInfix hunwrap).trans htrim)
      exact (Text.trim_width_le inside).trans_lt (Text.unwrap?_width hunwrap)
    · refine .orElse ?_ (.orElse ?_ ?_)
      · split
        · exact .failure
        · exact (InStep.ofOption _).mono fun _ _ h => h.1
      · split
        · exact .failure
        · unfold asList
          refine .bind (.ofOption _) ?_
          rintro ⟨parts, all⟩ _ ⟨rfl, hsplit⟩
          have hevery := InStep.every fun part (hpart : part ∈ parts) =>
            hr ⟨part, expected, accepts, enclosing⟩ (Or.inl (Text.splitList?_width hsplit hpart))
              ((Text.splitList?_isInfix hsplit hpart).trans htrim)
          refine hevery.bind fun items items' hitems => ?_
          rw [List.forall₂_eq_eq_eq] at hitems
          exact .pure (by rw [hitems])
      · split
        · exact .failure
        · rename_i hway
          simp only [Bool.or_eq_true, not_or, Bool.not_eq_true] at hway
          refine byPhrase_steady hf (fun q' hasked => ?_) (hone hway.2)
          exact hr q' (nested_of_asked hasked hway.2) (hasked.inside.trans htrim)

/-! ## A whole line -/

/-- With any bound above the rank, if nothing deeper is found. -/
theorem resolverFrom_steady [RegexEngine.Lawful] {line : Text} (h : b.Unambiguous line) {n : Nat}
    {q : Activation} (hline : q.text <:+: line) (hn : q.rank < n) :
    Steady (b.resolverFrom (fun _ _ _ _ => failure) n) q := by
  induction n generalizing q with
  | zero => omega
  | succ n ih =>
    refine step_steady (resolverFrom_faultless (fun _ _ _ _ => .failure) n) hline
      (fun q' hnested hline' => ih hline' (by have := hnested.rank_lt; omega)) ?_
    intro hway
    refine (h _ ((Text.trim_isInfix q.text).trans hline) q.expected q.enclosing).of_congr ?_
    intro text' type accepts chain hasked
    have hnested : Nested ⟨text', type, accepts, chain⟩ q := nested_of_asked hasked.toAsked hway
    have := hnested.rank_lt
    exact b.resolverFrom_congr _ _ (q := ⟨text', type, accepts, chain⟩) (by omega)
      (rank_lt_nestingBound hasked.inside type accepts chain)

theorem resolveBy_endAlike {R : Expression → Expression → Prop} {r : Resolver} {text : Text}
    {expected : SlotType} (h : EndAlike R (r text expected .both []) (r text expected .both [])) :
    EndAlike R (b.resolveBy r text expected) (b.resolveBy r text expected) := by
  unfold resolveBy
  refine .orElse h ?_
  split
  · exact .bind (.change fun _ _ _ => trivial) fun _ _ _ => .failure
  · exact .failure

theorem resolve_steady [RegexEngine.Lawful] {line : Text} (h : b.Unambiguous line) (expected : SlotType) :
    EndAlike Eq (b.resolve line expected) (b.resolve line expected) := by
  rw [← (resolve_wellNested line expected).settled (fun _ _ _ _ => failure) _ le_rfl]
  exact resolveBy_endAlike (resolverFrom_steady h (q := ⟨line, expected, .both, []⟩) List.infix_rfl
    (rank_lt_nestingBound List.infix_rfl _ _ _))

theorem resolve_endAlike [RegexEngine.Lawful] (hb : b.ReadsShape) (line : Text) (expected : SlotType) :
    EndAlike (fun _ _ => True) (b.resolve line expected) (b.resolve line expected) :=
  resolveBy_endAlike
    (resolver_endAlike hb b.expressions.capacity b.effects.capacity line expected .both .nil)

theorem resolve_faultless [RegexEngine.Lawful] (line : Text) (expected : SlotType) :
    Faultless (b.resolve line expected) :=
  (resolve_wellNested line expected).faultless

/-- Every line gets an answer, and that is one that it may get alone. -/
theorem every_resolve_found [RegexEngine.Lawful] (b : Book) (expected : SlotType) (lines : List Text)
    (s : Session) :
    ∃ answers,
      (Search.every (fun line => (b.resolve line expected).optional) lines s).1 = .found answers ∧
      List.Forall₂ (fun line x => (b.resolve line expected).optional.Finds x) lines answers := by
  have hsucceeds : Succeeds (Search.every (fun line => (b.resolve line expected).optional) lines) :=
    .every fun line _ => .optional (resolve_faultless line expected)
  obtain ⟨answers, hfound⟩ := hsucceeds s
  exact ⟨answers, hfound, Finds.every ⟨s, _, Prod.ext hfound rfl⟩⟩

/-- Two runs over lines, from any sessions. Either the type is not known, and both are refused. Or every
line is answered in both, and where a line stands in both, first, last or alone: it gets the same answer if
it is unambiguous, and if the makers read the shape only, it is understood in both or in none. -/
theorem resolveLines_independent [RegexEngine.Lawful] (b : Book) (typeName : String)
    (lines lines' : List Text) :
    (b.resolveLines lines typeName = .error (.unknownType typeName) ∧
      b.resolveLines lines' typeName = .error (.unknownType typeName)) ∨
    ∃ run run', b.resolveLines lines typeName = .ok run ∧ b.resolveLines lines' typeName = .ok run' ∧
      ∀ s s', ∃ answers answers', (run s).1 = .found answers ∧ (run' s').1 = .found answers' ∧
        answers.length = lines.length ∧ answers'.length = lines'.length ∧
        ∀ line x x', (line, x) ∈ lines.zip answers → (line, x') ∈ lines'.zip answers' →
          (b.Unambiguous line → x = x') ∧ (b.ReadsShape → x.isSome = x'.isSome) := by
  unfold resolveLines
  cases b.types.slotType? typeName with
  | none => exact Or.inl ⟨rfl, rfl⟩
  | some expected =>
    refine Or.inr ⟨_, _, rfl, rfl, fun s s' => ?_⟩
    obtain ⟨answers, hfound, hanswers⟩ := every_resolve_found b expected lines s
    obtain ⟨answers', hfound', hanswers'⟩ := every_resolve_found b expected lines' s'
    refine ⟨answers, answers', hfound, hfound', hanswers.length_eq.symm, hanswers'.length_eq.symm, ?_⟩
    intro line x x' hx hx'
    have hfinds := List.forall₂_zip hanswers hx
    have hfinds' := List.forall₂_zip hanswers' hx'
    refine ⟨fun h => ?_, fun hb => ?_⟩
    · cases EndAlike.finds (resolve_steady h expected).optional hfinds hfinds' with
      | some heq => rw [heq]
      | none => rfl
    · cases EndAlike.finds (resolve_endAlike hb line expected).optional hfinds hfinds' with
      | some _ => rfl
      | none => rfl

/-! ## Phrases that compete -/

/-- Where the answers to lines come from in the fresh session; nothing if the type is not known. -/
def origins (b : Book) (lines : List Text) (typeName : String) :
    Option (List (Option Expression.Origin)) :=
  match b.resolveLines lines typeName with
  | .ok run => (run b.fresh).1.toOption.map fun answers => answers.map (·.map (·.origin))
  | .error _ => none

/-- For what stands in a chain, no phrase of the standard book but that for arithmetic is of use. -/
theorem unambiguous_chain [RegexEngine.Lawful] (settings : Settings) (c : Standard.Chain) :
    (Standard.book settings).Unambiguous c.text := by
  intro text htext expected enclosing
  have hsigns : text ⊆ Standard.Chain.signs := fun _ hx => (Standard.Chain.mem_text (htext.subset hx)).1
  let r := (Standard.book settings).resolverFrom (fun _ _ _ _ => failure) (nestingBound text)
  have hr : r.Faultless := resolverFrom_faultless (fun _ _ _ _ => .failure) _
  have hmisses {id : Nat} (hid : id ≠ 0) {e : Expression} :
      ¬ ((Standard.book settings).byCandidate r text expected enclosing id).Finds e := by
    rintro ⟨s, s', h⟩
    have hmissed : ((Standard.book settings).byCandidate r text expected enclosing id s).1 = .missed :=
      Standard.byCandidate_misses hr hsigns expected enclosing hid s
    rw [h] at hmissed
    cases hmissed
  have hone : (Standard.book settings).OneWay r text expected enclosing := by
    intro i j e e' hij _ _ he he'
    obtain rfl : i = 0 := not_not.1 fun hi => hmisses hi he
    exact absurd he' (hmisses hij.symm)
  refine hone.of_congr fun text' type accepts chain hasked => ?_
  have hrank := rank_lt_nestingBound hasked.inside type accepts chain
  exact resolverFrom_congr _ _ (q := ⟨text', type, accepts, chain⟩) hrank hrank

end

/-- With all the standard phrases, a sum gets the same answer behind a comparison, whose phrase goes first
from then on, as in front of it. And a line that they understand in two ways is understood after another
one just when it is understood alone. -/
theorem resolveLines_independent_sum :
    (∃ run run',
      (Standard.book {}).resolveLines [Standard.sum.text, "1 is greater than 2".toList] "number" =
        .ok run ∧
      (Standard.book {}).resolveLines ["1 is greater than 2".toList, Standard.sum.text] "number" =
        .ok run' ∧
      ∃ x y y', (run (Standard.book {}).fresh).1 = .found [x, y] ∧
        (run' (Standard.book {}).fresh).1 = .found [y', x] ∧
        x.map (·.origin) = some (.phrase "arithmetic")) ∧
    ∃ run run',
      (Standard.book {}).resolveLines ["whether 3 is greater than 2".toList] "boolean" = .ok run ∧
      (Standard.book {}).resolveLines
        ["1 is greater than 2".toList, "whether 3 is greater than 2".toList] "boolean" = .ok run' ∧
      ∃ x y x', (run (Standard.book {}).fresh).1 = .found [x] ∧
        (run' (Standard.book {}).fresh).1 = .found [y, x'] ∧ x.isSome = x'.isSome := by
  have hknown : ∀ name ∈ ["number", "boolean"], ∀ lines,
      (Standard.book {}).resolveLines lines name ≠ .error (.unknownType name) := by
    intro name hname lines hunknown
    unfold resolveLines at hunknown
    rw [Standard.types_book] at hunknown
    rcases List.mem_pair.1 hname with rfl | rfl <;> cases hunknown
  have horigins : (Standard.book {}).origins [Standard.sum.text, "1 is greater than 2".toList] "number" =
      some [some (.phrase "arithmetic"), some .converted] := by
    rw [Standard.book_eq]
    decide +kernel
  constructor
  · obtain ⟨run, run', hrun, hrun', h⟩ := ((Standard.book {}).resolveLines_independent "number"
      [Standard.sum.text, "1 is greater than 2".toList]
      ["1 is greater than 2".toList, Standard.sum.text]).resolve_left fun h => hknown _ (by simp) _ h.1
    obtain ⟨answers, answers', hfound, hfound', hlength, hlength', hsame⟩ :=
      h (Standard.book {}).fresh (Standard.book {}).fresh
    obtain ⟨x, y, rfl⟩ := List.length_eq_two.1 hlength
    obtain ⟨y', x', rfl⟩ := List.length_eq_two.1 hlength'
    have hx := (hsame Standard.sum.text x x' (by simp) (by simp)).1 (unambiguous_chain {} Standard.sum)
    rw [← hx] at hfound'
    unfold origins at horigins
    rw [hrun] at horigins
    dsimp only at horigins
    rw [hfound] at horigins
    have horigin := (List.cons.inj (Option.some.inj horigins)).1
    exact ⟨run, run', hrun, hrun', x, y, y', hfound, hfound', horigin⟩
  · obtain ⟨run, run', hrun, hrun', h⟩ := ((Standard.book {}).resolveLines_independent "boolean"
      ["whether 3 is greater than 2".toList]
      ["1 is greater than 2".toList, "whether 3 is greater than 2".toList]).resolve_left
        fun h => hknown _ (by simp) _ h.1
    obtain ⟨answers, answers', hfound, hfound', hlength, hlength', hsame⟩ :=
      h (Standard.book {}).fresh (Standard.book {}).fresh
    obtain ⟨x, rfl⟩ := List.length_eq_one_iff.1 hlength
    obtain ⟨y, x', rfl⟩ := List.length_eq_two.1 hlength'
    have hx := (hsame "whether 3 is greater than 2".toList x x' (by simp) (by simp)).2
      (Standard.readsShape_book {})
    exact ⟨run, run', hrun, hrun', x, y, x', hfound, hfound', hx⟩

/-- One and two, the latter also by the word for the former, and a phrase that is content with one
only. -/
def fastidious : Draft where
  types := ⟨[⟨⟨0⟩, ⟨"number", "numbers"⟩, .number, some Standard.number?, none⟩]⟩
  expressions := [
    { name := "one", returns := .number, patterns := ["one".toList],
      make := fun o => .ok (.literal .integer [.integer 1] o.source) },
    { name := "two", returns := .number, patterns := ["(one|two)".toList],
      make := fun o => .ok (.literal .integer [.integer 2] o.source) },
    { name := "pick", returns := .number, patterns := ["pick %number%".toList],
      make := fun o => do
        let (e, _) ← o.take
        match e.value? with
        | some (.integer 1) => return { e with origin := .phrase "pick" }
        | _ => throw (.reason "one was expected") }]

/-- What is understood of a line may depend on the lines before it. A comparison of numbers goes first for
"whether 3 is greater than 2" when it was of use before, and else the phrase that begins with "whether".
Where a maker looks at the values it is given, the line may even not be understood any more. -/
theorem not_resolveLines_independent :
    (Standard.book {}).origins ["whether 3 is greater than 2".toList] "boolean" =
      some [some (.phrase "whether")] ∧
    (Standard.book {}).origins
        ["whether 3 is greater than 2".toList, "1 is greater than 2".toList] "boolean" =
      some [some (.phrase "whether"), some (.phrase "comparison")] ∧
    (Standard.book {}).origins
        ["1 is greater than 2".toList, "whether 3 is greater than 2".toList] "boolean" =
      some [some (.phrase "comparison"), some (.phrase "comparison")] ∧
    fastidious.finish.1.origins ["pick one".toList] "number" = some [some (.phrase "pick")] ∧
    fastidious.finish.1.origins ["two".toList, "pick one".toList] "number" =
      some [some .literal, none] := by
  rw [Standard.book_eq, fastidious.finish_of_pairwise (by decide +kernel) (by decide +kernel)]
  decide +kernel

end Book

end Phrasebook
