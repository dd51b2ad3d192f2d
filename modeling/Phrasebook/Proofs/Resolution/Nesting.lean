import Phrasebook.Proofs.Matching.InStep
import Phrasebook.Proofs.Resolution.Found
import Phrasebook.Proofs.Text.Listing
import Phrasebook.Resolution
import Phrasebook.Standard

/-!
How deep texts are nested while they are resolved. Resolving a text asks for narrower texts, or once
more for the same text, but then as one that is under way, for which no phrase is tried again. So at
most twice as many texts as the outermost one has bytes are being resolved at the same time, and two
more, whatever the patterns are; a resolver with that bound never meets it.
-/

namespace Phrasebook

namespace Activation

def width (q : Activation) : Nat := (Text.trim q.text).width

def underWay (q : Activation) : Bool := isUnderWay (Text.trim q.text) q.enclosing

/-- A narrower text than that of `q`, or the same one, now under way. -/
def Nested (q' q : Activation) : Prop :=
  q'.width < q.width ∨
    Text.trim q'.text = Text.trim q.text ∧ q'.underWay = true ∧ q.underWay = false

/-- Decreases from every activation to those nested in it. -/
def rank (q : Activation) : Nat := 2 * q.width + if q.underWay then 0 else 1

theorem Nested.rank_lt {q' q : Activation} (h : Nested q' q) : q'.rank < q.rank := by
  unfold rank
  rcases h with h | ⟨htext, hq', hq⟩
  · split <;> split <;> omega
  · rw [hq', hq, show q'.width = q.width from congrArg Text.width htext]
    simp

theorem rank_le (q : Activation) : q.rank ≤ 2 * q.text.width + 1 := by
  have : q.width ≤ q.text.width := Text.trim_width_le q.text
  unfold rank
  split <;> omega

end Activation

open Activation

/-- What an attempt on a text asks for is nested in the activation that tries phrases on it. -/
theorem nested_of_asked {text text' : Text} {enclosing chain : List Frame}
    {expected type : SlotType} {accepts accepts' : Acceptance}
    (h : Matching.Asked (Text.trim text) text' chain)
    (hway : isUnderWay (Text.trim text) enclosing = false) :
    Nested ⟨text', type, accepts', chain⟩ ⟨text, expected, accepts, enclosing⟩ := by
  by_cases hw : text'.width < (Text.trim text).width
  · left
    unfold Activation.width
    dsimp only
    rw [h.trimmed]
    exact hw
  · have htext : text' = Text.trim text := Text.eq_of_infix_of_width_le h.inside (by omega)
    right
    refine ⟨by rw [h.trimmed]; exact htext, ?_, hway⟩
    obtain ⟨f, hf, hsource⟩ := h.enclosed
    unfold Activation.underWay isUnderWay
    refine List.any_eq_true.2 ⟨f, hf, ?_⟩
    dsimp only
    rw [hsource, Text.trim_trim, h.trimmed, htext]
    exact beq_self_eq_true _

namespace Book

/-! ## What a run asks for -/

open Search

variable {α : Type}

/-- A run may ask a resolver for the activation: another answer to this one alone can change it. All that
the run calls is among these, as a fault in the answer would end the run. -/
def Asks (run : Resolver → Search α) (q : Activation) : Prop :=
  ∃ r r' : Resolver, (∀ q', q' ≠ q → r.answer q' = r'.answer q') ∧ run r ≠ run r'

/-- A run asks only for what its outcome depends on. -/
theorem Asks.of_congr {run : Resolver → Search α} {P : Activation → Prop}
    (hrun : ∀ r r' : Resolver, (∀ q, P q → r.answer q = r'.answer q) → run r = run r')
    {q : Activation} (h : Asks run q) : P q := by
  obtain ⟨r, r', hagree, hne⟩ := h
  by_contra hq
  refine hne (hrun r r' fun q' hq' => hagree q' ?_)
  rintro rfl
  exact hq hq'

open Classical in
/-- The resolver that finds nothing, but answers `x` to one activation. -/
noncomputable def answering (q : Activation) (x : Search Expression) : Resolver :=
  fun text expected accepts enclosing =>
    if (⟨text, expected, accepts, enclosing⟩ : Activation) = q then x else failure

theorem answering_self (q : Activation) (x : Search Expression) :
    Resolver.answer (answering q x) q = x := by
  unfold Resolver.answer answering
  exact if_pos rfl

theorem Asks.of_answering {run : Resolver → Search α} {q : Activation}
    (h : run (answering q failure) ≠ run (answering q (fault .tooDeep))) : Asks run q := by
  refine ⟨_, _, fun q' hq' => ?_, h⟩
  unfold Resolver.answer answering
  rw [if_neg hq', if_neg hq']

theorem failure_ne_fault : (failure : Search α) ≠ fault .tooDeep := by
  intro h
  have := congrArg (fun x => (x ⟨⟨[], []⟩, ⟨[], []⟩, []⟩).1) h
  cases this

/-- A run that is asked for an activation in some session asks for it, as long as it ends in no fault of
its own. -/
theorem Asks.of_asksIn {run : Resolver → Search α} {r : Resolver} {s t : Session} {q : Activation}
    (hfaultless : Faultless (run r)) (h : AsksIn run r s q t) : Asks run q := by
  refine ⟨r.faultingAt q t, r, fun q' hq' => funext fun s => ?_, fun heq => ?_⟩
  · exact r.answer_faultingAt_of_ne fun hsame => hq' hsame.1
  · exact hfaultless s .tooDeep (heq ▸ h)

/-! ## What a step asks for -/

theorem rank_lt_nestingBound {text text' : Text} (h : text' <:+: text) (type : SlotType)
    (accepts : Acceptance) (chain : List Frame) :
    Activation.rank ⟨text', type, accepts, chain⟩ < nestingBound text := by
  have hrank := Activation.rank_le ⟨text', type, accepts, chain⟩
  have hwidth := Text.width_le_of_infix h
  unfold nestingBound
  dsimp only at hrank
  omega

section

variable [RegexEngine] {b : Book}

theorem tryPhrase_congr {F T : Type} {r r' : Resolver} {text : Text} {enclosing : List Frame}
    (h : Matching.AgreeWithin text enclosing r r') (shelf : Shelf) (id : Nat) (phrase : Phrase F)
    (make : F → Occurrence → Except Refusal T) :
    tryPhrase r shelf id phrase make text enclosing =
      tryPhrase r' shelf id phrase make text enclosing := by
  unfold tryPhrase
  simp only [Matching.node_congr (a := .start text enclosing) h]

theorem byCandidate_congr {r r' : Resolver} {text : Text} {enclosing : List Frame}
    (h : Matching.AgreeWithin text enclosing r r') (expected : SlotType) (id : Nat) :
    b.byCandidate r text expected enclosing id = b.byCandidate r' text expected enclosing id := by
  unfold byCandidate
  simp only [tryPhrase_congr h]

theorem byPhrase_congr {r r' : Resolver} {text : Text} {enclosing : List Frame}
    (h : Matching.AgreeWithin text enclosing r r') (expected : SlotType) :
    b.byPhrase r text expected enclosing = b.byPhrase r' text expected enclosing := by
  have hcandidate : b.byCandidate r text expected enclosing = b.byCandidate r' text expected enclosing :=
    funext fun id => byCandidate_congr h expected id
  unfold byPhrase
  rw [hcandidate]

/-- The activation comes to try phrases on its text, unless it is understood as a list before. -/
structure Scans (b : Book) (q : Activation) : Prop where
  nonempty : Text.trim q.text ≠ []
  bare : Text.unwrap? (Text.trim q.text) = none
  literal : q.accepts = .expressionsOnly ∨ b.literal? (Text.trim q.text) (b.classOf q.expected) = none
  accepting : q.accepts ≠ .literalsOnly
  notUnderWay : q.underWay = false

/-- What the step on an activation asks for: the inside of parentheses, a part of a list, and what stands
in the slots of the phrases that it tries. -/
inductive AskedBy (b : Book) (q : Activation) : Activation → Prop
  | inside {inside : Text} (h : Text.unwrap? (Text.trim q.text) = some inside) :
    AskedBy b q { q with text := inside }
  | part {parts : List Text} {all : Bool} {part : Text}
    (h : Text.splitList? (Text.trim q.text) = some (parts, all)) (hpart : part ∈ parts) :
    AskedBy b q { q with text := part }
  | slot {text : Text} {type : SlotType} {accepts : Acceptance} {chain : List Frame}
    (scans : b.Scans q) (asked : Matching.AskedWithin (Text.trim q.text) q.enclosing text chain) :
    AskedBy b q ⟨text, type, accepts, chain⟩

theorem AskedBy.nested {q q' : Activation} (h : b.AskedBy q q') : Nested q' q := by
  cases h with
  | inside h => exact Or.inl ((Text.trim_width_le _).trans_lt (Text.unwrap?_width h))
  | part h hpart => exact Or.inl (Text.splitList?_width h hpart)
  | slot scans asked => exact nested_of_asked asked.toAsked scans.notUnderWay

/-- A step of resolving depends on the resolver only at what it asks for. -/
theorem step_congr {r r' : Resolver} {q : Activation}
    (h : ∀ q', b.AskedBy q q' → r.answer q' = r'.answer q') :
    Resolver.answer (b.step r) q = Resolver.answer (b.step r') q := by
  obtain ⟨text, expected, accepts, enclosing⟩ := q
  unfold Resolver.answer step
  dsimp only
  split
  · rfl
  · rename_i hne
    split
    · rename_i inside hunwrap
      exact h ⟨inside, expected, accepts, enclosing⟩ (.inside hunwrap)
    · rename_i hbare
      have hlist : b.asList r (Text.trim text) expected accepts enclosing =
          b.asList r' (Text.trim text) expected accepts enclosing := by
        unfold asList
        cases hsplit : Text.splitList? (Text.trim text) with
        | none => rfl
        | some found =>
          obtain ⟨parts, all⟩ := found
          have hevery := Search.every_congr fun part hpart =>
            h ⟨part, expected, accepts, enclosing⟩ (.part hsplit hpart)
          unfold Resolver.answer at hevery
          dsimp only at hevery ⊢
          rw [Search.ofOption_some_bind, Search.ofOption_some_bind, hevery]
      rw [hlist]
      by_cases hliteral :
          accepts = .expressionsOnly ∨ b.literal? (Text.trim text) (b.classOf expected) = none
      · by_cases hway : (accepts = .literalsOnly || isUnderWay (Text.trim text) enclosing) = true
        · rw [if_pos hway, if_pos hway]
        · have hscans : b.Scans ⟨text, expected, accepts, enclosing⟩ := by
            simp only [Bool.or_eq_true, decide_eq_true_eq, not_or, Bool.not_eq_true] at hway
            exact ⟨hne, hbare, hliteral, hway.1, hway.2⟩
          have hphrase : b.byPhrase r (Text.trim text) expected enclosing =
              b.byPhrase r' (Text.trim text) expected enclosing :=
            byPhrase_congr (fun text' type accepts' chain hasked =>
              h ⟨text', type, accepts', chain⟩ (.slot hscans hasked)) expected
          rw [if_neg hway, if_neg hway, hphrase]
      · -- a literal is found, and nothing else is tried
        rw [not_or] at hliteral
        obtain ⟨e, he⟩ := Option.ne_none_iff_exists'.1 hliteral.2
        rw [if_neg hliteral.1, he, Search.ofOption_some_orElse, Search.ofOption_some_orElse]

/-- Of a text in parentheses the inside is resolved. -/
theorem step_unwrap (r : Resolver) {q : Activation} {inside : Text}
    (ht : Text.unwrap? (Text.trim q.text) = some inside) :
    Resolver.answer (b.step r) q = r.answer { q with text := inside } := by
  have hne : Text.trim q.text ≠ [] := by
    intro hnil
    rw [hnil] at ht
    cases ht
  unfold Resolver.answer step
  dsimp only
  rw [if_neg hne, ht]

/-- Where phrases are tried for a single value, nothing else is found. -/
theorem step_of_scans (r : Resolver) {q : Activation} (scans : b.Scans q)
    (hsingle : q.expected.single = true) :
    Resolver.answer (b.step r) q = b.byPhrase r (Text.trim q.text) q.expected q.enclosing := by
  have hliteral : (if q.accepts = .expressionsOnly then failure
      else Search.ofOption (b.literal? (Text.trim q.text) (b.classOf q.expected))) = failure := by
    rcases scans.literal with haccepts | hnone
    · rw [if_pos haccepts]
    · rw [hnone, Search.ofOption, ite_self]
  have hway : isUnderWay (Text.trim q.text) q.enclosing = false := scans.notUnderWay
  unfold Resolver.answer step
  simp only [if_neg scans.nonempty, scans.bare, hliteral, hsingle, if_true, decide_eq_false scans.accepting,
    hway, Bool.or_self]
  rfl

/-- On a text that is under way the phrases do not matter. -/
theorem step_of_underWay (r : Resolver) {q : Activation} (hq : q.underWay = true) :
    Resolver.answer (b.step r) q = Resolver.answer ({ b with expressions := ⟨[], 0⟩ }.step r) q := by
  have hway : isUnderWay (Text.trim q.text) q.enclosing = true := hq
  unfold Resolver.answer step
  simp only [hway, Bool.or_true, if_true]
  rfl

/-- Where the bound on the nesting is above the rank, neither the bound matters nor what stands for all
that is deeper. -/
theorem resolverFrom_congr (bottom bottom' : Resolver) {n n' : Nat} {q : Activation}
    (hn : q.rank < n) (hn' : q.rank < n') :
    (b.resolverFrom bottom n).answer q = (b.resolverFrom bottom' n').answer q := by
  induction n generalizing n' q with
  | zero => omega
  | succ n ih =>
    obtain ⟨n', rfl⟩ : ∃ m, n' = m + 1 := ⟨n' - 1, by omega⟩
    refine step_congr fun q' hq' => ?_
    have := hq'.nested.rank_lt
    exact ih (by omega) (by omega)

/-! ## Freedom from faults -/

section

variable {r : Resolver}

theorem asList_faultless (hr : r.Faultless) (text : Text) (expected : SlotType)
    (accepts : Acceptance) (enclosing : List Frame) :
    Faultless (b.asList r text expected accepts enclosing) := by
  unfold asList
  refine .bind (.ofOption _) fun (parts, all) _ => ?_
  exact .bind (.every fun part _ => hr part expected accepts enclosing) fun items _ => .pure _

variable [RegexEngine.Lawful]

theorem tryPhrase_faultless {F T : Type} (hr : r.Faultless) (shelf : Shelf) (id : Nat)
    (phrase : Phrase F) (make : F → Occurrence → Except Refusal T) (text : Text)
    (enclosing : List Frame) : Faultless (tryPhrase r shelf id phrase make text enclosing) := by
  unfold tryPhrase
  refine .first fun (index, pattern) _ => ?_
  refine .bind (.change _) fun _ _ => .bind (.change _) fun _ _ => ?_
  refine .bind (Matching.node_faultless hr pattern [] 0 _) fun (stop, a) hnode => ?_
  obtain ⟨items, es, cs, m, -, hcovers, -⟩ :=
    Matching.node_finds_sound r pattern [] 0 (.start text enclosing) stop a (Text.isPlace_zero text)
      hnode
  obtain ⟨rest, hrest⟩ := Text.isPlace_iff.1 hcovers.isPlace_right
  refine .bind (.cut hrest) fun rest _ => ?_
  dsimp only
  split
  · exact .failure_bind _
  · split
    · exact .pure _
    · exact .bind (.change _) fun _ _ => .failure

theorem byCandidate_faultless (hr : r.Faultless) (text : Text) (expected : SlotType)
    (enclosing : List Frame) (id : Nat) : Faultless (b.byCandidate r text expected enclosing id) := by
  unfold byCandidate
  refine .bind (.ofOption _) fun phrase _ => ?_
  refine .bind (tryPhrase_faultless hr _ _ _ _ _ _) fun made _ => ?_
  dsimp only
  split
  · refine .bind (.change _) fun _ _ => ?_
    exact .failure_bind _
  · exact .bind (.change _) fun _ _ => .pure _

theorem byPhrase_faultless (hr : r.Faultless) (text : Text) (expected : SlotType)
    (enclosing : List Frame) : Faultless (b.byPhrase r text expected enclosing) := by
  unfold byPhrase
  refine .bind .session fun s _ => .first fun id _ => ?_
  exact byCandidate_faultless hr text expected enclosing id

theorem step_faultless (hr : r.Faultless) : (b.step r).Faultless := by
  intro text expected accepts enclosing
  unfold step
  dsimp only
  split
  · exact .failure
  · split
    · exact hr _ expected accepts enclosing
    · refine .orElse ?_ (.orElse ?_ ?_)
      · split
        · exact .failure
        · exact .ofOption _
      · split
        · exact .failure
        · exact asList_faultless hr _ expected accepts enclosing
      · split
        · exact .failure
        · exact byPhrase_faultless hr _ expected enclosing

theorem resolverFrom_faultless {bottom : Resolver} (h : bottom.Faultless) (n : Nat) :
    (b.resolverFrom bottom n).Faultless := by
  induction n with
  | zero => exact h
  | succ n ih => exact step_faultless ih

end

/-! ## Activations open at once -/

/-- Activations that may be open at the same time in a run, innermost first: the outermost is asked for
by the run, and each of the others by the step that answers the one around it. -/
inductive Open (b : Book) (run : Resolver → Search α) : List Activation → Prop where
  | outermost {q : Activation} (h : Asks run q) : Open b run [q]
  | inner {q q' : Activation} {qs : List Activation} (h : Open b run (q :: qs))
    (hq : Asks (fun r => Resolver.answer (b.step r) q) q') : Open b run (q' :: q :: qs)

theorem Asks.askedBy {q q' : Activation} (h : Asks (fun r => Resolver.answer (b.step r) q) q') :
    b.AskedBy q q' :=
  h.of_congr fun _ _ h => step_congr h

theorem Open.nested {run : Resolver → Search α} {stack : List Activation}
    (h : Open b run stack) : stack.IsChain Nested := by
  induction h with
  | @outermost q _ => exact List.IsChain.singleton q
  | inner _ hq ih => exact ih.cons_cons hq.askedBy.nested

theorem Open.length_le {run : Resolver → Search α} {bound : Nat}
    (hrun : ∀ r r' : Resolver, (∀ q, q.rank < bound → r.answer q = r'.answer q) → run r = run r')
    {stack : List Activation} (h : Open b run stack) : stack.length ≤ bound := by
  -- every activation opened inside the stack has a lower rank than those there
  have hrank : ∀ q ∈ stack.head?, q.rank + stack.length ≤ bound := by
    induction h with
    | outermost hq =>
      intro q hhead
      cases hhead
      exact hq.of_congr hrun
    | @inner q q' qs _ hq ih =>
      intro p hhead
      cases hhead
      have hlt := hq.askedBy.nested.rank_lt
      have hle := ih q rfl
      simp only [List.length_cons] at hle ⊢
      omega
  cases stack with
  | nil => exact Nat.zero_le _
  | cons q qs =>
    have := hrank q rfl
    omega

/-- A run on a text that stays within the bound on the nesting in it: it comes to the same with any
larger bound, it ends in no fault, and the activations open at once are nested and no more than the
bound. -/
structure WellNested (b : Book) (text : Text) (x : Search α) (run : Resolver → Search α) : Prop where
  settled : ∀ bottom n, nestingBound text ≤ n → run (b.resolverFrom bottom n) = x
  faultless : Faultless x
  nested : ∀ stack, Open b run stack → stack.IsChain Nested
  depth : ∀ stack, Open b run stack → stack.length ≤ 2 * text.width + 2

theorem WellNested.of_congr [RegexEngine.Lawful] {text : Text} (run : Resolver → Search α)
    (hrun : ∀ r r' : Resolver, (∀ q, q.rank < nestingBound text → r.answer q = r'.answer q) →
      run r = run r')
    (hfaultless : ∀ r : Resolver, r.Faultless → Faultless (run r)) :
    WellNested b text (run (b.resolver (nestingBound text))) run where
  settled bottom n hn := hrun _ _ fun q hq => resolverFrom_congr _ _ (by omega) hq
  faultless := by
    have h := hrun (b.resolver (nestingBound text))
      (b.resolverFrom (fun _ _ _ _ => failure) (nestingBound text))
      fun q hq => resolverFrom_congr _ _ hq hq
    rw [h]
    exact hfaultless _ (resolverFrom_faultless (fun _ _ _ _ => .failure) _)
  nested _ h := h.nested
  depth _ h := h.length_le hrun

/-- With the bound for a text, what is deeper than the bound is never asked for. -/
theorem resolver_faultless [RegexEngine.Lawful] {text : Text} {n : Nat} (hn : nestingBound text ≤ n)
    (expected : SlotType) (accepts : Acceptance) (enclosing : List Frame) :
    Faultless (b.resolver n text expected accepts enclosing) := by
  have hrank := (rank_lt_nestingBound List.infix_rfl expected accepts enclosing).trans_le hn
  have hcongr : b.resolver n text expected accepts enclosing =
      b.resolverFrom (fun _ _ _ _ => failure) n text expected accepts enclosing :=
    resolverFrom_congr _ _ (q := ⟨text, expected, accepts, enclosing⟩) hrank hrank
  rw [hcongr]
  exact resolverFrom_faultless (fun _ _ _ _ => .failure) n text expected accepts enclosing

theorem resolveBy_congr {r r' : Resolver} {text : Text} {expected : SlotType}
    (h : r text expected .both [] = r' text expected .both []) :
    b.resolveBy r text expected = b.resolveBy r' text expected := by
  unfold resolveBy
  rw [h]

theorem parseEffectBy_congr {r r' : Resolver} {text : Text}
    (h : Matching.AgreeWithin (Text.trim text) [] r r') :
    b.parseEffectBy r text = b.parseEffectBy r' text := by
  unfold parseEffectBy effectByPhrase
  simp only [tryPhrase_congr h]

theorem matchBy_congr {r r' : Resolver} {text : Text} (h : Matching.AgreeWithin text [] r r')
    (pattern : Pattern) (i : Nat) : matchBy r pattern text i = matchBy r' pattern text i :=
  Matching.node_congr (a := .start text []) h pattern [] i

theorem resolve_wellNested [RegexEngine.Lawful] (text : Text) (expected : SlotType) :
    WellNested b text (b.resolve text expected) (b.resolveBy · text expected) := by
  refine WellNested.of_congr (b.resolveBy · text expected) (fun r r' h => ?_) fun r hr => ?_
  · exact resolveBy_congr
      (h ⟨text, expected, .both, []⟩ (rank_lt_nestingBound List.infix_rfl _ _ _))
  · unfold resolveBy
    refine .orElse (hr _ _ _ _) ?_
    split
    · exact .bind (.change _) fun _ _ => .failure
    · exact .failure

theorem parseEffect_wellNested [RegexEngine.Lawful] (text : Text) :
    WellNested b text (b.parseEffect text) (b.parseEffectBy · text) := by
  refine WellNested.of_congr (b.parseEffectBy · text) (fun r r' h => ?_) fun r hr => ?_
  · exact parseEffectBy_congr fun text' type accepts chain hasked =>
      h ⟨text', type, accepts, chain⟩
        (rank_lt_nestingBound (hasked.inside.trans (Text.trim_isInfix text)) _ _ _)
  · unfold parseEffectBy effectByPhrase
    dsimp only
    refine .orElse ?_ ?_
    · split
      · exact .failure_bind _
      · refine .bind .session fun s _ => .first fun id _ => ?_
        refine .bind (.ofOption _) fun phrase _ => ?_
        refine .bind (tryPhrase_faultless hr _ _ _ _ _ _) fun e _ => ?_
        exact .bind (.change _) fun _ _ => .pure _
    · split
      · exact .bind (.change _) fun _ _ => .failure
      · exact .failure

theorem matchFrom_wellNested [RegexEngine.Lawful] (pattern : Pattern) (text : Text) (i : Nat) :
    WellNested b text (b.matchFrom pattern text i) (matchBy · pattern text i) := by
  refine WellNested.of_congr (matchBy · pattern text i) (fun r r' h => ?_) fun r hr => ?_
  · exact matchBy_congr (fun text' type accepts chain hasked =>
      h ⟨text', type, accepts, chain⟩ (rank_lt_nestingBound hasked.inside _ _ _)) pattern i
  · exact Matching.node_faultless hr pattern [] i _

/-! ## Nesting by parentheses -/

/-- Resolving a text opens an activation for it. -/
theorem open_resolveBy (b : Book) (text : Text) (expected : SlotType) :
    Open b (b.resolveBy · text expected) [⟨text, expected, .both, []⟩] := by
  refine .outermost (.of_answering fun h => ?_)
  have hself (x : Search Expression) :
      answering ⟨text, expected, .both, []⟩ x text expected .both [] = x :=
    answering_self ⟨text, expected, .both, []⟩ x
  unfold resolveBy at h
  rw [hself, hself] at h
  have hout := congrArg (fun x => (x b.fresh).1) h
  split at hout <;> cases hout

/-- Inside parentheses the next activation is opened. -/
theorem Open.unwrap {run : Resolver → Search α} {q : Activation} {qs : List Activation}
    {inside : Text} (h : Open b run (q :: qs)) (ht : Text.unwrap? (Text.trim q.text) = some inside) :
    Open b run ({ q with text := inside } :: q :: qs) := by
  refine .inner h (.of_answering ?_)
  rw [step_unwrap _ ht, step_unwrap _ ht, answering_self, answering_self]
  exact failure_ne_fault

/-- Three activations open at once. -/
theorem open_twiceParenthesized (b : Book) (expected : SlotType) :
    Open b (b.resolveBy · "((1))".toList expected)
      [⟨"1".toList, expected, .both, []⟩, ⟨"(1)".toList, expected, .both, []⟩,
        ⟨"((1))".toList, expected, .both, []⟩] := by
  have houter : Text.unwrap? (Text.trim "((1))".toList) = some "(1)".toList := by decide
  have hinner : Text.unwrap? (Text.trim "(1)".toList) = some "1".toList := by decide
  exact ((open_resolveBy b "((1))".toList expected).unwrap houter).unwrap hinner

/-! ## Nesting by slots -/

/-- The first text that a slot asks for is what stands up to the first of its boundaries with a place. -/
theorem slotEnd_asksIn {r : Resolver} {type : SlotType} {types : List SlotType} {accepts : Acceptance}
    {tail : Tail} {a : Attempt} {start : Nat} (before : List Boundary) {bound : Boundary}
    {after : List Boundary} (stop : Nat) (candidate : Text)
    (htail : tail.boundaries = before ++ bound :: after)
    (hbefore : ∀ c ∈ before, c.place? a.source (a.source.skipBlank start) = none)
    (hbound : bound.place? a.source (a.source.skipBlank start) = some stop)
    (hcandidate : a.source.between? (a.source.skipBlank start) stop = some candidate)
    (hne : Text.trim candidate ≠ []) (s : Session) :
    AsksIn (fun r => Matching.slotEnd r (type :: types) accepts tail a start) r s
      ⟨Text.trim candidate, type, accepts, a.chain⟩ s := by
  have hslot : AsksIn (fun r => Matching.resolveSlot r (type :: types) accepts a.chain candidate) r s
      ⟨Text.trim candidate, type, accepts, a.chain⟩ s := by
    unfold Matching.resolveSlot
    simp only [if_neg hne]
    exact .orElse_left (.answer r _ s)
  unfold Matching.slotEnd
  rw [htail]
  clear htail
  apply AsksIn.orElse_left
  induction before with
  | nil =>
    apply AsksIn.orElse_left
    simp only [hbound, hcandidate, ofOption_some_bind, cut_some_bind]
    exact hslot.bind_left
  | cons c before ih =>
    have hrest := ih fun d hd => hbefore d (List.mem_cons_of_mem c hd)
    refine .orElse_right (Matching.upTo_passesFaults _ _ _ _ _) ?_ hrest
    change Search.bind (ofOption (c.place? _ _)) _ s = _
    rw [hbefore c List.mem_cons_self]
    rfl

/-- Where phrases are tried for a single value, the first candidate comes first. If its pattern begins with
a slot, then what this slot asks for first is asked for, inside an attempt on the whole text. -/
theorem step_asksIn {r : Resolver} {q : Activation} (scans : b.Scans q) (hsingle : q.expected.single = true)
    {s : Session} {id : Nat} {ids : List Nat}
    (hids : b.expressions.candidates s.expressions (b.compatible · (b.classOf q.expected)) = id :: ids)
    {p : Phrase ExpressionMaker} (hp : b.expressions.phrases[id]? = some p) {index : Nat}
    {types : List SlotType} {accepts : Acceptance} {nullable : Bool} {parts : List Pattern}
    {patterns : List (Nat × Pattern)}
    (hpatterns : p.patterns = (index, .sequence (.slot types accepts nullable :: parts)) :: patterns)
    {q' : Activation}
    (hslot : ∀ s, AsksIn (fun r => Matching.slotEnd r types accepts [parts]
      (.start (Text.trim q.text) q.enclosing) 0) r s q' s) :
    AsksIn (fun r => Resolver.answer (b.step r) q) r s q'
      (s.trying .expressions id p.name index q.enclosing.length) := by
  have htry : AsksIn (fun r => tryPhrase r .expressions id p (fun make o => make o) (Text.trim q.text)
      q.enclosing) r s q' (s.trying .expressions id p.name index q.enclosing.length) := by
    unfold tryPhrase
    rw [hpatterns]
    apply AsksIn.orElse_left
    refine .bind_right (.const _) rfl (.bind_right (.const _) rfl (.bind_left ?_))
    simp only [Matching.node, Matching.parts]
    exact (hslot _).bind_left.bind_left
  simp only [step_of_scans _ scans hsingle]
  unfold byPhrase
  refine .bind_right (.const _) rfl ?_
  rw [hids]
  apply AsksIn.orElse_left
  unfold byCandidate
  simp only [hp, ofOption_some_bind]
  exact htry.bind_left

/-! ## The bound on the nesting -/

/-- Whatever the phrases are, resolving a text, understanding it as an effect and matching a pattern
all stay within the bound on the nesting. On a text that is under way no phrase is tried: it is
answered as if there were none. -/
theorem wellNested [RegexEngine.Lawful] (b : Book) (text : Text) :
    (∀ expected, WellNested b text (b.resolve text expected) (b.resolveBy · text expected)) ∧
      WellNested b text (b.parseEffect text) (b.parseEffectBy · text) ∧
      (∀ pattern i, WellNested b text (b.matchFrom pattern text i) (matchBy · pattern text i)) ∧
      ∀ (r : Resolver) (q : Activation), q.underWay = true →
        Resolver.answer (b.step r) q = Resolver.answer ({ b with expressions := ⟨[], 0⟩ }.step r) q :=
  ⟨resolve_wellNested text, parseEffect_wellNested text, fun p i => matchFrom_wellNested p text i,
    fun r _ => step_of_underWay r⟩

end

def oneNumber : SlotType := ⟨⟨0⟩, "number", true⟩

/-- What is read of "%number% [!]". -/
def exclaimedPattern : Pattern :=
  .sequence [.slot [oneNumber] .both false, .literal [' '], .optional (.literal ['!'])]

/-- Numbers, with a phrase that begins with a number itself. -/
def exclaiming : Book where
  settings := {}
  types := ⟨[⟨⟨0⟩, ⟨"number", "numbers"⟩, .number, some Standard.number?, none⟩]⟩
  conversions := .empty .builtin
  expressions := ⟨[⟨"exclaimed", .number, 1, [(0, exclaimedPattern)], fun o => o.take.map (·.1),
    Phrase.defaultPriority⟩], 0⟩
  effects := ⟨[], 0⟩

/-- The activation for a word inside attempts in which nothing has been found yet. -/
def wordActivation (text : Text) (sources : List Text) : Activation :=
  ⟨text, oneNumber, .both, sources.map fun source => ⟨source, .none⟩⟩

/-- On a word that is no number, the phrase asks for what stands in front of its sign, and then for this
once more. -/
theorem open_exclaimed : Open exclaiming (exclaiming.resolveBy · ['x', ' ', '!'] oneNumber)
    [wordActivation ['x'] [['x'], ['x', ' ', '!']], wordActivation ['x'] [['x', ' ', '!']],
      wordActivation ['x', ' ', '!'] []] := by
  have hnothing : Resolver.Faultless fun _ _ _ _ => failure := fun _ _ _ _ => .failure
  have hsign : exclaiming.Scans (wordActivation ['x', ' ', '!'] []) :=
    ⟨by decide, by decide, Or.inr rfl, by decide, by decide⟩
  have hword : exclaiming.Scans (wordActivation ['x'] [['x', ' ', '!']]) :=
    ⟨by decide, by decide, Or.inr rfl, by decide, by decide⟩
  have hids : exclaiming.expressions.candidates exclaiming.fresh.expressions
      (exclaiming.compatible · (exclaiming.classOf oneNumber)) = [0] := by decide
  refine .inner (.inner (open_resolveBy _ _ _) ?_) ?_
  · refine .of_asksIn (step_faultless hnothing _ _ _ _) (step_asksIn hsign rfl hids rfl rfl fun s => ?_)
    exact slotEnd_asksIn [] 2 ['x', ' '] rfl (by simp) (by decide) (by decide) (by decide) s
  · refine .of_asksIn (step_faultless hnothing _ _ _ _) (step_asksIn hword rfl hids rfl rfl fun s => ?_)
    exact slotEnd_asksIn [.word ['!'] false false] 1 ['x'] rfl (by decide) (by decide) (by decide)
      (by decide) s

/-- The phrase is tried on the text and on the word in it, and not on the word that is under way. Eight is
bound enough for three bytes. -/
theorem wellNested_exclaimed :
    (exclaiming.resolve ['x', ' ', '!'] oneNumber exclaiming.fresh).2.expressions.attempts = [2] ∧
    exclaiming.resolveBy (exclaiming.resolverFrom (fun _ _ _ _ => failure) 8) ['x', ' ', '!'] oneNumber =
      exclaiming.resolve ['x', ' ', '!'] oneNumber ∧
    List.IsChain Nested [wordActivation ['x'] [['x'], ['x', ' ', '!']],
      wordActivation ['x'] [['x', ' ', '!']], wordActivation ['x', ' ', '!'] []] ∧
    Resolver.answer (exclaiming.step fun _ _ _ _ => failure) (wordActivation ['x'] [['x'], ['x', ' ', '!']]) =
      Resolver.answer ({ exclaiming with expressions := ⟨[], 0⟩ }.step fun _ _ _ _ => failure)
        (wordActivation ['x'] [['x'], ['x', ' ', '!']]) := by
  obtain ⟨hresolve, -, -, hway⟩ := wellNested exclaiming ['x', ' ', '!']
  have hnumber := hresolve oneNumber
  have htried :
      (exclaiming.resolve ['x', ' ', '!'] oneNumber exclaiming.fresh).2.expressions.attempts = [2] := by
    decide +kernel
  exact ⟨htried, hnumber.settled _ 8 (by decide), hnumber.nested _ open_exclaimed, hway _ _ (by decide)⟩

end Book

end Phrasebook
