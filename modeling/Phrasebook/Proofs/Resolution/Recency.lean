import Phrasebook.Proofs.Phrase
import Phrasebook.Proofs.Resolution.Nesting
import Phrasebook.Proofs.Standard.Book
import Phrasebook.Proofs.Standard.Shape

/-!
What the recent phrases cannot change. They only order the phrases to try: whatever happened before
and however many are remembered, the same phrases are candidates. So two runs over the same text may
find different expressions, and promote different phrases on the way, but if the makers read only the
shape of what they are given, then one run finds something just when the other does.
-/

namespace Phrasebook

/-- A frame on the same source, whatever has been found in it. -/
def Frame.OnSameSource (f g : Frame) : Prop := f.source = g.source

theorem isUnderWay_congr {chain chain' : List Frame} (t : Text)
    (h : List.Forall₂ Frame.OnSameSource chain chain') : isUnderWay t chain = isUnderWay t chain' := by
  induction h with
  | nil => rfl
  | @cons f g fs gs hfg _ ih =>
    have hsource : f.source = g.source := hfg
    unfold isUnderWay at ih ⊢
    rw [List.any_cons, List.any_cons, hsource, ih]

/-- Lists of which nothing is related but the length. -/
theorem forall₂_true_iff {α β : Type} {l : List α} {l' : List β} :
    List.Forall₂ (fun _ _ => True) l l' ↔ l.length = l'.length := by
  induction l generalizing l' with
  | nil => cases l' <;> simp
  | cons a l ih => cases l' <;> simp [ih]

theorem Findings.sameShape_iff_alike {f g : Findings} :
    f.SameShape g ↔ f.Alike (fun _ _ => True) g := by
  constructor
  · intro h
    exact ⟨forall₂_true_iff.2 h.number, h.captures, h.mark⟩
  · intro h
    exact ⟨forall₂_true_iff.1 h.expressions, h.captures, h.mark⟩

/-- Attempts that differ in the expressions found, and not in their number, inside attempts on the
same sources. -/
structure Attempt.SameShape (a b : Attempt) : Prop where
  source : a.source = b.source
  findings : a.findings.SameShape b.findings
  enclosing : List.Forall₂ Frame.OnSameSource a.enclosing b.enclosing

namespace Attempt.SameShape

variable {a b : Attempt}

theorem alike (h : a.SameShape b) : a.Alike (fun _ _ => True) Frame.OnSameSource b :=
  ⟨⟨h.source, Findings.sameShape_iff_alike.1 h.findings⟩, h.enclosing⟩

theorem of_alike (h : a.Alike (fun _ _ => True) Frame.OnSameSource b) : a.SameShape b :=
  ⟨h.source, Findings.sameShape_iff_alike.2 h.frame.findings, h.enclosing⟩

end Attempt.SameShape

namespace Book

open Search

/-- Resolvers that find something for the same texts inside the same sources. -/
def FindAlike (r r' : Resolver) : Prop :=
  ∀ text type accepts chain chain', List.Forall₂ Frame.OnSameSource chain chain' →
    EndAlike (fun _ _ => True) (r text type accepts chain) (r' text type accepts chain')

theorem FindAlike.resolversInStep {r r' : Resolver} (hr : FindAlike r r') (source : Text) :
    Matching.ResolversInStep (fun _ _ => True) (fun _ _ => True) Frame.OnSameSource source r r' :=
  fun text type accepts chain chain' _ hchain => hr text type accepts chain chain' hchain

section

variable [RegexEngine]

/-- The book with other limits on how many recent phrases are remembered. -/
def remembering (b : Book) (m n : Nat) : Book :=
  { b with
    expressions := { b.expressions with capacity := m }
    effects := { b.effects with capacity := n } }

theorem adapt_single (b : Book) (e : Expression) (target : ClassId) :
    (b.adapt e target).single = e.single := by
  unfold adapt
  split <;> rfl

theorem FindAlike.node {r r' : Resolver} (hr : FindAlike r r') (p : Pattern) (tail : Tail) (i : Nat)
    {a a' : Attempt} (h : a.Alike (fun _ _ => True) Frame.OnSameSource a') :
    EndAlike (Matching.EndsAlike (fun _ _ => True) Frame.OnSameSource a.source)
      (Matching.node r p tail i a) (Matching.node r' p tail i a') :=
  Matching.node_inStep (fun _ _ _ hfg => hfg.source) (hr.resolversInStep a.source) p tail i a a' rfl h

/-- If what is made of occurrences with related expressions is related, so is what a phrase makes of a
text when the resolvers find related expressions. -/
theorem tryPhrase_endAlike {E Q : Expression → Expression → Prop} {K : Frame → Frame → Prop}
    {r r' : Resolver} {text : Text} (hK : ∀ f g : Frame, f.Alike E g → K f g)
    (hr : Matching.ResolversInStep (fun _ _ => True) E K text r r') {p : Phrase ExpressionMaker}
    (hp : ∀ index f g, f.Alike E g → MadeAlike Q (p.make ⟨text, index, f⟩) (p.make ⟨text, index, g⟩))
    (id : Nat) {chain chain' : List Frame} (h : List.Forall₂ K chain chain') :
    EndAlike Q (tryPhrase r .expressions id p (fun make o => make o) text chain)
      (tryPhrase r' .expressions id p (fun make o => make o) text chain') := by
  unfold tryPhrase
  refine InStep.first fun (index, pattern) _ => ?_
  refine .bind (.change fun _ _ _ => trivial) fun _ _ _ => ?_
  refine .bind (.change fun _ _ _ => trivial) fun _ _ _ => ?_
  refine .bind (Matching.node_inStep (fun f g _ hfg => hK f g hfg) hr pattern [] 0 _ _ rfl (.start text h)) ?_
  rintro ⟨stop, a⟩ ⟨_, a'⟩ ⟨rfl, ha, halike⟩
  refine .bind (.cut _) ?_
  rintro rest _ ⟨rfl, -⟩
  dsimp only
  split
  · exact .failure_bind _ _
  · have ha' : a'.source = text := halike.source.symm.trans ha
    have hmade : MadeAlike Q (p.make ⟨text, index, a.findings⟩) (p.make ⟨text, index, a'.findings⟩) :=
      hp index _ _ halike.frame.findings
    unfold Attempt.finish
    rw [ha, ha']
    generalize p.make ⟨text, index, a.findings⟩ = x at hmade ⊢
    generalize p.make ⟨text, index, a'.findings⟩ = y at hmade ⊢
    cases hmade with
    | made hQ => exact .pure hQ
    | refused e e' => exact .bind (.change fun _ _ _ => trivial) fun _ _ _ => .failure

theorem byCandidate_endAlike {b : Book} (hb : b.ReadsShape) (m n : Nat) {r r' : Resolver}
    (hr : FindAlike r r') (text : Text) (expected : SlotType) {chain chain' : List Frame}
    (h : List.Forall₂ Frame.OnSameSource chain chain') (id : Nat) :
    EndAlike (fun _ _ => True) (b.byCandidate r text expected chain id)
      ((b.remembering m n).byCandidate r' text expected chain' id) := by
  unfold byCandidate
  refine .bind (.ofOption _) ?_
  rintro p _ ⟨rfl, hp⟩
  have hmake (index : Nat) (f g : Findings) (hfg : f.Alike (fun _ _ => True) g) :
      MadeAlike (fun e e' => e.single = e'.single) (p.make ⟨text, index, f⟩)
        (p.make ⟨text, index, g⟩) :=
    hb p (List.mem_of_getElem? hp) _ _ ⟨rfl, rfl, Findings.sameShape_iff_alike.2 hfg⟩
  have htry := tryPhrase_endAlike (fun _ _ hfg => hfg.source) (hr.resolversInStep text) hmake id h
  refine htry.bind fun e e' he => ?_
  have hsingle : (b.adapt e (b.classOf expected)).single =
      ((b.remembering m n).adapt e' ((b.remembering m n).classOf expected)).single :=
    (b.adapt_single e _).trans (he.trans (adapt_single _ e' _).symm)
  dsimp only
  rw [hsingle]
  split
  · refine .bind (.change fun _ _ _ => trivial) fun _ _ _ => ?_
    exact .failure_bind _ _
  · exact .bind (.change fun _ _ _ => trivial) fun _ _ _ => .pure trivial

/-- The candidates come in another order, but each of them ends alike in both runs. -/
theorem byPhrase_endAlike [RegexEngine.Lawful] {b : Book} (hb : b.ReadsShape) (m n : Nat) {r r' : Resolver}
    (hf : r.Faultless) (hf' : r'.Faultless) (hr : FindAlike r r') (text : Text)
    (expected : SlotType) {chain chain' : List Frame}
    (h : List.Forall₂ Frame.OnSameSource chain chain') :
    EndAlike (fun _ _ => True) (b.byPhrase r text expected chain)
      ((b.remembering m n).byPhrase r' text expected chain') := by
  unfold byPhrase
  dsimp only
  refine .bind .session fun s t _ => ?_
  refine EndAlike.first (fun id => ?_) (fun id _ => ?_) (fun id _ => ?_) (fun id _ => ?_)
  · rw [PhraseTable.mem_candidates, PhraseTable.mem_candidates]
    rfl
  · exact byCandidate_faultless hf text expected chain id
  · exact byCandidate_faultless hf' text expected chain' id
  · exact byCandidate_endAlike hb m n hr text expected h id

theorem asList_endAlike (b : Book) (m n : Nat) {r r' : Resolver} (hr : FindAlike r r') (text : Text)
    (expected : SlotType) (accepts : Acceptance) {chain chain' : List Frame}
    (h : List.Forall₂ Frame.OnSameSource chain chain') :
    EndAlike (fun _ _ => True) (b.asList r text expected accepts chain)
      ((b.remembering m n).asList r' text expected accepts chain') := by
  unfold asList
  refine .bind (.ofOption _) ?_
  rintro ⟨parts, all⟩ _ ⟨rfl, -⟩
  have hevery := InStep.every fun part (_ : part ∈ parts) => hr part expected accepts chain chain' h
  exact hevery.bind fun _ _ _ => .pure trivial

theorem step_findAlike [RegexEngine.Lawful] {b : Book} (hb : b.ReadsShape) (m n : Nat) {r r' : Resolver}
    (hf : r.Faultless) (hf' : r'.Faultless) (hr : FindAlike r r') :
    FindAlike (b.step r) ((b.remembering m n).step r') := by
  intro text expected accepts chain chain' h
  unfold step
  dsimp only
  rw [isUnderWay_congr _ h]
  split
  · exact .failure
  · split
    · exact hr _ expected accepts chain chain' h
    · refine .orElse ?_ (.orElse ?_ ?_)
      · split
        · exact .failure
        · exact (InStep.ofOption _).mono fun _ _ _ => trivial
      · split
        · exact .failure
        · exact asList_endAlike b m n hr _ expected accepts h
      · split
        · exact .failure
        · exact byPhrase_endAlike hb m n hf hf' hr _ expected h

/-- With any bound on the nesting, if nothing deeper is found. -/
theorem resolverFrom_findAlike [RegexEngine.Lawful] {b : Book} (hb : b.ReadsShape) (m n : Nat) (depth : Nat) :
    FindAlike (b.resolverFrom (fun _ _ _ _ => failure) depth)
      ((b.remembering m n).resolverFrom (fun _ _ _ _ => failure) depth) := by
  induction depth with
  | zero => exact fun _ _ _ _ _ _ => .failure
  | succ depth ih =>
    have hf (b : Book) : Resolver.Faultless (b.resolverFrom (fun _ _ _ _ => failure) depth) :=
      resolverFrom_faultless (fun _ _ _ _ => .failure) depth
    exact step_findAlike hb m n (hf b) (hf (b.remembering m n)) ih

theorem resolver_endAlike [RegexEngine.Lawful] {b : Book} (hb : b.ReadsShape) (m n : Nat) (text : Text)
    (expected : SlotType) (accepts : Acceptance) {chain chain' : List Frame}
    (h : List.Forall₂ Frame.OnSameSource chain chain') :
    EndAlike (fun _ _ => True) (b.resolver (nestingBound text) text expected accepts chain)
      ((b.remembering m n).resolver (nestingBound text) text expected accepts chain') := by
  have hrank (c : List Frame) := rank_lt_nestingBound (List.infix_refl text) expected accepts c
  have hbottom (b : Book) (c : List Frame) :
      b.resolver (nestingBound text) text expected accepts c =
        b.resolverFrom (fun _ _ _ _ => failure) (nestingBound text) text expected accepts c :=
    b.resolverFrom_congr _ _ (hrank c) (hrank c)
  rw [hbottom, hbottom]
  exact resolverFrom_findAlike hb m n _ text expected accepts chain chain' h

theorem node_endAlike [RegexEngine.Lawful] {b : Book} (hb : b.ReadsShape) (m n : Nat) (p : Pattern)
    (tail : Tail) (i : Nat) {a a' : Attempt} (h : a.SameShape a') :
    EndAlike (fun x y => x.1 = y.1 ∧ x.2.SameShape y.2)
      (Matching.node (b.resolver (nestingBound a.source)) p tail i a)
      (Matching.node ((b.remembering m n).resolver (nestingBound a'.source)) p tail i a') := by
  have hbottom (b : Book) (a : Attempt) :
      Matching.node (b.resolver (nestingBound a.source)) p tail i a =
        Matching.node (b.resolverFrom (fun _ _ _ _ => failure) (nestingBound a.source)) p tail i a := by
    refine Matching.node_congr (fun text type accepts chain hasked => ?_) p tail i
    have hrank := rank_lt_nestingBound hasked.inside type accepts chain
    exact b.resolverFrom_congr _ _ hrank hrank
  rw [hbottom, hbottom, ← h.source]
  have hr := resolverFrom_findAlike hb m n (nestingBound a.source)
  refine (hr.node p tail i h.alike).mono ?_
  rintro ⟨j, c⟩ ⟨k, d⟩ ⟨hend, -, hcd⟩
  exact ⟨hend, .of_alike hcd⟩

/-- If the makers read the shape only, as those of the standard book do, then neither the session nor
how many phrases are remembered matters for whether a text can be resolved, or a pattern matched, and
for where the match ends, its mark, its captures and the number of its expressions. -/
theorem recency_unseen [RegexEngine.Lawful] :
    (∀ settings, (Standard.book settings).ReadsShape) ∧
      ∀ b : Book, b.ReadsShape → ∀ m n : Nat,
        (∀ text expected accepts chain chain', List.Forall₂ Frame.OnSameSource chain chain' →
          EndAlike (fun _ _ => True) (b.resolver (nestingBound text) text expected accepts chain)
            ((b.remembering m n).resolver (nestingBound text) text expected accepts chain')) ∧
        ∀ p tail i (a a' : Attempt), a.SameShape a' →
          EndAlike (fun x y => x.1 = y.1 ∧ x.2.SameShape y.2)
            (Matching.node (b.resolver (nestingBound a.source)) p tail i a)
            (Matching.node ((b.remembering m n).resolver (nestingBound a'.source)) p tail i a') :=
  ⟨Standard.readsShape_book, fun _ hb m n =>
    ⟨fun text expected accepts _ _ h => resolver_endAlike hb m n text expected accepts h,
      fun p tail i _ _ h => node_endAlike hb m n p tail i h⟩⟩

end

/-- A text for which two phrases of the standard book compete. -/
def whetherGreater : Text := "whether 3 is greater than 2".toList

/-- What is found for it by a book with the phrases of the standard one. -/
def whetherIn (b : Book) (s : Session) : Outcome Expression :=
  (b.resolver (nestingBound whetherGreater) whetherGreater ⟨⟨5⟩, "boolean", true⟩ .both [] s).1

def provided : Pattern :=
  .sequence [.literal "provided ".toList, .slot [⟨⟨5⟩, "boolean", true⟩] .both false]

/-- Where the match ends if the text stands in the slot. -/
def providedIn (b : Book) (s : Session) : Option Nat :=
  (Matching.node (b.resolver (nestingBound ("provided ".toList ++ whetherGreater))) provided [] 0
    (.start ("provided ".toList ++ whetherGreater) []) s).1.toOption.map (·.1)

/-- The session of the standard book in which the phrase for comparisons was of use. -/
def compared : Session := ((Standard.book {}).promote .expressions 3 (Standard.book {}).fresh).2

/-- The phrase that begins with "whether" goes first in the fresh session, and the one for comparisons where
it was of use and one phrase of a class is remembered. So the expressions differ, but there is one in both,
and in a slot it is found up to the same place. -/
theorem recency_unseen_whether :
    (Standard.book {}).ReadsShape ∧
      (whetherIn (Standard.book {}) (Standard.book {}).fresh).toOption.map (·.origin) =
        some (.phrase "whether") ∧
      (whetherIn ((Standard.book {}).remembering 1 0) compared).toOption.map (·.origin) =
        some (.phrase "comparison") ∧
      (whetherIn ((Standard.book {}).remembering 1 0) compared).toOption.isSome = true ∧
      providedIn ((Standard.book {}).remembering 1 0) compared = some 36 := by
  have hwhether : (whetherIn (Standard.book {}) (Standard.book {}).fresh).toOption.map (·.origin) =
      some (.phrase "whether") := by
    rw [Standard.book_eq]
    decide +kernel
  have hcomparison : (whetherIn ((Standard.book {}).remembering 1 0) compared).toOption.map
      (·.origin) = some (.phrase "comparison") := by
    unfold compared
    rw [Standard.book_eq]
    decide +kernel
  have hprovided : providedIn (Standard.book {}) (Standard.book {}).fresh = some 36 := by
    rw [Standard.book_eq]
    decide +kernel
  have hb := recency_unseen.1 {}
  obtain ⟨hresolver, hnode⟩ := recency_unseen.2 (Standard.book {}) hb 1 0
  refine ⟨hb, hwhether, hcomparison, ?_, ?_⟩
  · have halike := (hresolver whetherGreater ⟨⟨5⟩, "boolean", true⟩ .both [] [] .nil
      (Standard.book {}).fresh compared trivial).1
    have hsome : (whetherIn (Standard.book {}) (Standard.book {}).fresh).toOption.isSome = true := by
      rw [← Option.isSome_map (f := (·.origin)), hwhether, Option.isSome_some]
    exact halike.isSome_toOption.symm.trans hsome
  · have halike := (hnode provided [] 0 (.start ("provided ".toList ++ whetherGreater) [])
      (.start ("provided ".toList ++ whetherGreater) []) ⟨rfl, ⟨rfl, rfl, rfl⟩, .nil⟩
      (Standard.book {}).fresh compared trivial).1
    exact (halike.map_toOption fun _ _ h => h.1).symm.trans hprovided

end Book

end Phrasebook
