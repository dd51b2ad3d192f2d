import Phrasebook.Proofs.Resolution.Nesting
import Phrasebook.Proofs.Standard.Arithmetic

/-!
What the check for texts under way cuts off. Attempts are started by phrases that are tried on a text, or
by the run itself, and texts get no wider on the way in. So a text is under way just if the attempt right
around it is on that very text: it is the whole of the text on which phrases are being tried, or the
whole of the effect or of the text that a pattern is matched against. The check does not ask what is
expected, nor whether phrases have been tried at all. That is why a bare slot never takes a sum that the
book understands.
-/

namespace Phrasebook

namespace Activation

variable {q : Activation}

theorem underWay_iff_exists :
    q.underWay = true ↔ ∃ f ∈ q.enclosing, Text.trim f.source = Text.trim q.text := by
  simp [underWay, isUnderWay]

/-- The attempts around the activation are on texts that are no narrower. -/
def Contained (q : Activation) : Prop := ∀ f ∈ q.enclosing, q.width ≤ (Text.trim f.source).width

end Activation

open Activation

variable {source text : Text} {enclosing chain : List Frame}

theorem Matching.AskedWithin.contained (h : Matching.AskedWithin source enclosing text chain)
    (henclosing : ∀ f ∈ enclosing, (Text.trim source).width ≤ (Text.trim f.source).width)
    (type : SlotType) (accepts : Acceptance) : Contained ⟨text, type, accepts, chain⟩ := by
  have hwidth : (Text.trim text).width ≤ (Text.trim source).width :=
    Text.width_le_of_infix (Text.trim_isInfix_trim h.inside)
  intro f hf
  rcases h.framed f hf with hsource | hf
  · rw [hsource]
    exact hwidth
  · exact hwidth.trans (henclosing f hf)

namespace Book

section

variable [RegexEngine] {b : Book} {α : Type} {run : Resolver → Search α} {q q' : Activation}
  {qs : List Activation}

/-! ## One step -/

/-- A step asks for narrower texts inside the same attempts, or for what stands in a slot. -/
theorem AskedBy.narrower_or_slot (h : b.AskedBy q q') :
    (q'.width < q.width ∧ q'.enclosing = q.enclosing) ∨
      (b.Scans q ∧ Matching.AskedWithin (Text.trim q.text) q.enclosing q'.text q'.enclosing) := by
  cases h with
  | inside h => exact Or.inl ⟨(Text.trim_width_le _).trans_lt (Text.unwrap?_width h), rfl⟩
  | part h hpart => exact Or.inl ⟨Text.splitList?_width h hpart, rfl⟩
  | slot scans asked => exact Or.inr ⟨scans, asked⟩

theorem AskedBy.contained (h : b.AskedBy q q') (hq : q.Contained) : q'.Contained := by
  rcases h.narrower_or_slot with ⟨hlt, henclosing⟩ | ⟨-, asked⟩
  · intro f hf
    rw [henclosing] at hf
    exact hlt.le.trans (hq f hf)
  · apply asked.contained
    intro f hf
    rw [Text.trim_trim]
    exact hq f hf

/-- What a step asks for is under way just if it is the text on which the step tries phrases. -/
theorem AskedBy.underWay_iff_scanned (h : b.AskedBy q q') (hq : q.Contained) :
    q'.underWay = true ↔ b.Scans q ∧ Text.trim q'.text = Text.trim q.text := by
  rw [underWay_iff_exists]
  constructor
  · rintro ⟨f, hf, hsource⟩
    have hwidth : (Text.trim f.source).width = q'.width := congrArg Text.width hsource
    rcases h.narrower_or_slot with ⟨hlt, henclosing⟩ | ⟨scans, asked⟩
    · rw [henclosing] at hf
      have hle := hq f hf
      omega
    · refine ⟨scans, ?_⟩
      rcases asked.framed f hf with hf | hf
      · rw [← hsource, hf, Text.trim_trim]
      · -- the attempt is around the step already, so the text in the slot is no narrower than the step's
        have hinside := Text.trim_isInfix_trim asked.inside
        rw [Text.trim_trim] at hinside
        apply Text.eq_of_infix_of_width_le hinside
        exact (hq f hf).trans hwidth.le
  · rintro ⟨-, htext⟩
    rcases h.narrower_or_slot with ⟨hlt, -⟩ | ⟨-, asked⟩
    · have hwidth : q'.width = q.width := congrArg Text.width htext
      omega
    · obtain ⟨f, hf, hsource⟩ := asked.enclosed
      exact ⟨f, hf, by rw [hsource, Text.trim_trim, htext]⟩

/-! ## Whole runs -/

/-- The activation is on the whole text on which the one right around it tries phrases. -/
def RightInside (b : Book) (q : Activation) (qs : List Activation) : Prop :=
  ∃ p ∈ qs.head?, b.Scans p ∧ Text.trim q.text = Text.trim p.text

theorem Open.contained (hrun : ∀ q, Asks run q → Contained q) (h : Open b run (q :: qs)) :
    q.Contained := by
  generalize hstack : q :: qs = stack at h
  induction h generalizing q qs with
  | outermost hq =>
    cases hstack
    exact hrun _ hq
  | inner _ hq ih =>
    cases hstack
    exact hq.askedBy.contained (ih rfl)

theorem Open.underWay_iff_inside {p : Activation} (hrun : ∀ q, Asks run q → q.Contained)
    (h : Open b run (q :: p :: qs)) : q.underWay = true ↔ b.RightInside q (p :: qs) := by
  cases h with
  | inner h hq =>
    rw [hq.askedBy.underWay_iff_scanned (h.contained hrun)]
    simp [RightInside]

/-- In a run that asks only for what stands in the slots of patterns on a source, the source itself is
under way as well. -/
theorem Open.underWay_iff_outermost
    (hrun : ∀ q, Asks run q → Matching.AskedWithin source [] q.text q.enclosing)
    (h : Open b run (q :: qs)) : q.underWay = true ↔
      (qs = [] ∧ Text.trim q.text = Text.trim source) ∨ b.RightInside q qs := by
  have hcontained : ∀ q, Asks run q → q.Contained :=
    fun q hq => (hrun q hq).contained (by simp) q.expected q.accepts
  cases qs with
  | cons p qs => simpa using h.underWay_iff_inside hcontained
  | nil =>
    cases h with
    | outermost hq =>
      have hasked := hrun q hq
      have hsource : ∀ f ∈ q.enclosing, f.source = source := by simpa using hasked.framed
      rw [underWay_iff_exists]
      constructor
      · rintro ⟨f, hf, htext⟩
        rw [hsource f hf] at htext
        exact Or.inl ⟨rfl, htext.symm⟩
      · rintro (⟨-, htext⟩ | ⟨p, hp, -⟩)
        · obtain ⟨f, hf, hf'⟩ := hasked.enclosed
          exact ⟨f, hf, by rw [hf', htext]⟩
        · cases hp

theorem Asks.resolveBy {expected : SlotType} (h : Asks (b.resolveBy · text expected) q) :
    q = ⟨text, expected, .both, []⟩ :=
  h.of_congr (P := (· = ⟨text, expected, .both, []⟩)) fun _ _ hr => resolveBy_congr (hr _ rfl)

theorem Asks.parseEffectBy (h : Asks (b.parseEffectBy · text) q) :
    Matching.AskedWithin (Text.trim text) [] q.text q.enclosing :=
  h.of_congr (P := fun q => Matching.AskedWithin (Text.trim text) [] q.text q.enclosing)
    fun _ _ hr => parseEffectBy_congr fun text' type accepts chain hasked =>
      hr ⟨text', type, accepts, chain⟩ hasked

theorem Asks.matchBy {pattern : Pattern} {i : Nat} (h : Asks (matchBy · pattern text i) q) :
    Matching.AskedWithin text [] q.text q.enclosing :=
  h.of_congr (P := fun q => Matching.AskedWithin text [] q.text q.enclosing)
    fun _ _ hr => matchBy_congr (fun text' type accepts chain hasked =>
      hr ⟨text', type, accepts, chain⟩ hasked) pattern i

/-- In every run, a text is under way just if it is all of the text on which phrases are tried right
around it, or if it is the outermost and all of the effect, or of the text that the pattern is matched
against. -/
theorem underWay_iff_rightInside (b : Book) (text : Text) (q : Activation) (qs : List Activation) :
    (∀ expected, Open b (b.resolveBy · text expected) (q :: qs) →
      (q.underWay = true ↔ b.RightInside q qs)) ∧
    (Open b (b.parseEffectBy · text) (q :: qs) →
      (q.underWay = true ↔
        (qs = [] ∧ Text.trim q.text = Text.trim text) ∨ b.RightInside q qs)) ∧
    ∀ pattern i, Open b (Book.matchBy · pattern text i) (q :: qs) →
      (q.underWay = true ↔
        (qs = [] ∧ Text.trim q.text = Text.trim text) ∨ b.RightInside q qs) := by
  refine ⟨fun expected h => ?_, fun h => ?_, fun pattern i h => h.underWay_iff_outermost fun _ => Asks.matchBy⟩
  · have hrun : ∀ q, Asks (b.resolveBy · text expected) q → q.enclosing = [] :=
      fun q hq => by rw [Asks.resolveBy hq]
    have hcontained : ∀ q, Asks (b.resolveBy · text expected) q → q.Contained := by
      intro q hq f hf
      rw [hrun q hq] at hf
      cases hf
    cases qs with
    | cons p qs => exact h.underWay_iff_inside hcontained
    | nil =>
      cases h with
      | outermost hq => simp [underWay_iff_exists, hrun q hq, RightInside]
  · have := h.underWay_iff_outermost fun _ => Asks.parseEffectBy
    rwa [Text.trim_trim] at this

end

end Book

/-! ## Slots that stand alone -/

namespace Standard

open Book Search

section

variable [RegexEngine]

def bareSlot : Pattern := .slot [number] .both false

/-- What a bare slot asks for on a chain. -/
def bareActivation (c : Chain) : Activation := ⟨c.text, number, .both, [⟨c.text, .none⟩]⟩

/-- A bare slot takes the whole of a chain or nothing. -/
theorem slotEnd_bare (r : Resolver) (c : Chain) :
    Matching.slotEnd r [number] .both [] (Attempt.start c.text []) 0 =
      (do
        let e ← r.answer (bareActivation c)
        pure (c.text.width, e)) := by
  have hstart : (Attempt.start c.text []).source.skipBlank 0 = 0 := skipBlank_left c
  have hsource : (Attempt.start c.text []).source = c.text := rfl
  have hchain : (Attempt.start c.text []).chain = [⟨c.text, .none⟩] := rfl
  have htail : Tail.boundaries [] = [.textEnd] := rfl
  have hwhole : c.text.between? 0 c.text.width = some c.text :=
    Text.between?_eq_some_iff.2 ⟨[], [], by simp, rfl, Nat.zero_add _⟩
  have hafter : c.text.after? 0 = some c.text := Text.after?_eq_some_iff.2 ⟨[], rfl, rfl⟩
  have hopen : c.text.head? ≠ some '(' := by
    obtain ⟨d, t, hc, hd⟩ := c.exists_first
    rw [hc]
    rintro ⟨⟩
    exact absurd hd (by decide)
  have hresolve : Matching.resolveSlot r [number] .both [⟨c.text, .none⟩] c.text =
      r.answer (bareActivation c) := by
    unfold Matching.resolveSlot
    dsimp only
    rw [c.trim_self, if_neg c.text_ne_nil]
    exact orElse_failure _
  unfold Matching.slotEnd
  dsimp only
  rw [hstart, htail, first, first, orElse_failure, Boundary.place?, ofOption_some_bind, hsource,
    hchain, hwhole, hafter, cut_some_bind, cut_some_bind, if_neg hopen, orElse_failure, hresolve]

theorem matchBy_bareSlot (r : Resolver) (c : Chain) : matchBy r bareSlot c.text 0 =
    (do
      let (stop, e) ← (do
        let e ← r.answer (bareActivation c)
        pure (c.text.width, e))
      pure (stop, (Attempt.start c.text []).addExpression e)) := by
  rw [matchBy, bareSlot, Matching.node, slotEnd_bare]

/-- The activation of a bare slot is the first that its match opens. -/
theorem open_bareSlot (b : Book) (c : Chain) :
    Open b (matchBy · bareSlot c.text 0) [bareActivation c] := by
  apply Open.outermost
  apply Asks.of_answering
  intro h
  rw [matchBy_bareSlot, matchBy_bareSlot, answering_self, answering_self] at h
  have hout := congrArg (fun x => (x b.fresh).1) h
  cases hout

/-- A chain of two or more numerals is under way in a bare slot, and so no phrase is tried on it. -/
theorem bareSlot_misses {settings : Settings} {c l r : Chain} {op : Operator}
    (hcut : c.cut? = some (op, l, r)) : Misses ((book settings).matchPattern bareSlot c.text) := by
  have hway : isUnderWay c.text [⟨c.text, .none⟩] = true := by simp [isUnderWay, c.trim_self]
  have hstep (resolve : Resolver) :
      Misses (Resolver.answer ((book settings).step resolve) (bareActivation c)) := by
    change Misses ((book settings).step resolve c.text number .both [⟨c.text, .none⟩])
    rw [step_chain, if_pos hway]
    exact .orElse (.ofOption (literal?_of_cut hcut)) (.orElse .failure .failure)
  change Misses (matchBy ((book settings).resolver (nestingBound c.text)) bareSlot c.text 0)
  rw [matchBy_bareSlot]
  exact ((hstep _).bind _).bind _

end

def onePlusTwo : Chain := .link (.digit '1' rfl) .add (.numeral (.digit '2' rfl))

/-- The outermost text in a bare slot is under way, the innermost of three in parentheses is not. -/
theorem underWay_iff_rightInside_onePlusTwo :
    (bareActivation onePlusTwo).underWay = true ∧
      Activation.underWay ⟨"1".toList, number, .both, []⟩ = false := by
  obtain ⟨-, -, hmatch⟩ := underWay_iff_rightInside (book {}) onePlusTwo.text (bareActivation onePlusTwo) []
  obtain ⟨hresolve, -⟩ := underWay_iff_rightInside (book {}) "((1))".toList
    ⟨"1".toList, number, .both, []⟩ [⟨"(1)".toList, number, .both, []⟩,
      ⟨"((1))".toList, number, .both, []⟩]
  constructor
  · exact (hmatch bareSlot 0 (open_bareSlot (book {}) onePlusTwo)).2 (Or.inl ⟨rfl, rfl⟩)
  · apply Bool.eq_false_iff.2
    intro h
    obtain ⟨p, hp, -, htext⟩ := (hresolve number (open_twiceParenthesized (book {}) number)).1 h
    cases hp
    revert htext
    decide

/-- Not every text under way is one on which phrases are being tried already: in a bare slot, "1 + 2" is
under way in the outermost activation. The slot does not take it, though in every session the book
understands it as three. -/
theorem not_repeated_onePlusTwo :
    ¬ (∀ q qs, Open (book {}) (matchBy · bareSlot onePlusTwo.text 0) (q :: qs) → q.underWay = true →
        ∃ p ∈ qs, (book {}).Scans p ∧ Text.trim p.text = Text.trim q.text ∧
          p.expected = q.expected ∧ p.accepts = q.accepts) ∧
      Misses ((book {}).matchPattern bareSlot onePlusTwo.text) ∧
      Yields (ComesTo 3) ((book {}).resolve onePlusTwo.text number) := by
  refine ⟨fun h => ?_, ?_, ?_⟩
  · obtain ⟨p, hp, -⟩ := h (bareActivation onePlusTwo) [] (open_bareSlot (book {}) onePlusTwo) (by decide)
    cases hp
  · exact bareSlot_misses (show onePlusTwo.cut? = some (.add, _, _) from rfl)
  · have hreckon : onePlusTwo.reckon = some 3 := by decide +kernel
    have hdepth : onePlusTwo.operators.length < nestingBound onePlusTwo.text := by decide
    have hfound : Yields (ComesTo 3) ((book {}).resolverFrom (fun _ _ _ _ => failure)
        (nestingBound onePlusTwo.text) onePlusTwo.text number .both []) :=
      resolver_chain hreckon _ hdepth [] (by simp)
    rw [← (resolve_wellNested onePlusTwo.text number).settled (fun _ _ _ _ => failure) _ le_rfl]
    exact hfound.orElse_left _

end Standard

end Phrasebook
