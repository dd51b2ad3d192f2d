import Phrasebook.Matching.Greedy
import Phrasebook.Proofs.Matching.Boundary
import Phrasebook.Proofs.Search
import Phrasebook.Proofs.Text.Case
import Phrasebook.Proofs.Text.Parentheses

/-!
What greedy matching owes to the resolver of the texts in slots. Two runs whose resolvers are in step
on the texts they may be asked for are in step themselves: they end at the same place, with the same
marks and captures, and with expressions that are related as those of the resolvers are. And a
resolver that never faults makes a match that never faults, because all cuts are made at places.
-/

namespace Phrasebook

/-- Findings that differ in the expressions only, and there in a related way. -/
structure Findings.Alike (E : Expression → Expression → Prop) (f g : Findings) : Prop where
  expressions : List.Forall₂ E f.expressions g.expressions
  captures : f.captures = g.captures
  mark : f.mark = g.mark

/-- Frames on the same source with findings alike. -/
structure Frame.Alike (E : Expression → Expression → Prop) (f g : Frame) : Prop where
  source : f.source = g.source
  findings : f.findings.Alike E g.findings

/-- Attempts with frames alike, inside attempts whose frames `K` relates. -/
structure Attempt.Alike (E : Expression → Expression → Prop) (K : Frame → Frame → Prop)
    (a b : Attempt) : Prop where
  frame : a.frame.Alike E b.frame
  enclosing : List.Forall₂ K a.enclosing b.enclosing

section

variable {E : Expression → Expression → Prop} {K : Frame → Frame → Prop}

theorem Findings.Alike.none : Findings.Alike E .none .none := ⟨.nil, rfl, rfl⟩

theorem Findings.Alike.append {f f' g g' : Findings} (hf : f.Alike E f') (hg : g.Alike E g') :
    (f.append g).Alike E (f'.append g') where
  expressions := List.rel_append hf.expressions hg.expressions
  captures := by simp only [Findings.append, hf.captures, hg.captures]
  mark := by simp only [Findings.append, hf.mark, hg.mark]

theorem Attempt.Alike.start (source : Text) {chain chain' : List Frame}
    (h : List.Forall₂ K chain chain') :
    (Attempt.start source chain).Alike E K (.start source chain') := ⟨⟨rfl, .none⟩, h⟩

variable {a b : Attempt}

theorem Attempt.Alike.source (h : a.Alike E K b) : a.source = b.source := h.frame.source

theorem Attempt.Alike.merge {f g : Findings} (h : a.Alike E K b) (hf : f.Alike E g) :
    (a.merge f).Alike E K (b.merge g) :=
  ⟨⟨h.frame.source, h.frame.findings.append hf⟩, h.enclosing⟩

/-- `K` relates the frames alike of the attempts on a source. -/
def RelatesFrames (E : Expression → Expression → Prop) (K : Frame → Frame → Prop) (source : Text) :
    Prop :=
  ∀ f g : Frame, f.source = source → f.Alike E g → K f g

theorem Attempt.Alike.chain (hK : RelatesFrames E K a.source) (h : a.Alike E K b) :
    List.Forall₂ K a.chain b.chain := .cons (hK _ _ rfl h.frame) h.enclosing

theorem Attempt.Alike.branch (hK : RelatesFrames E K a.source) (h : a.Alike E K b) :
    a.branch.Alike E K b.branch := by
  unfold Attempt.branch
  rw [h.source]
  exact .start b.source (h.chain hK)

end

/-- The resolver never ends in a fault. -/
def Resolver.Faultless (r : Resolver) : Prop :=
  ∀ text type accepts chain, Search.Faultless (r text type accepts chain)

namespace Matching

/-- What a match on a source may ask the resolver for: a trimmed text that stands in the source, inside
an attempt on the source. -/
structure Asked (source text : Text) (chain : List Frame) : Prop where
  inside : text <:+: source
  trimmed : text.trim = text
  nonempty : text ≠ []
  enclosed : ∃ f ∈ chain, f.source = source

/-- Two resolvers in step on what a match on a source may ask for, inside related attempts. -/
def ResolversInStep (I : Session → Session → Prop) (E : Expression → Expression → Prop)
    (K : Frame → Frame → Prop) (source : Text) (r r' : Resolver) : Prop :=
  ∀ text type accepts chain chain', Asked source text chain → List.Forall₂ K chain chain' →
    Search.InStep I E (r text type accepts chain) (r' text type accepts chain')

section

variable {I : Session → Session → Prop} {E : Expression → Expression → Prop}
  {K : Frame → Frame → Prop} {source : Text} {r r' : Resolver}

open Search

theorem resolveSlot_inStep (hr : ResolversInStep I E K source r r') (types : List SlotType)
    (accepts : Acceptance) {chain chain' : List Frame} {candidate : Text}
    (hc : candidate <:+: source) (hsource : ∃ f ∈ chain, f.source = source)
    (hchain : List.Forall₂ K chain chain') :
    InStep I E (resolveSlot r types accepts chain candidate)
      (resolveSlot r' types accepts chain' candidate) := by
  unfold resolveSlot
  dsimp only
  split
  · exact .failure
  · rename_i hne
    refine .first fun type _ => hr _ type accepts chain chain' ?_ hchain
    exact ⟨(Text.trim_isInfix candidate).trans hc, Text.trim_trim candidate, hne, hsource⟩

theorem literalEnd_inStep (t source : Text) (i : Nat) :
    InStep I Eq (literalEnd t source i) (literalEnd t source i) := by
  unfold literalEnd
  dsimp only
  split
  · exact .pure rfl
  · refine .bind (.ofOption _) ?_
    rintro stop _ ⟨rfl, -⟩
    refine .bind (.cut _) ?_
    rintro rest _ ⟨rfl, -⟩
    exact .pure rfl

/-- Matches that end at the same place, with attempts alike on the source. -/
def EndsAlike (E : Expression → Expression → Prop) (K : Frame → Frame → Prop) (source : Text)
    (x y : Nat × Attempt) : Prop :=
  x.1 = y.1 ∧ x.2.source = source ∧ x.2.Alike E K y.2

/-- What a branch has found, merged into the attempts around it. -/
theorem EndsAlike.merge {a b c d : Attempt} {j k : Nat} (ha : a.source = source)
    (hab : a.Alike E K b) (h : EndsAlike E K source (j, c) (k, d)) :
    EndsAlike E K source (j, a.merge c.findings) (k, b.merge d.findings) :=
  ⟨h.1, ha, hab.merge h.2.2.frame.findings⟩

variable [RegexEngine]

theorem slotEnd_inStep (hK : RelatesFrames E K source)
    (hr : ResolversInStep I E K source r r') (types : List SlotType) (accepts : Acceptance)
    (tail : Tail) (i : Nat) {a b : Attempt} (ha : a.source = source) (hab : a.Alike E K b) :
    InStep I (fun x y => x.1 = y.1 ∧ E x.2 y.2) (slotEnd r types accepts tail a i)
      (slotEnd r' types accepts tail b i) := by
  have hb : b.source = source := hab.source.symm.trans ha
  have hchain : List.Forall₂ K a.chain b.chain := hab.chain (ha ▸ hK)
  have hframe : ∃ f ∈ a.chain, f.source = source := ⟨a.frame, List.mem_cons_self, ha⟩
  unfold slotEnd
  dsimp only
  rw [ha, hb]
  refine .orElse (.first fun bound _ => ?_) ?_
  · refine .bind (.ofOption _) ?_
    rintro stop _ ⟨rfl, -⟩
    refine .bind (.cut _) ?_
    rintro candidate _ ⟨rfl, hcut⟩
    have hslot := resolveSlot_inStep hr types accepts (Text.infix_of_between? hcut) hframe
      hchain
    exact hslot.bind fun e e' he => .pure ⟨rfl, he⟩
  · refine .bind (.cut _) ?_
    rintro rest _ ⟨rfl, -⟩
    split
    · refine .bind (.ofOption _) ?_
      rintro close _ ⟨rfl, -⟩
      refine .bind (.cut _) ?_
      rintro inside _ ⟨rfl, hcut⟩
      have hslot := resolveSlot_inStep hr types accepts (Text.infix_of_between? hcut) hframe
        hchain
      exact hslot.bind fun e e' he => .pure ⟨rfl, he⟩
    · exact .failure

theorem regexEnd_inStep (g : RegexPart) (tail : Tail) (source : Text) (i : Nat) :
    InStep I Eq (regexEnd g tail source i) (regexEnd g tail source i) := by
  unfold regexEnd
  dsimp only
  refine .orElse (.first fun bound _ => ?_) ?_
  · refine .bind (.ofOption _) ?_
    rintro stop _ ⟨rfl, -⟩
    refine .bind (.cut _) ?_
    rintro region _ ⟨rfl, -⟩
    refine .bind (.ofOption _) ?_
    rintro m _ ⟨rfl, -⟩
    exact .pure rfl
  · refine .bind (.ofOption _) ?_
    rintro m _ ⟨rfl, -⟩
    split
    · exact .pure rfl
    · exact .failure

mutual

theorem node_inStep (hK : RelatesFrames E K source)
    (hr : ResolversInStep I E K source r r') : ∀ (p : Pattern) (tail : Tail) (i : Nat)
    (a b : Attempt), a.source = source → a.Alike E K b →
      InStep I (EndsAlike E K source) (node r p tail i a) (node r' p tail i b)
  | .literal t, tail, i, a, b, ha, hab => by
    have hb : b.source = source := hab.source.symm.trans ha
    rw [node, node, ha, hb]
    refine (literalEnd_inStep t source i).bind ?_
    rintro j _ rfl
    exact .pure ⟨rfl, ha, hab⟩
  | .sequence ps, tail, i, a, b, ha, hab => parts_inStep hK hr ps tail i a b ha hab
  | .optional p, tail, i, a, b, ha, hab => by
    refine .orElse ((node_inStep hK hr p tail i a.branch b.branch ha (hab.branch (ha ▸ hK))).bind ?_)
      (.pure ⟨rfl, ha, hab⟩)
    exact fun x y hxy => .pure (hxy.merge ha hab)
  | .choice bs, tail, i, a, b, ha, hab => branches_inStep hK hr bs tail i a b ha hab
  | .regex g, tail, i, a, b, ha, hab => by
    have hb : b.source = source := hab.source.symm.trans ha
    rw [node, node, ha, hb]
    refine (regexEnd_inStep g tail source i).bind ?_
    rintro ⟨j, c⟩ _ rfl
    exact .pure ⟨rfl, ha, hab.merge ⟨.nil, rfl, rfl⟩⟩
  | .slot types accepts nullable, tail, i, a, b, ha, hab => by
    refine (slotEnd_inStep hK hr types accepts tail i ha hab).bind ?_
    rintro ⟨j, e⟩ ⟨k, e'⟩ ⟨rfl, he⟩
    exact .pure ⟨rfl, ha, hab.merge ⟨.cons he .nil, rfl, rfl⟩⟩

theorem parts_inStep (hK : RelatesFrames E K source)
    (hr : ResolversInStep I E K source r r') : ∀ (ps : List Pattern) (tail : Tail) (i : Nat)
    (a b : Attempt), a.source = source → a.Alike E K b →
      InStep I (EndsAlike E K source) (parts r ps tail i a) (parts r' ps tail i b)
  | [], tail, i, a, b, ha, hab => .pure ⟨rfl, ha, hab⟩
  | p :: ps, tail, i, a, b, ha, hab => by
    refine (node_inStep hK hr p (ps :: tail) i a b ha hab).bind ?_
    rintro ⟨j, c⟩ ⟨k, d⟩ ⟨rfl, hc, hcd⟩
    exact parts_inStep hK hr ps tail j c d hc hcd

theorem branches_inStep (hK : RelatesFrames E K source)
    (hr : ResolversInStep I E K source r r') : ∀ (bs : List (Int32 × Pattern)) (tail : Tail)
    (i : Nat) (a b : Attempt), a.source = source → a.Alike E K b →
      InStep I (EndsAlike E K source) (branches r bs tail i a) (branches r' bs tail i b)
  | [], tail, i, a, b, ha, hab => .failure
  | (mark, p) :: bs, tail, i, a, b, ha, hab => by
    refine .orElse ((node_inStep hK hr p tail i a.branch b.branch ha (hab.branch (ha ▸ hK))).bind ?_)
      (branches_inStep hK hr bs tail i a b ha hab)
    intro x y hxy
    obtain ⟨hend, hsource, halike⟩ := hxy.merge ha hab
    exact .pure ⟨hend, hsource, halike.merge ⟨.nil, rfl, rfl⟩⟩

end

end

/-! ## The same resolver -/

theorem alike_eq_findings {f g : Findings} (h : f.Alike Eq g) : f = g := by
  obtain ⟨es, cs, m⟩ := f
  obtain ⟨es', cs', m'⟩ := g
  obtain ⟨hes, hcs, hm⟩ := h
  rw [List.forall₂_eq_eq_eq] at hes
  cases hes
  cases hcs
  cases hm
  rfl

theorem alike_eq_frame (f g : Frame) (h : f.Alike Eq g) : f = g := by
  obtain ⟨source, findings⟩ := f
  obtain ⟨hsource, hfindings⟩ := h
  cases hsource
  cases alike_eq_findings hfindings
  rfl

/-- One and the same frame, on the source or around the match. -/
def SameFrame (source : Text) (enclosing : List Frame) (f g : Frame) : Prop :=
  (f.source = source ∨ f ∈ enclosing) ∧ f = g

theorem forall₂_sameFrame_iff {source : Text} {enclosing fs gs : List Frame} :
    List.Forall₂ (SameFrame source enclosing) fs gs ↔
      (∀ f ∈ fs, f.source = source ∨ f ∈ enclosing) ∧ fs = gs := by
  unfold SameFrame
  rw [List.forall₂_and_left, List.forall₂_eq_eq_eq]

/-- What a match inside some attempts may ask the resolver for, inside these and attempts on its source. -/
structure AskedWithin (source : Text) (enclosing : List Frame) (text : Text) (chain : List Frame) : Prop
    extends Asked source text chain where
  framed : ∀ f ∈ chain, f.source = source ∨ f ∈ enclosing

/-- The resolvers answer alike all that a match inside some attempts may ask for. -/
def AgreeWithin (source : Text) (enclosing : List Frame) (r r' : Resolver) : Prop :=
  ∀ text type accepts chain, AskedWithin source enclosing text chain →
    r text type accepts chain = r' text type accepts chain

/-- Resolvers that answer alike what a match may ask for make the same match. -/
theorem node_congr [RegexEngine] {r r' : Resolver} {a : Attempt} (h : AgreeWithin a.source a.enclosing r r')
    (p : Pattern) (tail : Tail) (i : Nat) : node r p tail i a = node r' p tail i a := by
  have hK : RelatesFrames Eq (SameFrame a.source a.enclosing) a.source :=
    fun f g hf hfg => ⟨Or.inl hf, alike_eq_frame f g hfg⟩
  have hr : ResolversInStep Eq Eq (SameFrame a.source a.enclosing) a.source r r' := by
    intro text type accepts chain chain' hasked hchain
    obtain ⟨hframed, rfl⟩ := forall₂_sameFrame_iff.1 hchain
    exact .of_eq (h text type accepts chain ⟨hasked, hframed⟩)
  have ha : a.Alike Eq (SameFrame a.source a.enclosing) a := by
    refine ⟨⟨rfl, ?_, rfl, rfl⟩, forall₂_sameFrame_iff.2 ⟨fun f hf => Or.inr hf, rfl⟩⟩
    rw [List.forall₂_eq_eq_eq]
  refine Search.InStep.eq ((node_inStep hK hr p tail i a a rfl ha).mono ?_)
  rintro ⟨j, ⟨f, fs⟩⟩ ⟨k, ⟨g, gs⟩⟩ ⟨rfl, -, hframe, henclosing⟩
  cases alike_eq_frame f g hframe
  cases (forall₂_sameFrame_iff.1 henclosing).2
  rfl

/-! ## Freedom from faults -/

open Search

theorem literalEnd_faultless (t source : Text) (i : Nat) : Faultless (literalEnd t source i) := by
  unfold literalEnd
  dsimp only
  split
  · exact .pure _
  · refine .bind (.ofOption _) fun stop hstop => ?_
    obtain ⟨u, hs, -⟩ := Text.occursAt?_between hstop.ofOption
    obtain ⟨rest, hrest⟩ := Text.isPlace_iff.1 (Text.isPlace_right hs)
    exact .bind (.cut hrest) fun _ _ => .pure _

theorem regexEnd_faultless [RegexEngine] [RegexEngine.Lawful] (g : RegexPart) (tail : Tail)
    (source : Text) (i : Nat) : Faultless (regexEnd g tail source i) := by
  have hstart := Text.skipBlank_isPlace source i
  unfold regexEnd
  dsimp only
  refine .orElse (.first fun bound _ => ?_) ?_
  · refine .bind (.ofOption _) fun stop hstop => ?_
    obtain ⟨u, hu⟩ := Boundary.place?_between hstart hstop.ofOption
    refine .bind (.cut hu) fun region _ => ?_
    exact .bind (.ofOption _) fun m _ => .pure _
  · refine .bind (.ofOption _) fun m _ => ?_
    split
    · exact .pure _
    · exact .failure

section

variable {r : Resolver}

theorem resolveSlot_faultless (hr : r.Faultless) (types : List SlotType) (accepts : Acceptance)
    (chain : List Frame) (candidate : Text) :
    Faultless (resolveSlot r types accepts chain candidate) := by
  unfold resolveSlot
  dsimp only
  split
  · exact .failure
  · exact .first fun type _ => hr _ type accepts chain

theorem slotEnd_faultless [RegexEngine] [RegexEngine.Lawful] (hr : r.Faultless) (types : List SlotType)
    (accepts : Acceptance) (tail : Tail) (a : Attempt) (i : Nat) :
    Faultless (slotEnd r types accepts tail a i) := by
  have hstart := Text.skipBlank_isPlace a.source i
  unfold slotEnd
  dsimp only
  refine .orElse (.first fun bound _ => ?_) ?_
  · refine .bind (.ofOption _) fun stop hstop => ?_
    obtain ⟨u, hu⟩ := Boundary.place?_between hstart hstop.ofOption
    refine .bind (.cut hu) fun candidate _ => ?_
    exact .bind (resolveSlot_faultless hr types accepts _ _) fun e _ => .pure _
  · obtain ⟨rest, hrest⟩ := Text.isPlace_iff.1 hstart
    refine .bind (.cut hrest) fun rest' hrest' => ?_
    obtain rfl : rest = rest' := Option.some.inj (hrest.symm.trans hrest'.cut)
    split
    · rename_i hopen
      refine .bind (.ofOption _) fun close hclose => ?_
      obtain ⟨inside, hinside, -⟩ := Text.closing?_eq_some hrest hopen hclose.ofOption
      refine .bind (.cut hinside) fun inside _ => ?_
      exact .bind (resolveSlot_faultless hr types accepts _ _) fun e _ => .pure _
    · exact .failure

mutual

theorem node_faultless [RegexEngine] [RegexEngine.Lawful] (hr : r.Faultless) :
    ∀ (p : Pattern) (tail : Tail) (i : Nat) (a : Attempt), Faultless (node r p tail i a)
  | .literal t, _, i, a => .bind (literalEnd_faultless t a.source i) fun _ _ => .pure _
  | .sequence ps, tail, i, a => parts_faultless hr ps tail i a
  | .optional p, tail, i, a =>
    .orElse (.bind (node_faultless hr p tail i a.branch) fun _ _ => .pure _) (.pure _)
  | .choice bs, tail, i, a => branches_faultless hr bs tail i a
  | .regex g, tail, i, a => .bind (regexEnd_faultless g tail a.source i) fun _ _ => .pure _
  | .slot types accepts _, tail, i, a =>
    .bind (slotEnd_faultless hr types accepts tail a i) fun _ _ => .pure _

theorem parts_faultless [RegexEngine] [RegexEngine.Lawful] (hr : r.Faultless) :
    ∀ (ps : List Pattern) (tail : Tail) (i : Nat) (a : Attempt), Faultless (parts r ps tail i a)
  | [], _, _, _ => .pure _
  | p :: ps, tail, i, a =>
    .bind (node_faultless hr p (ps :: tail) i a) fun (j, b) _ => parts_faultless hr ps tail j b

theorem branches_faultless [RegexEngine] [RegexEngine.Lawful] (hr : r.Faultless) :
    ∀ (bs : List (Int32 × Pattern)) (tail : Tail) (i : Nat) (a : Attempt),
      Faultless (branches r bs tail i a)
  | [], _, _, _ => .failure
  | (_, p) :: bs, tail, i, a =>
    .orElse (.bind (node_faultless hr p tail i a.branch) fun _ _ => .pure _)
      (branches_faultless hr bs tail i a)

end

end

end Matching

end Phrasebook
