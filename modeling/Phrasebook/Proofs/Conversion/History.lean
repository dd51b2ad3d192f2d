import Mathlib.Data.List.Basic
import Phrasebook.Conversion.Graph
import Phrasebook.Proofs.Class

/-!
What happens to a conversion graph. It starts empty, conversions are registered in it, and now and then
all chains are added. Adding chains is a run of small steps, each of which appends the chain of two
conversions that are there already (`Grown`); whatever every step keeps, the whole run keeps. What
is registered comes last as well. At no time are two conversions of a graph related at both ends.
-/

namespace Phrasebook

/-- The second conversion may come after the first in a chain. -/
structure Conversion.MayChain (classes : ClassTree) (f h : Conversion) : Prop where
  first : f.limits.notFirst = false
  second : h.limits.notSecond = false
  meets : classes.isAssignable f.target h.source = true

namespace ConversionGraph

variable {g g' g'' : ConversionGraph} {e f h : Conversion} {a b : ClassId}

theorem related_self (g : ConversionGraph) (a : ClassId) : g.related a a = true := by
  rw [related, g.classes.isAssignable_refl, Bool.true_or]

theorem related_comm (g : ConversionGraph) (a b : ClassId) : g.related a b = g.related b a :=
  Bool.or_comm _ _

theorem covers_iff :
    g.covers a b = true ↔ ∃ e ∈ g.edges, g.related e.source a = true ∧ g.related e.target b = true := by
  unfold covers
  simp only [List.any_eq_true, Bool.and_eq_true]

theorem covers_of_mem (h : e ∈ g.edges) : g.covers e.source e.target = true :=
  covers_iff.2 ⟨e, h, g.related_self _, g.related_self _⟩

theorem chain?_eq_some_iff :
    g.chain? f h = some e ↔
      f.MayChain g.classes h ∧ g.covers f.source h.target = false ∧ e = f.andThen h := by
  unfold chain?
  constructor
  · intro he
    split at he
    · rename_i hall
      cases he
      simp only [Bool.and_eq_true, Bool.not_eq_true'] at hall
      obtain ⟨⟨⟨hfirst, hsecond⟩, hmeets⟩, huncovered⟩ := hall
      exact ⟨⟨hfirst, hsecond, hmeets⟩, huncovered, rfl⟩
    · cases he
  · rintro ⟨⟨hfirst, hsecond, hmeets⟩, huncovered, rfl⟩
    rw [if_pos (by simp [hfirst, hsecond, hmeets, huncovered])]

/-! ## Adding chains one at a time -/

/-- The second graph has come from the first by adding chains. -/
inductive Grown (g : ConversionGraph) : ConversionGraph → Prop where
  | refl : Grown g g
  | chain {g' : ConversionGraph} {f h e : Conversion} (past : Grown g g') (hf : f ∈ g'.edges)
    (hh : h ∈ g'.edges) (he : g'.chain? f h = some e) : Grown g { g' with edges := g'.edges ++ [e] }

namespace Grown

theorem trans (h₁ : Grown g g') (h₂ : Grown g' g'') : Grown g g'' := by
  induction h₂ with
  | refl => exact h₁
  | chain _ hf hh he ih => exact .chain ih hf hh he

theorem classes_eq (h : Grown g g') : g'.classes = g.classes := by
  induction h with
  | refl => rfl
  | chain _ _ _ _ ih => exact ih

theorem edges_append (h : Grown g g') : ∃ es, g'.edges = g.edges ++ es := by
  induction h with
  | refl => exact ⟨[], (List.append_nil _).symm⟩
  | @chain g' _ _ e _ _ _ _ ih =>
    obtain ⟨es, hes⟩ := ih
    exact ⟨es ++ [e], by rw [hes, List.append_assoc]⟩

theorem mem (h : Grown g g') (he : e ∈ g.edges) : e ∈ g'.edges := by
  obtain ⟨es, hes⟩ := h.edges_append
  rw [hes]
  exact List.mem_append_left es he

theorem length_mono (h : Grown g g') : g.edges.length ≤ g'.edges.length := by
  obtain ⟨es, hes⟩ := h.edges_append
  rw [hes, List.length_append]
  exact Nat.le_add_right _ _

theorem eq_of_length (h : Grown g g') (hlength : g'.edges.length = g.edges.length) : g' = g := by
  obtain ⟨es, hes⟩ := h.edges_append
  rw [hes, List.length_append, Nat.add_eq_left, List.length_eq_zero_iff] at hlength
  rw [hlength, List.append_nil] at hes
  calc g' = ⟨g'.classes, g'.edges⟩ := rfl
    _ = g := by rw [h.classes_eq, hes]

theorem getElem? (h : Grown g g') {i : Nat} (he : g.edges[i]? = some e) : g'.edges[i]? = some e := by
  obtain ⟨es, hes⟩ := h.edges_append
  obtain ⟨hi, -⟩ := List.getElem?_eq_some_iff.1 he
  rw [hes, List.getElem?_append_left hi, he]

theorem covers (h : Grown g g') (hc : g.covers a b = true) : g'.covers a b = true := by
  obtain ⟨e, he, hsource, htarget⟩ := covers_iff.1 hc
  refine covers_iff.2 ⟨e, h.mem he, ?_⟩
  unfold related at hsource htarget ⊢
  rw [h.classes_eq]
  exact ⟨hsource, htarget⟩

/-- What holds of all conversions and of the chain of any two of which it holds, holds of all that are
added. -/
theorem keeps {P : Conversion → Prop} (h : Grown g g') (hedges : ∀ e ∈ g.edges, P e)
    (hchain : ∀ f h, P f → P h → f.MayChain g.classes h → P (f.andThen h)) :
    ∀ e ∈ g'.edges, P e := by
  induction h with
  | refl => exact hedges
  | @chain g' f h e past hf hh he ih =>
    obtain ⟨hmay, -, rfl⟩ := chain?_eq_some_iff.1 he
    rw [past.classes_eq] at hmay
    intro c hc
    rcases List.mem_append.1 hc with hc | hc
    · exact ih c hc
    · rw [List.mem_singleton.1 hc]
      exact hchain f h (ih f hf) (ih h hh) hmay

end Grown

/-- The graph with the chain of two conversions, if it can be added. -/
def addChain (g : ConversionGraph) (f h : Conversion) : ConversionGraph :=
  match g.chain? f h with
  | some e => { g with edges := g.edges ++ [e] }
  | none => g

theorem addChain_grown (hf : f ∈ g.edges) (hh : h ∈ g.edges) : Grown g (g.addChain f h) := by
  unfold addChain
  split
  · rename_i e he
    exact .chain .refl hf hh he
  · exact .refl

theorem chainRow_step {i j fuel : Nat} (hf : g.edges[i]? = some f) (hh : g.edges[j]? = some h) :
    chainRow i (fuel + 1) j g = chainRow i fuel (j + 1) (g.addChain f h) := by
  rw [chainRow, hf, hh]
  rfl

theorem chainRow_over {i j fuel : Nat} (h : g.edges[i]? = none ∨ g.edges[j]? = none) :
    chainRow i fuel j g = g := by
  cases fuel with
  | zero => rfl
  | succ fuel =>
    rw [chainRow]
    rcases h with h | h
    · rw [h]
    · rw [h]
      cases g.edges[i]? <;> rfl

theorem chainRow_grown (i fuel j : Nat) (g : ConversionGraph) : Grown g (chainRow i fuel j g) := by
  induction fuel generalizing j g with
  | zero => exact .refl
  | succ fuel ih =>
    cases hf : g.edges[i]? with
    | none => rw [chainRow_over (Or.inl hf)]; exact .refl
    | some f =>
      cases hh : g.edges[j]? with
      | none => rw [chainRow_over (Or.inr hh)]; exact .refl
      | some h =>
        rw [chainRow_step hf hh]
        exact (addChain_grown (List.mem_of_getElem? hf) (List.mem_of_getElem? hh)).trans (ih _ _)

theorem chainRows_grown (limit fuel i : Nat) (g : ConversionGraph) :
    Grown g (chainRows limit fuel i g) := by
  induction fuel generalizing i g with
  | zero => exact .refl
  | succ fuel ih =>
    rw [chainRows]
    split
    · exact (chainRow_grown i limit 0 g).trans (ih _ _)
    · exact .refl

theorem closure_grown (g : ConversionGraph) : Grown g g.closure := chainRows_grown _ _ _ _

/-! ## Registering -/

/-- What is broader at both ends covers the pair, so where the pair is not covered, there is nothing to
stand in front of. -/
theorem findIdx?_broader_eq_none (huncovered : g.covers a b = false) :
    (g.edges.findIdx? fun other =>
      g.classes.isAssignable a other.source && g.classes.isAssignable other.target b) = none := by
  refine List.findIdx?_eq_none_iff.2 fun f hf => Bool.eq_false_iff.2 fun hbroader => ?_
  rw [Bool.and_eq_true] at hbroader
  have hcovers : g.covers a b = true := by
    refine covers_iff.2 ⟨f, hf, ?_, ?_⟩
    · rw [related, hbroader.1, Bool.or_true]
    · rw [related, hbroader.2, Bool.true_or]
  exact Bool.false_ne_true (huncovered.symm.trans hcovers)

/-- Conversions are added at the end. -/
theorem register_eq (g : ConversionGraph) (e : Conversion) :
    g.register e =
      if g.covers e.source e.target then none else some { g with edges := g.edges ++ [e] } := by
  unfold register
  split
  · rfl
  · rename_i huncovered
    dsimp only
    rw [findIdx?_broader_eq_none (Bool.eq_false_iff.2 huncovered)]

theorem register_eq_some_iff :
    g.register e = some g' ↔
      g.covers e.source e.target = false ∧ g' = { g with edges := g.edges ++ [e] } := by
  rw [register_eq, Option.ite_none_left_eq_some, Bool.not_eq_true, Option.some.injEq, eq_comm (a := g')]

theorem mem_register (hr : g.register e = some g') {c : Conversion} :
    c ∈ g'.edges ↔ c = e ∨ c ∈ g.edges := by
  obtain ⟨-, rfl⟩ := register_eq_some_iff.1 hr
  rw [List.mem_append, List.mem_singleton, or_comm]

theorem classes_register (hr : g.register e = some g') : g'.classes = g.classes := by
  obtain ⟨-, rfl⟩ := register_eq_some_iff.1 hr
  rfl

/-! ## No pair of classes is served twice -/

/-- No two conversions are related at both ends. -/
def Apart (g : ConversionGraph) : Prop :=
  g.edges.Pairwise fun e f => ¬ (g.related e.source f.source = true ∧ g.related e.target f.target = true)

theorem Apart.eq_of_related (hg : g.Apart) {i j : Nat} (he : g.edges[i]? = some e)
    (hf : g.edges[j]? = some f) (hsource : g.related e.source f.source = true)
    (htarget : g.related e.target f.target = true) : i = j := by
  obtain ⟨hi, rfl⟩ := List.getElem?_eq_some_iff.1 he
  obtain ⟨hj, rfl⟩ := List.getElem?_eq_some_iff.1 hf
  have hpairs := List.pairwise_iff_getElem.1 hg
  rcases Nat.lt_trichotomy i j with hij | hij | hji
  · exact absurd ⟨hsource, htarget⟩ (hpairs i j hi hj hij)
  · exact hij
  · rw [g.related_comm] at hsource htarget
    exact absurd ⟨hsource, htarget⟩ (hpairs j i hj hi hji)

theorem Apart.append (hg : g.Apart) (huncovered : g.covers e.source e.target = false) :
    Apart { g with edges := g.edges ++ [e] } := by
  refine List.pairwise_append.2 ⟨hg, List.pairwise_singleton _ _, fun f hf c hc hends => ?_⟩
  cases List.mem_singleton.1 hc
  exact Bool.false_ne_true (huncovered.symm.trans (covers_iff.2 ⟨f, hf, hends⟩))

theorem Apart.register (hg : g.Apart) (hr : g.register e = some g') : g'.Apart := by
  obtain ⟨huncovered, rfl⟩ := register_eq_some_iff.1 hr
  exact hg.append huncovered

theorem Apart.grown (hg : g.Apart) (h : Grown g g') : g'.Apart := by
  induction h with
  | refl => exact hg
  | chain _ _ _ he ih =>
    obtain ⟨-, huncovered, rfl⟩ := chain?_eq_some_iff.1 he
    exact ih.append huncovered

end ConversionGraph

/-! ## Histories -/

/-- The calls that have changed a graph, the latest outermost. -/
inductive History where
  | start
  | register (past : History) (e : Conversion)
  | close (past : History)

namespace History

variable {classes : ClassTree}

/-- The graph as the calls have left it. -/
def graph (classes : ClassTree) : History → ConversionGraph
  | start => .empty classes
  | register past e => ((past.graph classes).register e).getD (past.graph classes)
  | close past => (past.graph classes).closure

def accepted (classes : ClassTree) : History → List Conversion
  | start => []
  | register past e =>
    past.accepted classes ++ if ((past.graph classes).register e).isSome then [e] else []
  | close past => past.accepted classes

theorem classes_graph (h : History) : (h.graph classes).classes = classes := by
  induction h with
  | start => rfl
  | register past e ih =>
    rw [graph]
    cases hr : (past.graph classes).register e with
    | none => exact ih
    | some g => exact (ConversionGraph.classes_register hr).trans ih
  | close past ih => exact (past.graph classes).closure_grown.classes_eq.trans ih

theorem apart_graph (h : History) : (h.graph classes).Apart := by
  induction h with
  | start => exact List.Pairwise.nil
  | register past e ih =>
    rw [graph]
    cases hr : (past.graph classes).register e with
    | none => exact ih
    | some g => exact ih.register hr
  | close past ih => exact ih.grown (past.graph classes).closure_grown

/-- What holds of the accepted conversions and of the chain of any two of which it holds, holds of
all conversions of the graph. -/
theorem keeps {P : Conversion → Prop} (h : History) (haccepted : ∀ e ∈ h.accepted classes, P e)
    (hchain : ∀ f h, P f → P h → f.MayChain classes h → P (f.andThen h)) :
    ∀ e ∈ (h.graph classes).edges, P e := by
  induction h with
  | start => exact fun e he => absurd he List.not_mem_nil
  | register past e ih =>
    rw [accepted] at haccepted
    rw [graph]
    have hpast := ih fun c hc => haccepted c (List.mem_append_left _ hc)
    cases hr : (past.graph classes).register e with
    | none => exact hpast
    | some g =>
      intro c hc
      rcases (ConversionGraph.mem_register hr).1 hc with rfl | hc
      · exact haccepted c (List.mem_append_right _ (by rw [hr]; exact List.mem_singleton_self c))
      · exact hpast c hc
  | close past ih =>
    refine (past.graph classes).closure_grown.keeps (ih haccepted) ?_
    rw [past.classes_graph]
    exact hchain

end History

end Phrasebook
