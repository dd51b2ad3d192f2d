import Mathlib.Data.List.Forall2
import Phrasebook.Proofs.Conversion.Lookup

/-!
A graph is put together without running any conversion. So two histories whose conversions are related
one by one, by a relation that keeps ends and limits and goes over to chains, leave graphs behind whose
conversions are related one by one.
-/

namespace Phrasebook

/-- The two depart and arrive alike and are barred from the same sides of a chain. -/
structure Conversion.SameEnds (e e' : Conversion) : Prop where
  source : e'.source = e.source
  target : e'.target = e.target
  limits : e'.limits = e.limits

section

variable {α β γ δ : Type} {R : α → β → Prop} {l : List α} {l' : List β}

theorem any_eq_of_forall₂ {p : α → Bool} {q : β → Bool} (h : List.Forall₂ R l l')
    (hpq : ∀ a b, R a b → q b = p a) : l'.any q = l.any p := by
  induction h with
  | nil => rfl
  | cons hab _ ih => rw [List.any_cons, List.any_cons, ih, hpq _ _ hab]

theorem findSome?_rel {S : γ → δ → Prop} {f : α → Option γ} {f' : β → Option δ}
    (h : List.Forall₂ R l l') (hf : ∀ a b, R a b → Option.Rel S (f a) (f' b)) :
    Option.Rel S (l.findSome? f) (l'.findSome? f') := by
  induction h with
  | nil => exact .none
  | @cons a b _ _ hab _ ih =>
    rw [List.findSome?_cons, List.findSome?_cons]
    have hfirst := hf a b hab
    generalize f a = c? at hfirst
    generalize f' b = d? at hfirst
    cases hfirst with
    | some hcd => exact .some hcd
    | none => exact ih

theorem or_rel {S : γ → δ → Prop} {a b : Option γ} {a' b' : Option δ} (ha : Option.Rel S a a')
    (hb : Option.Rel S b b') : Option.Rel S (a.or b) (a'.or b') := by
  cases ha with
  | some h => exact .some h
  | none => exact hb

theorem getElem?_rel (h : List.Forall₂ R l l') (i : Nat) : Option.Rel R l[i]? l'[i]? := by
  induction h generalizing i with
  | nil => exact .none
  | cons hab _ ih =>
    cases i with
    | zero => exact .some hab
    | succ i => exact ih i

end

namespace ConversionGraph

/-- The classes are the same, and the conversions are related one by one. -/
structure Paired (R : Conversion → Conversion → Prop) (g g' : ConversionGraph) : Prop where
  classes_eq : g'.classes = g.classes
  edges : List.Forall₂ R g.edges g'.edges

/-- The relation keeps what a graph looks at, and goes over to chains. -/
structure Congruence (classes : ClassTree) (R : Conversion → Conversion → Prop) : Prop where
  ends {e e' : Conversion} (h : R e e') : e.SameEnds e'
  andThen {e e' f f' : Conversion} (he : R e e') (hf : R f f') (hmay : e.MayChain classes f) :
    R (e.andThen f) (e'.andThen f')

namespace Paired

variable {R : Conversion → Conversion → Prop} {g g' : ConversionGraph} {e e' f f' : Conversion}

theorem append (h : Paired R g g') (he : R e e') :
    Paired R { g with edges := g.edges ++ [e] } { g' with edges := g'.edges ++ [e'] } where
  classes_eq := h.classes_eq
  edges := List.rel_append h.edges (.cons he .nil)

variable (hR : Congruence g.classes R) (h : Paired R g g')
include hR h

theorem covers_eq (a b : ClassId) : g'.covers a b = g.covers a b := by
  unfold covers related
  rw [h.classes_eq]
  refine any_eq_of_forall₂ h.edges fun e e' he => ?_
  rw [(hR.ends he).source, (hR.ends he).target]

/-- Nothing is asked of conversions that are left out but where they depart and arrive. -/
theorem register (hends : e.SameEnds e') (he : g.covers e.source e.target = false → R e e') :
    Option.Rel (Paired R) (g.register e) (g'.register e') := by
  rw [register_eq, register_eq, h.covers_eq hR, hends.source, hends.target]
  split
  · exact .none
  · rename_i huncovered
    exact .some (h.append (he (Bool.eq_false_iff.2 huncovered)))

theorem addChain (he : R e e') (hf : R f f') :
    Paired R (g.addChain e f) (g'.addChain e' f') := by
  have hmay : e'.MayChain g'.classes f' ↔ e.MayChain g.classes f := by
    constructor
    · rintro ⟨hfirst, hsecond, hmeets⟩
      rw [h.classes_eq, (hR.ends he).target, (hR.ends hf).source] at hmeets
      exact ⟨(hR.ends he).limits ▸ hfirst, (hR.ends hf).limits ▸ hsecond, hmeets⟩
    · rintro ⟨hfirst, hsecond, hmeets⟩
      refine ⟨(hR.ends he).limits ▸ hfirst, (hR.ends hf).limits ▸ hsecond, ?_⟩
      rwa [h.classes_eq, (hR.ends he).target, (hR.ends hf).source]
  have hcovers : g'.covers e'.source f'.target = g.covers e.source f.target := by
    rw [h.covers_eq hR, (hR.ends he).source, (hR.ends hf).target]
  unfold ConversionGraph.addChain
  cases hchain : g.chain? e f with
  | none =>
    cases hchain' : g'.chain? e' f' with
    | none => exact h
    | some k' =>
      obtain ⟨hmay', huncovered, -⟩ := chain?_eq_some_iff.1 hchain'
      have := chain?_eq_some_iff.2 ⟨hmay.1 hmay', hcovers ▸ huncovered, rfl⟩
      rw [hchain] at this
      cases this
  | some k =>
    obtain ⟨hmay', huncovered, rfl⟩ := chain?_eq_some_iff.1 hchain
    rw [chain?_eq_some_iff.2 ⟨hmay.2 hmay', hcovers ▸ huncovered, rfl⟩]
    exact h.append (hR.andThen he hf hmay')

theorem chainRow (i fuel j : Nat) :
    Paired R (ConversionGraph.chainRow i fuel j g) (ConversionGraph.chainRow i fuel j g') := by
  induction fuel generalizing j g g' with
  | zero => exact h
  | succ fuel ih =>
    have hrow := getElem?_rel h.edges i
    have hcolumn := getElem?_rel h.edges j
    generalize hf : g.edges[i]? = f? at hrow
    generalize hf' : g'.edges[i]? = f'? at hrow
    generalize hk : g.edges[j]? = k? at hcolumn
    generalize hk' : g'.edges[j]? = k'? at hcolumn
    cases hrow with
    | none =>
      rw [chainRow_over (Or.inl hf), chainRow_over (Or.inl hf')]
      exact h
    | some hff' =>
      cases hcolumn with
      | none =>
        rw [chainRow_over (Or.inr hk), chainRow_over (Or.inr hk')]
        exact h
      | some hkk' =>
        rw [chainRow_step hf hk, chainRow_step hf' hk']
        have hgrown := addChain_grown (List.mem_of_getElem? hf) (List.mem_of_getElem? hk)
        exact ih (hgrown.classes_eq.symm ▸ hR) (h.addChain hR hff' hkk') _

theorem chainRows (limit fuel i : Nat) :
    Paired R (ConversionGraph.chainRows limit fuel i g) (ConversionGraph.chainRows limit fuel i g') := by
  induction fuel generalizing i g g' with
  | zero => exact h
  | succ fuel ih =>
    rw [ConversionGraph.chainRows, ConversionGraph.chainRows, ← h.edges.length_eq]
    split
    · exact ih ((chainRow_grown i limit 0 g).classes_eq.symm ▸ hR) (h.chainRow hR i limit 0) _
    · exact h

theorem closure : Paired R g.closure g'.closure := by
  unfold ConversionGraph.closure
  rw [← h.edges.length_eq]
  exact h.chainRows hR _ _ _

end Paired

end ConversionGraph

namespace History

open ConversionGraph

def map (other : Conversion → Conversion) : History → History
  | start => start
  | register past e => register (past.map other) (other e)
  | close past => close (past.map other)

theorem paired_map {classes : ClassTree} {R : Conversion → Conversion → Prop}
    {other : Conversion → Conversion} (hR : Congruence classes R)
    (hends : ∀ e : Conversion, e.SameEnds (other e)) (h : History)
    (haccepted : ∀ e ∈ h.accepted classes, R e (other e)) :
    Paired R (h.graph classes) ((h.map other).graph classes) := by
  induction h with
  | start => exact ⟨rfl, .nil⟩
  | register past e ih =>
    rw [accepted] at haccepted
    have hpast := ih fun c hc => haccepted c (List.mem_append_left _ hc)
    have hlast (hsome : ((past.graph classes).register e).isSome = true) : R e (other e) :=
      haccepted e (List.mem_append_right _ (by rw [if_pos hsome]; exact List.mem_singleton_self e))
    rw [map, graph, graph]
    have hregister := hpast.register (past.classes_graph.symm ▸ hR) (hends e) fun huncovered => by
      refine hlast (Option.isSome_iff_ne_none.2 fun hnone => ?_)
      rw [register_eq_none_iff, huncovered] at hnone
      cases hnone
    generalize (past.graph classes).register e = g? at hregister
    generalize ((past.map other).graph classes).register (other e) = g'? at hregister
    cases hregister with
    | none => exact hpast
    | some hadded => exact hadded
  | close past ih => exact (ih haccepted).closure (past.classes_graph.symm ▸ hR)

end History

end Phrasebook
