import Phrasebook.Proofs.Draft
import Phrasebook.Proofs.Except
import Phrasebook.Standard

/-!
Makers that read of an occurrence only its shape: the text, the pattern, the mark, the captures and
how many expressions there are. Whether such a maker refuses, and whether what it makes is single,
does not depend on the expressions themselves. All makers of the standard phrases are of this kind.
-/

namespace Phrasebook

/-- Findings that differ in the expressions only, and not in their number. -/
structure Findings.SameShape (f g : Findings) : Prop where
  number : f.expressions.length = g.expressions.length
  captures : f.captures = g.captures
  mark : f.mark = g.mark

/-- Occurrences that differ in the expressions only, and not in their number. -/
structure Occurrence.SameShape (o o' : Occurrence) : Prop where
  source : o.source = o'.source
  pattern : o.pattern = o'.pattern
  findings : o.findings.SameShape o'.findings

section

variable {α β γ δ : Type}

/-- Two refusals, or two related things that were made. -/
inductive MadeAlike (R : α → β → Prop) : Except Refusal α → Except Refusal β → Prop where
  | made {a : α} {b : β} (h : R a b) : MadeAlike R (.ok a) (.ok b)
  | refused (e e' : Refusal) : MadeAlike R (.error e) (.error e')

theorem MadeAlike.bind {R : α → β → Prop} {Q : γ → δ → Prop} {x : Except Refusal α}
    {y : Except Refusal β} {f : α → Except Refusal γ} {g : β → Except Refusal δ}
    (hxy : MadeAlike R x y) (hfg : ∀ a b, R a b → MadeAlike Q (f a) (g b)) :
    MadeAlike Q (x >>= f) (y >>= g) := by
  cases hxy with
  | made hab => exact hfg _ _ hab
  | refused e e' => exact .refused e e'

end

namespace Occurrence.SameShape

theorem mark {o o' : Occurrence} (h : o.SameShape o') : o.mark = o'.mark := h.findings.mark

theorem take {o o' : Occurrence} (h : o.SameShape o') :
    MadeAlike (fun x y => x.2.SameShape y.2) o.take o'.take := by
  obtain ⟨source, pattern, es, captures, mark⟩ := o
  obtain ⟨source', pattern', es', captures', mark'⟩ := o'
  obtain ⟨hsource, hpattern, hnumber, hcaptures, hmark⟩ := h
  cases es with
  | nil =>
    obtain rfl : es' = [] := List.eq_nil_of_length_eq_zero hnumber.symm
    exact .refused _ _
  | cons e es =>
    obtain ⟨e', es', rfl⟩ := List.exists_cons_of_length_eq_add_one hnumber.symm
    exact .made ⟨hsource, hpattern, Nat.succ.inj hnumber, hcaptures, hmark⟩

end Occurrence.SameShape

/-- Whether the maker refuses, and whether what it makes is single, depends on the shape only. -/
def ExpressionMaker.ReadsShape (make : ExpressionMaker) : Prop :=
  ∀ o o' : Occurrence, o.SameShape o' → MadeAlike (fun e e' => e.single = e'.single) (make o) (make o')

def Book.ReadsShape [RegexEngine] (b : Book) : Prop :=
  ∀ p ∈ b.expressions.phrases, ExpressionMaker.ReadsShape p.make

namespace Draft

/-- All makers of expressions read the shape only. -/
def ReadsShape (d : Draft) : Prop := ∀ p ∈ d.expressions, ExpressionMaker.ReadsShape p.make

theorem readsShape_finish [RegexEngine] {d : Draft} (h : d.ReadsShape) : d.finish.1.ReadsShape := by
  intro p hp
  obtain ⟨q, hq, rfl⟩ := exists_of_mem_phrases hp
  exact h q hq

theorem readsShape_addType {d d' : Draft} {t : TypeDeclaration} (h : d.ReadsShape)
    (hadd : d.addType t = .ok d') : d'.ReadsShape := by
  unfold addType at hadd
  cases hreg : d.types.register t with
  | error e => rw [hreg] at hadd; cases hadd
  | ok found =>
    rw [hreg] at hadd
    cases hadd
    exact h

theorem readsShape_addExpression {d d' : Draft} {name type : String} {patterns : List Text}
    {priority : Int32} {make : ExpressionMaker} (h : d.ReadsShape) (hmake : make.ReadsShape)
    (hadd : d.addExpression name type patterns priority make = .ok d') : d'.ReadsShape := by
  unfold addExpression at hadd
  split at hadd
  · cases hadd
  · split at hadd
    · cases hadd
    · cases hadd
      intro p hp
      rcases List.mem_append.1 hp with hp | hp
      · exact h p hp
      · rw [List.mem_singleton.1 hp]
        exact hmake

theorem readsShape_addEffect {d d' : Draft} {name : String} {patterns : List Text}
    {make : EffectMaker} (h : d.ReadsShape) (hadd : d.addEffect name patterns make = .ok d') :
    d'.ReadsShape := by
  unfold addEffect at hadd
  split at hadd
  · cases hadd
  · cases hadd
    exact h

end Draft

namespace Standard

theorem readsShape_makeArithmetic : ExpressionMaker.ReadsShape makeArithmetic := by
  intro o o' h
  have hparts (op : Operator) : MadeAlike (fun e e' => e.single = e'.single)
      (do let x ← o.take; let y ← x.2.take; return arithmetic x.1 op y.1)
      (do let x ← o'.take; let y ← x.2.take; return arithmetic x.1 op y.1) :=
    h.take.bind fun x x' hx => hx.take.bind fun _ _ _ => .made rfl
  unfold makeArithmetic
  rw [h.mark]
  split
  · exact hparts .add
  · split
    · exact hparts .subtract
    · split
      · exact hparts .multiply
      · split
        · exact hparts .divide
        · exact .refused _ _

theorem readsShape_makeComparison : ExpressionMaker.ReadsShape makeComparison := by
  intro o o' h
  have hparts (greater : Bool) : MadeAlike (fun e e' => e.single = e'.single)
      (do let x ← o.take; let y ← x.2.take; return comparison x.1 greater y.1)
      (do let x ← o'.take; let y ← x.2.take; return comparison x.1 greater y.1) :=
    h.take.bind fun x x' hx => hx.take.bind fun _ _ _ => .made rfl
  unfold makeComparison
  rw [h.mark]
  split
  · exact hparts true
  · split
    · exact hparts false
    · exact .refused _ _

theorem readsShape_makeSubstring : ExpressionMaker.ReadsShape makeSubstring := by
  intro o o' h
  refine h.take.bind fun x x' hx => ?_
  refine hx.take.bind fun y y' hy => ?_
  exact hy.take.bind fun _ _ _ => .made rfl

theorem readsShape_expressions :
    ∀ p ∈ expressions, ExpressionMaker.ReadsShape p.2.2.2 := by
  intro p hp
  unfold expressions at hp
  simp only [List.mem_cons, List.not_mem_nil, or_false] at hp
  rcases hp with rfl | rfl | rfl | rfl | rfl | rfl
  · exact readsShape_makeArithmetic
  · exact fun o o' h => h.take.bind fun _ _ _ => .made rfl
  · exact fun o o' h => h.take.bind fun _ _ _ => .made rfl
  · exact readsShape_makeComparison
  · exact fun o o' h => h.take.bind fun _ _ _ => .made rfl
  · exact readsShape_makeSubstring

theorem readsShape_addTo {d d' : Draft} (h : d.ReadsShape) (hadd : addTo d = .ok d') :
    d'.ReadsShape := by
  unfold addTo at hadd
  obtain ⟨d₁, htypes, hadd⟩ := ok_of_bind hadd
  have h₁ : d₁.ReadsShape := by
    refine foldlM_keeps (fun t _ s s' hs hstep => ?_) h htypes
    exact Draft.readsShape_addType hs (ok_of_mapError hstep)
  obtain ⟨d₂, hphrases, hadd⟩ := ok_of_bind hadd
  have h₂ : d₂.ReadsShape := by
    have hconversions : ((d₁.addConversion isNonzero).addConversion asBit).ReadsShape := h₁
    refine foldlM_keeps (fun p hp s s' hs hstep => ?_) hconversions hphrases
    exact Draft.readsShape_addExpression hs (readsShape_expressions p hp) (ok_of_mapError hstep)
  exact Draft.readsShape_addEffect h₂ (ok_of_mapError hadd)

theorem readsShape_book [RegexEngine] (settings : Settings) : (book settings).ReadsShape := by
  refine Draft.readsShape_finish ?_
  unfold draft
  dsimp only
  split
  · rename_i d hadd
    exact readsShape_addTo (fun _ hp => absurd hp List.not_mem_nil) hadd
  · exact fun _ hp => absurd hp List.not_mem_nil

end Standard

end Phrasebook
