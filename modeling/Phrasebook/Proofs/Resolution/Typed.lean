import Phrasebook.Proofs.Conversion.Typed
import Phrasebook.Proofs.Draft
import Phrasebook.Proofs.Resolution.Found
import Phrasebook.Proofs.Standard.Shape
import Phrasebook.Standard

/-!
Classes of what is found. If the conversions keep the classes at their ends, and the makers give values of
the class that they declare when they are given such, then everything found is of the expected class, be
it a literal, a list, made by a phrase or converted on the way out. Nothing is asked of the readers of
literals: what they read is converted by the class that it has.
-/

namespace Phrasebook

/-- Every value belongs to the class that is declared. -/
def Expression.Typed (classes : ClassTree) (e : Expression) : Prop :=
  ∀ v ∈ e.values, v.isInstance e.returns classes = true

/-- Given expressions whose values belong to the classes declared, the maker makes such. -/
def ExpressionMaker.KeepsClasses (classes : ClassTree) (make : ExpressionMaker) : Prop :=
  ∀ o e, (∀ c ∈ o.findings.expressions, c.Typed classes) → make o = .ok e → e.Typed classes

/-- The expression is declared of the class or a narrower one, and so are its values. -/
structure Expression.TypedAs (classes : ClassTree) (target : ClassId) (e : Expression) : Prop where
  typed : e.Typed classes
  returns : classes.isAssignable e.returns target = true

namespace Expression.TypedAs

variable {classes : ClassTree} {target : ClassId} {e : Expression}

theorem isInstance (h : e.TypedAs classes target) {v : Value} (hv : v ∈ e.values) :
    v.isInstance target classes = true :=
  Value.isInstance_trans (h.typed v hv) h.returns

/-- An expression declared of just the class. -/
theorem of_returns (hreturns : e.returns = target)
    (h : ∀ v ∈ e.values, v.isInstance target classes = true) : e.TypedAs classes target where
  typed v hv := hreturns ▸ h v hv
  returns := hreturns ▸ classes.isAssignable_refl target

theorem list {items : List Expression} (all : Bool) (h : ∀ e ∈ items, e.TypedAs classes target) :
    (Expression.list items all target).TypedAs classes target := by
  refine of_returns rfl fun v hv => ?_
  have hitem : ∃ e ∈ items, v ∈ e.values := by
    dsimp only [Expression.list] at hv
    split at hv
    · exact List.mem_flatMap.1 hv
    · cases hfind : (items.map (·.values)).find? (!·.isEmpty) with
      | none =>
        rw [hfind] at hv
        cases hv
      | some vs =>
        rw [hfind] at hv
        obtain ⟨e, he, rfl⟩ := List.mem_map.1 (List.mem_of_find?_eq_some hfind)
        exact ⟨e, he, hv⟩
  obtain ⟨e, he, hv⟩ := hitem
  exact (h e he).isInstance hv

end Expression.TypedAs

namespace Book

open Expression

section

variable [RegexEngine] {b : Book} (hg : b.conversions.KeepsClasses)
include hg

theorem literal?_typedAs {text : Text} {target : ClassId} {e : Expression}
    (h : b.literal? text target = some e) : e.TypedAs b.classes target := by
  obtain ⟨t, -, h⟩ := List.exists_of_findSome?_eq_some h
  obtain ⟨-, -, h⟩ := Option.bind_eq_some_iff.1 h
  obtain ⟨u, -, h⟩ := Option.bind_eq_some_iff.1 h
  obtain ⟨v, hv, h⟩ := Option.bind_eq_some_iff.1 h
  cases h
  refine ⟨fun w hw => ?_, hg.convert? hv⟩
  rw [List.mem_singleton.1 hw]
  exact b.classes.isAssignable_refl v.kind

theorem adapt_typedAs {e : Expression} (he : e.Typed b.classes) (target : ClassId) :
    (b.adapt e target).TypedAs b.classes target := by
  unfold adapt
  split
  · rename_i hreturns
    exact ⟨he, hreturns⟩
  · refine .of_returns rfl fun w hw => ?_
    obtain ⟨v, -, hv⟩ := List.mem_filterMap.1 hw
    exact hg.convert? hv

/-- All ways in which expressions come about keep that they are of the class expected. -/
theorem kept_typedAs (hmakers : ∀ p ∈ b.expressions.phrases, p.make.KeepsClasses b.classes) :
    b.Kept fun expected _ e => e.TypedAs b.classes (b.classOf expected) where
  literal _ h := literal?_typedAs hg h
  list _ _ h := .list _ h
  phrase _ hp hmake _ h := by
    refine adapt_typedAs hg (hmakers _ hp _ _ (fun c hc => ?_) hmake) _
    obtain ⟨type, -, htyped⟩ := h c hc
    exact htyped.typed

end

end Book

/-- Whatever the session is, with any bound on the nesting: what is found for an expected type is
declared of its class or a narrower one, and all values belong to that class, if the accepted conversions
and the makers of the draft keep the classes. -/
theorem Draft.resolver_typed [RegexEngine] [RegexEngine.Lawful] (d : Draft)
    (hconversions : ∀ c ∈ d.history.accepted d.classes, c.KeepsClasses d.classes)
    (hmakers : ∀ p ∈ d.expressions, p.make.KeepsClasses d.classes) (n : Nat) (text : Text)
    (expected : SlotType) (accepts : Acceptance) (enclosing : List Frame) (s s' : Session)
    (e : Expression)
    (h : d.finish.1.resolver n text expected accepts enclosing s = (.found e, s')) :
    d.classes.isAssignable e.returns (d.finish.1.classOf expected) = true ∧
      ∀ v ∈ e.values, v.isInstance (d.finish.1.classOf expected) d.classes = true := by
  have hg : d.finish.1.conversions.KeepsClasses := by
    unfold ConversionGraph.KeepsClasses
    rw [d.conversions_finish, History.classes_graph]
    exact d.history.close.keepsClasses hconversions
  have hphrases : ∀ p ∈ d.finish.1.expressions.phrases, p.make.KeepsClasses d.finish.1.classes := by
    intro p hp
    obtain ⟨q, hq, rfl⟩ := d.exists_of_mem_phrases hp
    rw [d.classes_finish]
    exact hmakers q hq
  have htyped := (Book.kept_typedAs hg hphrases).resolver n text expected accepts enclosing e ⟨s, s', h⟩
  rw [d.classes_finish] at htyped
  exact ⟨htyped.returns, fun v hv => htyped.isInstance hv⟩

/-! ## A small book -/

namespace Draft

/-- Numbers and truth values with the standard conversions, and a phrase for each. -/
def reckoning : Draft where
  types := ⟨[⟨⟨0⟩, ⟨"number", "numbers"⟩, .number, some Standard.number?, none⟩,
    ⟨⟨1⟩, ⟨"boolean", "booleans"⟩, .boolean, some Standard.boolean?, none⟩]⟩
  conversions := [Standard.isNonzero, Standard.asBit]
  expressions := [
    { name := "squared", returns := .number, patterns := ["the number %number% squared".toList],
      make := Standard.makeSquared },
    { name := "comparison", returns := .boolean,
      patterns := ["%number% is (1¦greater|2¦less) than %number%".toList],
      make := Standard.makeComparison }]

theorem keepsClasses_isNonzero : Standard.isNonzero.KeepsClasses .builtin := by
  intro v w _ h
  obtain ⟨x, -, rfl⟩ := Option.map_eq_some_iff.1 h
  rfl

theorem keepsClasses_asBit : Standard.asBit.KeepsClasses .builtin := by
  intro v w _ h
  obtain ⟨x, -, rfl⟩ := Option.map_eq_some_iff.1 h
  rfl

theorem isInstance_ofNumber (x : Float) : (Value.ofNumber x).isInstance .number .builtin = true := by
  unfold Value.ofNumber
  split <;> rfl

theorem isInstance_square? {v w : Value} (h : Standard.square? v = some w) :
    w.isInstance .number .builtin = true := by
  unfold Standard.square? at h
  split at h
  · split at h
    · cases h
      rfl
    · cases h
      exact isInstance_ofNumber _
  · obtain ⟨x, -, rfl⟩ := Option.map_eq_some_iff.1 h
    exact isInstance_ofNumber _

theorem keepsClasses_makeSquared :
    ExpressionMaker.KeepsClasses .builtin Standard.makeSquared := by
  intro o e _ hmake
  obtain ⟨⟨inner, p⟩, -, hmake⟩ := ok_of_bind hmake
  cases hmake
  intro v hv
  obtain ⟨u, -, hu⟩ := Option.bind_eq_some_iff.1 (Option.mem_toList.1 hv)
  exact isInstance_square? hu

theorem typed_comparison (left : Expression) (greater : Bool) (right : Expression) :
    (Standard.comparison left greater right).Typed .builtin := by
  intro v hv
  obtain ⟨u, -, hv⟩ := Option.bind_eq_some_iff.1 (Option.mem_toList.1 hv)
  obtain ⟨w, -, hv⟩ := Option.bind_eq_some_iff.1 hv
  obtain ⟨result, -, hv⟩ := Option.bind_eq_some_iff.1 hv
  cases hv
  rfl

theorem keepsClasses_makeComparison :
    ExpressionMaker.KeepsClasses .builtin Standard.makeComparison := by
  intro o e _ hmake
  have hparts (greater : Bool)
      (hmake : (do
        let x ← o.take
        let y ← x.2.take
        return Standard.comparison x.1 greater y.1) = Except.ok e) : e.Typed .builtin := by
    obtain ⟨x, -, hmake⟩ := ok_of_bind hmake
    obtain ⟨y, -, hmake⟩ := ok_of_bind hmake
    cases hmake
    exact typed_comparison x.1 greater y.1
  unfold Standard.makeComparison at hmake
  split at hmake
  · exact hparts true hmake
  · split at hmake
    · exact hparts false hmake
    · cases hmake

/-- A list of truth values: a number and what a phrase makes, both to be converted, what a phrase makes as
it is, and a literal. -/
theorem resolver_typed_reckoning :
    ∃ e s', reckoning.finish.1.resolver 4
        "1, the number 2 squared, 3 is less than 4 and true".toList ⟨⟨1⟩, "booleans", false⟩ .both []
        reckoning.finish.1.fresh = (.found e, s') ∧
      ClassTree.builtin.isAssignable e.returns .boolean = true ∧
      ∀ v ∈ e.values, v.isInstance .boolean .builtin = true := by
  have hconversions : ∀ c ∈ reckoning.history.accepted .builtin, c.KeepsClasses .builtin := by
    intro c hc
    have haccepted : reckoning.history.accepted .builtin = [Standard.isNonzero, Standard.asBit] := rfl
    rw [haccepted] at hc
    rcases List.mem_pair.1 hc with rfl | rfl
    · exact keepsClasses_isNonzero
    · exact keepsClasses_asBit
  have hmakers : ∀ p ∈ reckoning.expressions, p.make.KeepsClasses .builtin := by
    intro p hp
    rcases List.mem_pair.1 hp with rfl | rfl
    · exact keepsClasses_makeSquared
    · exact keepsClasses_makeComparison
  have hsome : (reckoning.finish.1.resolver 4
      "1, the number 2 squared, 3 is less than 4 and true".toList ⟨⟨1⟩, "booleans", false⟩ .both []
      reckoning.finish.1.fresh).1.toOption.isSome = true := by
    rw [reckoning.finish_of_pairwise (by decide +kernel) (by decide +kernel)]
    decide +kernel
  rcases h : reckoning.finish.1.resolver 4
    "1, the number 2 squared, 3 is less than 4 and true".toList ⟨⟨1⟩, "booleans", false⟩ .both []
    reckoning.finish.1.fresh with ⟨o, s'⟩
  rw [h] at hsome
  cases o with
  | missed => cases hsome
  | fault e => cases hsome
  | found e =>
    exact ⟨e, s', rfl, resolver_typed reckoning hconversions hmakers 4 _ _ _ _ _ s' e h⟩

end Draft

end Phrasebook
