import Phrasebook.Book
import Phrasebook.Proofs.Conversion.History

/-!
What a finished book has of its draft: the graph that the conversions of the draft leave behind when all
chains have been added, and the phrases of the draft in another order.
-/

namespace Phrasebook.Draft

/-- Registering conversions one after the other, whatever is told on the way. -/
theorem foldl_register {classes : ClassTree} {T : Type}
    {step : ConversionGraph × T → Conversion → ConversionGraph × T}
    (hstep : ∀ p e, (step p e).1 = (p.1.register e).getD p.1) (es : List Conversion) (h : History)
    {p : ConversionGraph × T} (hp : p.1 = h.graph classes) :
    (es.foldl step p).1 = (es.foldl .register h).graph classes := by
  induction es generalizing h p with
  | nil => exact hp
  | cons e es ih =>
    refine ih (.register h e) ?_
    rw [hstep, hp, History.graph]

variable [RegexEngine]

/-- The conversions of a draft, registered in order. -/
def history (d : Draft) : History := d.conversions.foldl .register .start

theorem conversions_finish (d : Draft) :
    d.finish.1.conversions = d.history.close.graph d.classes := by
  refine congrArg ConversionGraph.closure (foldl_register (fun p e => ?_) d.conversions .start rfl)
  dsimp only
  cases p.1.register e <;> rfl

theorem classes_finish (d : Draft) : d.finish.1.classes = d.classes := by
  unfold Book.classes
  rw [conversions_finish, History.classes_graph]

theorem types_finish (d : Draft) : d.finish.1.types = d.types := rfl

/-- A phrase with one pattern that can be read. -/
theorem finish_singleton {F : Type} {types : TypeNames} {t : Text} {p : Pattern}
    (h : Pattern.ofText types t = .ok p) (name : String) (returns : ClassId) (make : F)
    (priority : Int32) :
    ((⟨name, returns, [t], make, priority⟩ : PhraseDraft F).finish types).1 =
      ⟨name, returns, 1, [(0, p)], make, priority⟩ := by
  simp [PhraseDraft.finish, h]

/-- Phrases that are already in the order in which they go stay in it. -/
theorem finish_of_pairwise (d : Draft)
    (hexpressions : (d.expressions.map fun q => (q.finish d.types.slotType?).1).Pairwise
      fun p q => p.goesFirst q = true)
    (heffects : (d.effects.map fun q => (q.finish d.types.slotType?).1).Pairwise
      fun p q => p.goesFirst q = true) :
    d.finish.1 = {
      settings := d.settings
      types := d.types
      conversions := d.graph.1
      expressions := ⟨d.expressions.map fun q => (q.finish d.types.slotType?).1,
        d.settings.recentCapacity⟩
      effects := ⟨d.effects.map fun q => (q.finish d.types.slotType?).1,
        d.settings.recentCapacity⟩ } := by
  unfold finish
  simp only [PhraseTable.ofList, List.map_map, Function.comp_def]
  rw [List.mergeSort_of_pairwise hexpressions, List.mergeSort_of_pairwise heffects]

/-- A phrase of the book is one of the draft, with its patterns read. -/
theorem exists_of_mem_phrases {d : Draft} {p : Phrase ExpressionMaker}
    (hp : p ∈ d.finish.1.expressions.phrases) :
    ∃ q ∈ d.expressions, (q.finish d.types.slotType?).1 = p := by
  obtain ⟨⟨q, events⟩, hq, rfl⟩ := List.mem_map.1 (List.mem_mergeSort.1 hp)
  obtain ⟨draft, hdraft, hfinish⟩ := List.mem_map.1 hq
  exact ⟨draft, hdraft, congrArg Prod.fst hfinish⟩

end Phrasebook.Draft
