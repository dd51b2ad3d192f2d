import Phrasebook.Proofs.Draft
import Phrasebook.Proofs.Matching.Words
import Phrasebook.Proofs.Pattern.RoundTrip
import Phrasebook.Proofs.Standard.Chain
import Phrasebook.Resolution
import Phrasebook.Standard

/-!
What the standard book consists of, whatever the settings are: its classes and types, and its phrases in
the order in which they are tried when nothing was of use yet.
-/

namespace Phrasebook.Standard

/-- Truth values begin with one of two letters. -/
theorem boolean?_eq_none {c : Char} {t : Text} (ht : c.toLower ≠ 't') (hf : c.toLower ≠ 'f') :
    boolean? (c :: t) = none := by
  have hword (w : Char) (ws : Text) (hw : c.toLower ≠ w) :
      String.ofList ((c :: t).map Char.toLower) ≠ String.ofList (w :: ws) :=
    fun h => hw (List.cons.inj (String.ofList_injective h)).1
  unfold boolean?
  split
  · rename_i h
    exact absurd h (hword 't' ['r', 'u', 'e'] ht)
  · rename_i h
    exact absurd h (hword 'f' ['a', 'l', 's', 'e'] hf)
  · rfl

/-! ## The draft -/

def table : TypeTable := ⟨[
  ⟨⟨0⟩, ⟨"object", "objects"⟩, .object, none, none⟩,
  ⟨⟨1⟩, ⟨"number", "numbers"⟩, .number, some number?, none⟩,
  ⟨⟨2⟩, ⟨"integer", "integers"⟩, .integer, some integer?, none⟩,
  ⟨⟨3⟩, ⟨"decimal", "decimals"⟩, .decimal, some decimal?, none⟩,
  ⟨⟨4⟩, ⟨"string", "strings"⟩, .string, none, none⟩,
  ⟨⟨5⟩, ⟨"boolean", "booleans"⟩, .boolean, some boolean?, none⟩]⟩

/-- A phrase with one pattern and no priority of its own, before the pattern has been read. -/
def phraseDraft {F : Type} (name : String) (returns : ClassId) (pattern : String) (make : F) :
    PhraseDraft F :=
  ⟨name, returns, [pattern.toList], make, Phrase.defaultPriority⟩

theorem draft_eq (settings : Settings) : draft settings = {
    settings := settings
    classes := .builtin
    types := table
    conversions := [isNonzero, asBit]
    expressions := [
      phraseDraft "arithmetic" .number "%number% (1¦+|2¦-|3¦*|4¦/) %number%" makeArithmetic,
      phraseDraft "squared" .number "the number %number% squared" makeSquared,
      phraseDraft "whether" .boolean "whether %boolean%" makeWhether,
      phraseDraft "comparison" .boolean "%number% is (1¦greater|2¦less) than %number%" makeComparison,
      phraseDraft "length" .integer "[the] length of %string%" makeLength,
      phraseDraft "substring" .string "substring %string% from %number% to %number%" makeSubstring]
    effects := [phraseDraft "print" .object "print %strings%" makePrint] } := by
  rfl

variable [RegexEngine] {settings : Settings}

theorem classes_book : (book settings).classes = .builtin := by
  unfold book
  rw [Draft.classes_finish, draft_eq]

theorem types_book : (book settings).types = table := by
  unfold book
  rw [Draft.types_finish, draft_eq]

/-! ## Types -/

def number : SlotType := ⟨⟨1⟩, "number", true⟩

def string : SlotType := ⟨⟨4⟩, "string", true⟩

def strings : SlotType := ⟨⟨4⟩, "strings", false⟩

def boolean : SlotType := ⟨⟨5⟩, "boolean", true⟩

theorem slotType?_number : (book settings).types.slotType? "number" = some number := by
  rw [types_book]
  rfl

/-- The kinds of the types with their readers, in order. -/
theorem readers_book : (book settings).types.types.map (fun t => (t.kind, t.parse?)) =
    [(.object, none), (.number, some number?), (.integer, some integer?), (.decimal, some decimal?),
      (.string, none), (.boolean, some boolean?)] := by
  rw [types_book]
  rfl

theorem classOf_number : (book settings).classOf number = .number := by
  unfold Book.classOf
  rw [types_book]
  rfl

theorem classOf_strings : (book settings).classOf strings = .string := by
  unfold Book.classOf
  rw [types_book]
  rfl

theorem compatible_of_isAssignable {c target : ClassId}
    (h : ClassTree.builtin.isAssignable c target = true) : (book settings).compatible c target = true := by
  unfold Book.compatible
  rw [classes_book, h]
  rfl

/-- A value of a built-in class stays as it is where one of an ancestor is asked for. -/
theorem convert?_of_isAssignable {v : Value} {target : ClassId}
    (h : ClassTree.builtin.isAssignable v.kind target = true) :
    (book settings).conversions.convert? v target = some v := by
  have hclasses : (book settings).conversions.classes = .builtin := classes_book
  unfold ConversionGraph.convert? Value.isInstance
  rw [hclasses, if_pos h]

/-! ## The phrases -/

def Operator.mark : Operator → Int32
  | add => 1
  | subtract => 2
  | multiply => 3
  | divide => 4

def Operator.branch (op : Operator) : Int32 × Pattern := (op.mark, .literal [op.symbol])

def arithmeticPattern : Pattern := .sequence [
  .slot [number] .both false, .literal [' '], .choice (Operator.inOrder.map Operator.branch),
  .literal [' '], .slot [number] .both false]

def squaredPattern : Pattern := .sequence [
  .literal "the number ".toList, .slot [number] .both false, .literal " squared".toList]

def whetherPattern : Pattern := .sequence [.literal "whether ".toList, .slot [boolean] .both false]

def comparisonPattern : Pattern := .sequence [
  .slot [number] .both false, .literal " is ".toList,
  .choice [(1, .literal "greater".toList), (2, .literal "less".toList)], .literal " than ".toList,
  .slot [number] .both false]

def lengthPattern : Pattern := .sequence [
  .optional (.literal "the".toList), .literal " length of ".toList, .slot [string] .both false]

def substringPattern : Pattern := .sequence [
  .literal "substring ".toList, .slot [string] .both false, .literal " from ".toList,
  .slot [number] .both false, .literal " to ".toList, .slot [number] .both false]

def printPattern : Pattern := .sequence [.literal "print ".toList, .slot [strings] .both false]

/-- A phrase with one pattern and no priority of its own. -/
def phrase {F : Type} (name : String) (returns : ClassId) (pattern : Pattern) (make : F) : Phrase F where
  name := name
  returns := returns
  declared := 1
  patterns := [(0, pattern)]
  make := make
  priority := Phrase.defaultPriority

def arithmeticPhrase : Phrase ExpressionMaker where
  name := "arithmetic"
  returns := .number
  declared := 1
  patterns := [(0, arithmeticPattern)]
  make := makeArithmetic
  priority := Phrase.defaultPriority

def printPhrase : Phrase EffectMaker := phrase "print" .object printPattern makePrint

theorem wellFormed_slot {t : SlotType} (ht : t ∈ [number, string, strings, boolean]) :
    Pattern.WellFormed table.slotType? (.slot [t] .both false) := by
  refine .slot (by simp) fun u hu => ?_
  rw [List.mem_singleton.1 hu]
  simp only [List.mem_cons, List.not_mem_nil, or_false] at ht
  rcases ht with rfl | rfl | rfl | rfl <;> exact ⟨by decide, by decide, rfl⟩

theorem wellFormed_sequence {ps : List Pattern} (hlong : 2 ≤ ps.length)
    (hparts : ps.all (·.isPart) = true)
    (happart : ps.IsChain fun p q => ¬(p.isLiteral = true ∧ q.isLiteral = true))
    (hps : ∀ p ∈ ps, Pattern.WellFormed table.slotType? p) :
    Pattern.WellFormed table.slotType? (.sequence ps) :=
  .sequence hlong (List.all_eq_true.1 hparts) happart hps

theorem wellFormed_choice (bs : List (Int32 × Text)) (hbs : bs ≠ []) (hmarks : ∀ b ∈ bs, 0 ≤ b.1) :
    Pattern.WellFormed table.slotType? (.choice (bs.map fun b => (b.1, .literal b.2))) := by
  refine .choice (by simpa using hbs) (fun b hb => ?_) fun b hb => ?_
  · obtain ⟨c, hc, rfl⟩ := List.mem_map.1 hb
    exact hmarks c hc
  · obtain ⟨c, -, rfl⟩ := List.mem_map.1 hb
    exact .literal _

/-- A phrase whose pattern is the text of a tree that can be printed has this tree. -/
theorem finish_phraseDraft {F : Type} {p : Pattern} {text : String}
    (hp : Pattern.WellFormed table.slotType? p) (htext : p.toText = text.toList) (name : String)
    (returns : ClassId) (make : F) :
    ((phraseDraft name returns text make).finish table.slotType?).1 = phrase name returns p make := by
  refine Draft.finish_singleton ?_ _ _ _ _
  rw [← htext]
  exact Pattern.readWithin_toText hp (Nat.lt_succ_self _) 0

section

open Pattern

theorem wellFormed_arithmetic : WellFormed table.slotType? arithmeticPattern := by
  have hchoice := wellFormed_choice (Operator.inOrder.map fun op => (op.mark, [op.symbol])) (by decide)
    (by decide)
  refine wellFormed_sequence (by simp) rfl (by simp [isLiteral]) ?_
  simp only [List.forall_mem_cons]
  exact ⟨wellFormed_slot (by decide), .literal _, hchoice, .literal _, wellFormed_slot (by decide), by simp⟩

theorem wellFormed_squared : WellFormed table.slotType? squaredPattern := by
  refine wellFormed_sequence (by simp) rfl (by simp [isLiteral]) ?_
  simp only [List.forall_mem_cons]
  exact ⟨.literal _, wellFormed_slot (by decide), .literal _, by simp⟩

theorem wellFormed_whether : WellFormed table.slotType? whetherPattern := by
  refine wellFormed_sequence (by simp) rfl (by simp [isLiteral]) ?_
  simp only [List.forall_mem_cons]
  exact ⟨.literal _, wellFormed_slot (by decide), by simp⟩

theorem wellFormed_comparison : WellFormed table.slotType? comparisonPattern := by
  have hchoice := wellFormed_choice [(1, "greater".toList), (2, "less".toList)] (by decide) (by decide)
  refine wellFormed_sequence (by simp) rfl (by simp [isLiteral]) ?_
  simp only [List.forall_mem_cons]
  exact ⟨wellFormed_slot (by decide), .literal _, hchoice, .literal _, wellFormed_slot (by decide), by simp⟩

theorem wellFormed_length : WellFormed table.slotType? lengthPattern := by
  refine wellFormed_sequence (by simp) rfl (by simp [isLiteral]) ?_
  simp only [List.forall_mem_cons]
  exact ⟨.optional (.literal _), .literal _, wellFormed_slot (by decide), by simp⟩

theorem wellFormed_substring : WellFormed table.slotType? substringPattern := by
  refine wellFormed_sequence (by simp) rfl (by simp [isLiteral]) ?_
  simp only [List.forall_mem_cons]
  exact ⟨.literal _, wellFormed_slot (by decide), .literal _, wellFormed_slot (by decide), .literal _,
    wellFormed_slot (by decide), by simp⟩

theorem wellFormed_print : WellFormed table.slotType? printPattern := by
  refine wellFormed_sequence (by simp) rfl (by simp [isLiteral]) ?_
  simp only [List.forall_mem_cons]
  exact ⟨.literal _, wellFormed_slot (by decide), by simp⟩

end

/-- The phrases for expressions in the order in which they are tried. -/
def expressionPhrases : List (Phrase ExpressionMaker) := [
  arithmeticPhrase,
  phrase "squared" .number squaredPattern makeSquared,
  phrase "whether" .boolean whetherPattern makeWhether,
  phrase "comparison" .boolean comparisonPattern makeComparison,
  phrase "length" .integer lengthPattern makeLength,
  phrase "substring" .string substringPattern makeSubstring]

theorem finish_expressions (settings : Settings) :
    ((draft settings).expressions.map fun q => (q.finish (draft settings).types.slotType?).1) =
      expressionPhrases := by
  rw [draft_eq]
  refine congrArg₂ List.cons (finish_phraseDraft wellFormed_arithmetic rfl _ _ _) ?_
  refine congrArg₂ List.cons (finish_phraseDraft wellFormed_squared rfl _ _ _) ?_
  refine congrArg₂ List.cons (finish_phraseDraft wellFormed_whether rfl _ _ _) ?_
  refine congrArg₂ List.cons (finish_phraseDraft wellFormed_comparison rfl _ _ _) ?_
  refine congrArg₂ List.cons (finish_phraseDraft wellFormed_length rfl _ _ _) ?_
  exact congrArg₂ List.cons (finish_phraseDraft wellFormed_substring rfl _ _ _) rfl

theorem finish_effects (settings : Settings) :
    ((draft settings).effects.map fun q => (q.finish (draft settings).types.slotType?).1) =
      [printPhrase] := by
  rw [draft_eq]
  exact congrArg₂ List.cons (finish_phraseDraft wellFormed_print rfl _ _ _) rfl

/-- The book with its patterns read. -/
theorem book_eq (settings : Settings) : book settings = {
    settings := settings
    types := table
    conversions := (draft settings).graph.1
    expressions := ⟨expressionPhrases, settings.recentCapacity⟩
    effects := ⟨[printPhrase], settings.recentCapacity⟩ } := by
  have h := (draft settings).finish_of_pairwise
    (by rw [finish_expressions]; exact of_decide_eq_true rfl)
    (by rw [finish_effects]; exact of_decide_eq_true rfl)
  rw [finish_expressions, finish_effects] at h
  unfold book
  rw [h, draft_eq]

theorem phrases_book : (book settings).expressions.phrases = expressionPhrases := by
  rw [book_eq]

theorem effects_book : (book settings).effects.phrases = [printPhrase] := by
  rw [book_eq]

theorem phrase_zero : (book settings).expressions.phrases[0]? = some arithmeticPhrase := by
  rw [phrases_book]
  rfl

/-- All other phrases ask for a letter. -/
theorem insistsOn_letter {id : Nat} {p : Phrase ExpressionMaker}
    (hp : (book settings).expressions.phrases[id]? = some p) (hid : id ≠ 0) :
    ∀ q ∈ p.patterns, q.2.insistsOn (Matching.foreign Chain.signs) = true := by
  have hall : (expressionPhrases.tail.all fun p =>
      p.patterns.all fun q => q.2.insistsOn (Matching.foreign Chain.signs)) = true := rfl
  rw [phrases_book] at hp
  obtain ⟨i, rfl⟩ := Nat.exists_eq_succ_of_ne_zero hid
  rw [← List.getElem?_tail] at hp
  exact List.all_eq_true.1 (List.all_eq_true.1 hall p (List.mem_of_getElem? hp))

end Phrasebook.Standard
