import Phrasebook.Proofs.Pattern.Groups
import Phrasebook.Proofs.TypeIndex

/-!
Slots for one type. A registered type is asked for by either of its spellings if that is a word: nothing
but characters of words, and at least one. A spelling may be something else, of several words or empty or
with signs that mean something in a slot; then no slot reads it back.
-/

namespace Phrasebook

namespace Pattern

variable [RegexEngine] {types : TypeNames} {spec : Text} {ts : List SlotType} {accepts : Acceptance}
  {nullable : Bool}

theorem SlotText.sealed {p : Pattern} (h : SlotText types spec p) :
    Text.Sealed 0 ('%' :: spec ++ ['%']) := by
  refine .of_plain fun c hc => ?_
  rcases List.mem_append.1 hc with hc | hc
  · rcases List.mem_cons.1 hc with rfl | hc
    · decide
    · exact isScanned_of_isSpecial (h.isSpecial_of_mem hc)
  · rw [List.mem_singleton.1 hc]
    decide

/-- What stands in percent signs is read as a slot exactly if it is the text of that slot. -/
theorem ofText_slot_iff :
    ofText types ('%' :: spec ++ ['%']) = .ok (.slot ts accepts nullable) ↔
      SlotText types spec (.slot ts accepts nullable) := by
  constructor
  · intro h
    have hbars : Text.Barless ('%' :: spec ++ ['%']) := by
      by_contra hbars
      obtain ⟨bs, hchoice, -⟩ := exists_choice_of_bars hbars h
      cases hchoice
    have hpiece := (ofText_eq_piece_iff hbars rfl rfl).1 h
    generalize htext : '%' :: spec ++ ['%'] = t at hpiece
    generalize hp : Pattern.slot ts accepts nullable = p at hpiece
    cases hpiece with
    | optional => cases hp
    | choice => simp at htext
    | regex => cases hp
    | slot slot =>
      obtain rfl := List.append_cancel_right (List.cons.inj htext).2
      exact slot
  · intro h
    exact (ofText_eq_piece_iff (Text.barless_of_sealed h.sealed) rfl rfl).2 (.slot h)

def inPercents (name : String) : Text := '%' :: name.toList ++ ['%']

def IsWordName (name : String) : Prop := name.toList ≠ [] ∧ ∀ c ∈ name.toList, Text.isWord c = true

/-- The name in percent signs is a slot for one type, whose id and plurality are these. -/
def AsksFor (types : TypeNames) (name : String) (id : TypeId) (single : Bool) : Prop :=
  ∃ t accepts nullable, ofText types (inPercents name) = .ok (.slot [t] accepts nullable) ∧
    t.id = id ∧ t.single = single

/-- A word that means a type is read as the plain slot for it. -/
theorem ofText_inPercents {name : String} {t : SlotType} (hname : IsWordName name)
    (ht : types name = some t) : ofText types (inPercents name) = .ok (.slot [t] .both false) := by
  have hnames : Names types name.toList t := ⟨hname.1, hname.2, by rw [String.ofList_toList, ht]⟩
  exact ofText_slot_iff.2 (.names (List.cons_ne_nil _ _) (.cons hnames .nil) false .both)

/-- A slot for one type is written with signs that say what it accepts, and then a word that means it. -/
theorem exists_of_asksFor {name : String} {id : TypeId} {single : Bool}
    (h : AsksFor types name id single) :
    ∃ signs word t, name.toList = signs ++ word ∧ Names types word t ∧ t.id = id ∧ t.single = single := by
  obtain ⟨t, accepts, nullable, h, hid, hsingle⟩ := h
  have hslot := ofText_slot_iff.1 h
  generalize name.toList = spec at hslot
  cases hslot with
  | @names names _ some named =>
    obtain ⟨word, rest, hword, hrest, rfl⟩ := List.forall₂_cons_right_iff.1 named
    cases hrest
    exact ⟨_, word, t, rfl, hword, hid, hsingle⟩

end Pattern

namespace TypeIndex.Consistent

open Pattern

variable [RegexEngine] {r : TypeIndex} {t : ValueType}

theorem asksFor_of_isWordName (h : r.Consistent) (ht : t ∈ r.types) {name : String}
    (hname : t.HasSpelling name) (hword : IsWordName name) :
    ofText r.slotType? (inPercents name) =
      .ok (.slot [⟨t.id, name, t.spellings.singular == name⟩] .both false) := by
  apply ofText_inPercents hword
  rw [slotType?, h.byName?_eq_some_iff.2 ⟨ht, hname⟩]
  rfl

/-- If a spelling is read as the slot that it should be, no signs stand in front of its word: with the signs
it would be the other spelling of the type, and the plurality would be the other one. -/
theorem isWordName_of_asksFor (h : r.Consistent) (ht : t ∈ r.types) {name : String} {single : Bool}
    (hname : t.HasSpelling name) (hsingle : single = true ↔ t.spellings.singular = name)
    (hasks : AsksFor r.slotType? name t.id single) : IsWordName name := by
  obtain ⟨signs, word, p, htext, hp, hid, hp'⟩ := exists_of_asksFor hasks
  obtain ⟨u, hu, huword, huid, -, husingle⟩ := h.slotType?_eq_some_iff.1 hp.known
  obtain rfl : u = t := by
    have htid := h.get?_eq_some_iff.2 ⟨ht, rfl⟩
    have huid := h.get?_eq_some_iff.2 ⟨hu, huid.symm.trans hid⟩
    exact Option.some.inj (huid.symm.trans htid)
  have hsame : String.ofList word = name := by
    rw [hp', hsingle] at husingle
    rcases hname with hname | hname
    · exact (husingle.1 hname).symm.trans hname
    · rcases huword with huword | huword
      · exact huword.symm.trans (husingle.2 huword)
      · exact huword.symm.trans hname
  rw [IsWordName, ← hsame, String.toList_ofList]
  exact ⟨hp.nonempty, hp.word⟩

end TypeIndex.Consistent

namespace TypeTable

open Pattern

section

variable [RegexEngine]

/-- Whatever was registered before: each spelling of a type that is a word is read, between percent signs,
as the plain slot for the type, and of several values for a plural that differs from the singular. A spelling
that is no word is not read as a slot for the type with that plurality. -/
theorem ofText_spelling (ds : List TypeDeclaration) {t : ValueType} (ht : t ∈ (after ds).types) :
    (IsWordName t.spellings.singular →
      ofText (after ds).slotType? (inPercents t.spellings.singular) =
        .ok (.slot [⟨t.id, t.spellings.singular, true⟩] .both false)) ∧
    (t.spellings.plural ≠ t.spellings.singular → IsWordName t.spellings.plural →
      ofText (after ds).slotType? (inPercents t.spellings.plural) =
        .ok (.slot [⟨t.id, t.spellings.plural, false⟩] .both false)) ∧
    (AsksFor (after ds).slotType? t.spellings.singular t.id true →
      IsWordName t.spellings.singular) ∧
    (t.spellings.plural ≠ t.spellings.singular →
      AsksFor (after ds).slotType? t.spellings.plural t.id false → IsWordName t.spellings.plural) := by
  have h := TypeIndex.consistent_after ds
  have hslot : (after ds).slotType? = (TypeIndex.after ds).slotType? := by
    funext name
    rw [TypeIndex.table_after, h.slotType?_eq]
  rw [TypeIndex.table_after] at ht
  rw [hslot]
  refine ⟨fun hword => ?_, fun hne hword => ?_, fun hasks => ?_, fun hne hasks => ?_⟩
  · simpa using h.asksFor_of_isWordName ht (.inl rfl) hword
  · have hplural := h.asksFor_of_isWordName ht (.inr rfl) hword
    rwa [beq_false_of_ne hne.symm] at hplural
  · exact h.isWordName_of_asksFor ht (.inl rfl) (by simp) hasks
  · exact h.isWordName_of_asksFor ht (.inr rfl) (by simpa using hne.symm) hasks

end

/-- A type with spellings of two words, and one with an ending for each spelling. -/
def itemsAndParties : List TypeDeclaration := [
  { spec := ['i', 't', 'e', 'm', '¦', ' ', 't', 'y', 'p', 'e', '¦', 's'], kind := .object },
  { spec := ['p', 'a', 'r', 't', '¦', 'y', '¦', 'i', 'e', 's'], kind := .string }]

theorem types_itemsAndParties : (after itemsAndParties).types = [
    ⟨⟨0⟩, ⟨"item type", "item types"⟩, .object, none, none⟩,
    ⟨⟨1⟩, ⟨"party", "parties"⟩, .string, none, none⟩] := rfl

theorem ofText_spelling_party :
    ∃ t ∈ (after itemsAndParties).types,
      IsWordName t.spellings.singular ∧ IsWordName t.spellings.plural ∧
      t.spellings.plural ≠ t.spellings.singular ∧
      ofText (after itemsAndParties).slotType? (inPercents "party") =
        .ok (.slot [⟨⟨1⟩, "party", true⟩] .both false) ∧
      ofText (after itemsAndParties).slotType? (inPercents "parties") =
        .ok (.slot [⟨⟨1⟩, "parties", false⟩] .both false) := by
  have ht : ⟨⟨1⟩, ⟨"party", "parties"⟩, .string, none, none⟩ ∈ (after itemsAndParties).types := by
    simp [types_itemsAndParties]
  have hsingular : IsWordName "party" := ⟨by decide, List.all_eq_true.1 (by decide)⟩
  have hplural : IsWordName "parties" := ⟨by decide, List.all_eq_true.1 (by decide)⟩
  obtain ⟨hone, hmany, -, -⟩ := ofText_spelling itemsAndParties ht
  exact ⟨_, ht, hsingular, hplural, by decide, hone hsingular, hmany (by decide) hplural⟩

/-- A blank is no character of a word, so a slot for the first type cannot be written. -/
theorem not_asksFor_itemType :
    ofText (after itemsAndParties).slotType? (inPercents "item type") =
      .error (.invalidSlot "item type".toList 0) ∧
    ¬ ∀ t ∈ (after itemsAndParties).types,
      AsksFor (after itemsAndParties).slotType? t.spellings.singular t.id true ∧
      (t.spellings.plural ≠ t.spellings.singular →
        AsksFor (after itemsAndParties).slotType? t.spellings.plural t.id false) := by
  have hinvalid : ofText (after itemsAndParties).slotType? (inPercents "item type") =
      .error (.invalidSlot "item type".toList 0) := by
    apply eq_error_of_error?
    decide +kernel
  refine ⟨hinvalid, fun hall => ?_⟩
  obtain ⟨⟨p, accepts, nullable, hread, -⟩, -⟩ :=
    hall ⟨⟨0⟩, ⟨"item type", "item types"⟩, .object, none, none⟩ (by simp [types_itemsAndParties])
  rw [hinvalid] at hread
  cases hread

end TypeTable

end Phrasebook
