import Phrasebook.Proofs.Conversion.Lookup
import Phrasebook.Proofs.Phrase
import Phrasebook.Resolution
import Phrasebook.Standard

/-!
Nothing is lost by the look at the classes that comes before values are known. If a value can be had as
one of the expected class, then so may be whatever is declared of a class that the value belongs to. So a
phrase that is no candidate returns nothing of use, and reading literals only by types of compatible
classes comes to the same as reading them by all types.
-/

namespace Phrasebook.Book

section

variable [RegexEngine] {b : Book} {source target : ClassId}

/-- No value of a class that is not compatible can be had as one of the target. -/
theorem convert?_of_not_compatible (h : b.compatible source target = false) {v : Value}
    (hv : v.isInstance source b.classes = true) : b.conversions.convert? v target = none := by
  cases hw : b.conversions.convert? v target with
  | none => rfl
  | some w =>
    have hmay := ConversionGraph.mayConvert_of_convert? hv hw
    unfold compatible at h
    rw [hmay, Bool.or_true] at h
    cases h

/-- The text as a literal by the first type whose value can be converted, whatever its class is. -/
def anyLiteral? (b : Book) (text : Text) (target : ClassId) : Option Expression :=
  b.types.types.findSome? fun t => do
    let v ← literalValue? t text
    let v ← b.conversions.convert? v target
    some (.literal v.kind [v] text)

theorem literal?_eq_anyLiteral? {text : Text}
    (hread : ∀ t ∈ b.types.types, ∀ v, literalValue? t text = some v →
      v.isInstance t.kind b.classes = true) (target : ClassId) :
    b.literal? text target = b.anyLiteral? text target := by
  unfold literal? anyLiteral?
  generalize b.types.types = ts at hread ⊢
  induction ts with
  | nil => rfl
  | cons t ts ih =>
    rw [List.findSome?_cons, List.findSome?_cons, ih fun t' ht' => hread t' (List.mem_cons_of_mem t ht')]
    cases hcompatible : b.compatible t.kind target with
    | true => rfl
    | false =>
      -- the type is skipped, and what it reads does not convert
      cases hvalue : literalValue? t text with
      | none => rfl
      | some v =>
        have hv := hread t List.mem_cons_self v hvalue
        dsimp only [Option.bind_eq_bind, Option.bind_some]
        rw [convert?_of_not_compatible hcompatible hv]
        rfl

/-- Where a value can be converted, the classes may be. A phrase that is no candidate for a class returns
no value that can be had as one of that class; and if what the types read of a text belongs to their own
classes, no literal is missed by leaving out those that are not compatible. -/
theorem compatible_of_use (b : Book) :
    (∀ source target v, v.isInstance source b.classes = true →
      (b.conversions.convert? v target).isSome = true → b.conversions.mayConvert source target = true) ∧
    (∀ u target id p, b.expressions.phrases[id]? = some p →
      id ∉ b.expressions.candidates u (b.compatible · target) →
      ∀ v, v.isInstance p.returns b.classes = true → b.conversions.convert? v target = none) ∧
    ∀ text target, (∀ t ∈ b.types.types, ∀ v, literalValue? t text = some v →
      v.isInstance t.kind b.classes = true) → b.literal? text target = b.anyLiteral? text target := by
  refine ⟨?_, ?_, ?_⟩
  · intro source target v hv hw
    obtain ⟨w, hw⟩ := Option.isSome_iff_exists.1 hw
    exact ConversionGraph.mayConvert_of_convert? hv hw
  · intro u target id p hp hid v hv
    rw [PhraseTable.mem_candidates, PhraseTable.admits, hp] at hid
    exact convert?_of_not_compatible (Bool.eq_false_iff.2 hid) hv
  · intro text target hread
    exact literal?_eq_anyLiteral? hread target

end

/-- Integers can be spelled out, and a greeting is a string. -/
def greeting : Book where
  settings := {}
  types := ⟨[⟨⟨0⟩, ⟨"number", "numbers"⟩, .number, some Standard.number?, none⟩,
    ⟨⟨1⟩, ⟨"string", "strings"⟩, .string, none, none⟩,
    ⟨⟨2⟩, ⟨"boolean", "booleans"⟩, .boolean, some Standard.boolean?, none⟩]⟩
  conversions := History.spelledOut.graph .builtin
  expressions := ⟨[⟨"greeting", .string, 1, [(0, .literal "hello".toList)],
    fun o => .ok (.literal .string [.string "hello"] o.source), Phrase.defaultPriority⟩], 0⟩
  effects := ⟨[], 0⟩

/-- Numbers may be of use as strings because integers are. The greeting is of no use as a truth value. And
for a string no truth values are read, nor would it help. -/
theorem compatible_of_use_greeting :
    greeting.conversions.mayConvert .number .string = true ∧
    (0 ∉ greeting.expressions.candidates greeting.fresh.expressions (greeting.compatible · .boolean) ∧
      greeting.conversions.convert? (.string "hello") .boolean = none) ∧
    literalValue? ⟨⟨2⟩, ⟨"boolean", "booleans"⟩, .boolean, some Standard.boolean?, none⟩ "true".toList =
      some (.boolean true) ∧
    greeting.literal? "true".toList .string = greeting.anyLiteral? "true".toList .string := by
  obtain ⟨huse, hcandidates, hliteral⟩ := compatible_of_use greeting
  have hskipped :
      0 ∉ greeting.expressions.candidates greeting.fresh.expressions (greeting.compatible · .boolean) := by
    decide +kernel
  refine ⟨?_, ⟨hskipped, ?_⟩, rfl, ?_⟩
  · exact huse .number .string (.integer 7) rfl rfl
  · exact hcandidates _ .boolean 0 _ rfl hskipped (.string "hello") rfl
  · refine hliteral "true".toList .string fun t ht v hv => ?_
    simp only [greeting, List.mem_cons, List.not_mem_nil, or_false] at ht
    rcases ht with rfl | rfl | rfl
    · cases (show none = some v from hv)
    · cases (show none = some v from hv)
    · cases (show some (.boolean true) = some v from hv)
      rfl

end Phrasebook.Book
