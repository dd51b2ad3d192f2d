import Phrasebook.Proofs.Matching.Ends
import Phrasebook.Proofs.Phrase
import Phrasebook.Proofs.Resolution.Found
import Phrasebook.Proofs.Resolution.Nesting
import Phrasebook.Proofs.Standard.Book
import Phrasebook.Proofs.Text.ListText

/-!
Printing strings. A text in quotes is read as a literal, by the type for strings and by no other; several
of them with separators between them are no literal, and are cut at just these separators. So the phrase
for printing is given one expression whose values are the strings.
-/

namespace Phrasebook.Standard

open Search Matching

/-! ## Strings in a text -/

/-- The strings in quotes, as a list of which all are meant. -/
def quotedList (ss : List String) : Text :=
  Expression.listText "and".toList (ss.map fun s => Text.inQuotes s.toList)

section

variable {ss : List String} (hquote : ∀ s ∈ ss, '"' ∉ s.toList)

include hquote

theorem indivisible_of_mem : ∀ p ∈ ss.map fun s => Text.inQuotes s.toList, Text.Indivisible p := by
  intro p hp
  obtain ⟨s, hs, rfl⟩ := List.mem_map.1 hp
  exact Text.indivisible_inQuotes (hquote s hs)

theorem trim_quotedList (hne : ss ≠ []) : Text.trim (quotedList ss) = quotedList ss :=
  Text.trim_listText _ (by simpa using hne) (indivisible_of_mem hquote)

end

section

variable [RegexEngine] {settings : Settings}

/-! ## Literals -/

/-- Only the type for strings reads a text that begins with a quote. -/
theorem literalValue?_quote {t : ValueType} (ht : t ∈ (book settings).types.types) (u : Text) :
    Book.literalValue? t ('"' :: u) =
      if t.kind = .string then (Text.unquoted? ('"' :: u)).map fun s => .string (String.ofList s)
      else none := by
  have hdigit : Char.isDigit '"' = false := by decide
  have hinteger : integer? ('"' :: u) = none := by
    simp [integer?, natural?, hdigit]
  have hdecimal : decimal? ('"' :: u) = none := by
    simp [decimal?, hdigit]
  have hboolean : boolean? ('"' :: u) = none := boolean?_eq_none (by decide) (by decide)
  have hother (c : ClassId) (hc : c ≠ .string) (v : Option Value) :
      (if c = .string then v else none) = none := if_neg hc
  have hmem : (t.kind, t.parse?) ∈ (book settings).types.types.map fun t => (t.kind, t.parse?) :=
    List.mem_map_of_mem ht
  rw [readers_book] at hmem
  unfold Book.literalValue? ValueType.parses ValueType.parse
  simp only [List.mem_cons, Prod.mk.injEq, List.not_mem_nil, or_false] at hmem
  rcases hmem with ⟨hkind, hparse⟩ | ⟨hkind, hparse⟩ | ⟨hkind, hparse⟩ | ⟨hkind, hparse⟩ |
    ⟨hkind, hparse⟩ | ⟨hkind, hparse⟩ <;> rw [hkind, hparse]
  · rfl
  · simp [number?, hinteger, hdecimal, hother .number (by decide)]
  · simp [hinteger, hother .integer (by decide)]
  · simp [hdecimal, hother .decimal (by decide)]
  · rfl
  · simp [hboolean, hother .boolean (by decide)]

/-- A text that begins with a quote is a literal if all of it stands between quotes. -/
theorem literal?_quote (u : Text) :
    (book settings).literal? ('"' :: u) .string = (Text.unquoted? ('"' :: u)).map fun s =>
      .literal .string [.string (String.ofList s)] ('"' :: u) := by
  have hread : ∀ t ∈ (book settings).types.types, (do
      guard ((book settings).compatible t.kind .string)
      let v ← Book.literalValue? t ('"' :: u)
      let v ← (book settings).conversions.convert? v .string
      some (Expression.literal v.kind [v] ('"' :: u))) =
        if t.kind = .string then (Text.unquoted? ('"' :: u)).map fun s =>
          .literal .string [.string (String.ofList s)] ('"' :: u)
        else none := by
    intro t ht
    rw [literalValue?_quote ht]
    split
    · rename_i hkind
      cases hunquoted : Text.unquoted? ('"' :: u) with
      | none => simp
      | some s =>
        have hstring : (book settings).conversions.convert? (.string (String.ofList s)) .string =
            some (.string (String.ofList s)) := convert?_of_isAssignable rfl
        have hcompatible : (book settings).compatible .string .string = true :=
          compatible_of_isAssignable (by decide)
        simp [hkind, hcompatible, hstring, guard]
        rfl
    · simp
  obtain ⟨t, ht, hkind⟩ : ∃ t ∈ (book settings).types.types, t.kind = .string := by
    have hmem : (ClassId.string, none) ∈ (book settings).types.types.map fun t => (t.kind, t.parse?) := by
      rw [readers_book]
      simp
    obtain ⟨t, ht, h⟩ := List.mem_map.1 hmem
    exact ⟨t, ht, (Prod.mk.inj h).1⟩
  unfold Book.literal?
  generalize hfound : List.findSome? _ _ = found
  cases found with
  | none =>
    have hnone := List.findSome?_eq_none_iff.1 hfound t ht
    rw [hread t ht, if_pos hkind] at hnone
    exact hnone.symm
  | some e =>
    obtain ⟨t', ht', hsome⟩ := List.exists_of_findSome?_eq_some hfound
    rw [hread t' ht'] at hsome
    split at hsome
    · exact hsome.symm
    · cases hsome

theorem literal?_inQuotes {t : Text} (ht : '"' ∉ t) :
    (book settings).literal? (Text.inQuotes t) .string =
      some (.literal .string [.string (String.ofList t)] (Text.inQuotes t)) := by
  have hquoted : Text.unquoted? ('"' :: (t ++ ['"'])) = some t := Text.unquoted?_inQuotes ht
  have h := @literal?_quote _ settings (t ++ ['"'])
  rwa [hquoted] at h

/-! ## Lists -/

theorem step_inQuotes {s : String} (hs : '"' ∉ s.toList) (resolve : Resolver) (enclosing : List Frame) :
    Yields (·.values = [.string s])
      ((book settings).step resolve (Text.inQuotes s.toList) strings .both enclosing) := by
  have h := Text.indivisible_inQuotes hs
  have hliteral := @literal?_inQuotes _ settings _ hs
  rw [← @classOf_strings _ settings, String.ofList_toList] at hliteral
  exact Book.step_yields_literal (Q := (·.values = [.string s])) h.trimmed h.nonempty rfl hliteral rfl
    enclosing

section

variable {ss : List String} (hquote : ∀ s ∈ ss, '"' ∉ s.toList)

include hquote

theorem asList_quotedList (hl : 2 ≤ ss.length) {resolve : Resolver} {enclosing : List Frame}
    (h : ∀ s ∈ ss, Yields (·.values = [.string s])
      (resolve (Text.inQuotes s.toList) strings .both enclosing)) :
    Yields (·.values = ss.map .string)
      ((book settings).asList resolve (quotedList ss) strings .both enclosing) := by
  have hsplit : Text.splitList? (quotedList ss) = some (ss.map fun s => Text.inQuotes s.toList, true) :=
    Text.splitList?_listText (by decide) (by simpa using hl) (indivisible_of_mem hquote)
  have hvalues {items : List Expression}
      (hitems : List.Forall₂ (fun (s : String) e => e.values = [.string s]) ss items) :
      items.flatMap (·.values) = ss.map .string := by
    clear h hquote hl hsplit
    induction hitems with
    | nil => rfl
    | cons he _ ih => rw [List.flatMap_cons, he, ih, List.map_cons, List.singleton_append]
  unfold Book.asList
  refine Yields.bind (.ofOption hsplit rfl) ?_
  rintro _ rfl
  dsimp only
  rw [every_map]
  exact (Yields.every h).bind fun items hitems => .pure (hvalues hitems)

/-- One string is read as a literal, and more than one as a list of such. -/
theorem resolver_quotedList (hne : ss ≠ []) {bottom : Resolver} {n : Nat} (hn : 2 ≤ n)
    (enclosing : List Frame) :
    Yields (·.values = ss.map .string)
      ((book settings).resolverFrom bottom n (quotedList ss) strings .both enclosing) := by
  obtain ⟨n, rfl⟩ := Nat.exists_eq_add_of_le' hn
  match ss with
  | [] => exact absurd rfl hne
  | [s] => exact step_inQuotes (hquote s (by simp)) _ enclosing
  | s :: s' :: rest =>
    have hparts := indivisible_of_mem hquote
    obtain ⟨more, htext, -, hmore⟩ := Text.listText_cons "and".toList (Text.inQuotes s.toList)
      ((s' :: rest).map fun s => Text.inQuotes s.toList)
    have hmore := hmore (by simp)
    have hunquoted := Text.unquoted?_append_eq_none s.toList hmore
    have htext : quotedList (s :: s' :: rest) = '"' :: (s.toList ++ ['"'] ++ more) := htext
    have hliteral : (book settings).literal? (quotedList (s :: s' :: rest))
        ((book settings).classOf strings) = none := by
      rw [classOf_strings, htext, literal?_quote]
      exact congrArg (Option.map _) hunquoted
    refine Book.step_yields_list (trim_quotedList hquote hne) (by simp [htext]) (by rw [htext]; rfl)
      hliteral rfl ?_
    exact asList_quotedList hquote (by simp) fun s hs => step_inQuotes (hquote s hs) _ enclosing

end

/-! ## The phrase for printing -/

/-- The phrase for printing is given all that follows the word. -/
theorem node_print {resolve : Resolver} {P : Expression → Prop} {text : Text} {enclosing : List Frame}
    (htrim : Text.trim text = text) (hne : text ≠ [])
    (h : ∀ f : Frame, f.source = "print ".toList ++ text →
      Yields P (resolve text strings .both (f :: enclosing))) :
    Yields (fun x => x.1 = Text.width ("print ".toList ++ text) ∧
        ∃ effect, makePrint (x.2.finish 0) = .ok effect ∧ ∃ e, effect.expressions = [e] ∧ P e)
      (node resolve printPattern [] 0 (.start ("print ".toList ++ text) enclosing)) := by
  have hliteral : Text.after? ("print ".toList ++ text) 0 = some ("print ".toList ++ text) :=
    Text.after?_eq_some_iff.2 ⟨[], rfl, rfl⟩
  have hafter : Text.after? ("print ".toList ++ text) 6 = some text :=
    Text.after?_eq_some_iff.2 ⟨"print ".toList, rfl, rfl⟩
  have hstart : Text.skipBlank ("print ".toList ++ text) 6 = 6 := by
    obtain ⟨c, u, rfl⟩ := List.exists_cons_of_ne_nil hne
    exact Text.skipBlank_of_not_blank hafter (Text.not_blank_head_of_trimmed htrim c rfl)
  have hcandidate : Text.between? ("print ".toList ++ text) 6 (Text.width ("print ".toList ++ text)) =
      some text :=
    Text.between?_eq_some_iff.2 ⟨"print ".toList, [], by simp, rfl, by rw [Text.width_append]; rfl⟩
  have htail : Tail.boundaries [[]] = [] ++ .textEnd :: [] := rfl
  unfold printPattern
  rw [node]
  refine parts_yields (literal_yields hliteral (by decide) fun c hc => by cases hc; rfl) ?_
  rintro _ _ ⟨⟩
  refine parts_yields (slot_yields (P := P) htail hstart (by simp) rfl hcandidate
    (resolveSlot_yields htrim hne (h _ rfl))) ?_
  rintro _ _ ⟨e, he, ⟨⟩⟩
  rw [parts]
  exact .pure ⟨rfl, print e, rfl, e, rfl, he⟩

/-- What follows the word is all that matters, whatever was of use before. -/
theorem parseEffectBy_print {resolve : Resolver} {P : Expression → Prop} {text : Text}
    (htrim : Text.trim text = text) (hne : text ≠ [])
    (h : ∀ f : Frame, f.source = "print ".toList ++ text → Yields P (resolve text strings .both [f])) :
    Yields (fun effect => ∃ e, effect.expressions = [e] ∧ P e)
      ((book settings).parseEffectBy resolve ("print ".toList ++ text)) := by
  have htrim' : Text.trim ("print ".toList ++ text) = "print ".toList ++ text := by
    refine Text.trim_eq_self (by simp) (fun c hc => by cases hc; rfl) ?_
    rw [List.getLast?_append_of_ne_nil _ hne]
    exact Text.not_blank_last_of_trimmed htrim
  have hadmits : (book settings).effects.admits (fun _ => true) 0 = true := by
    rw [PhraseTable.admits, effects_book]
    rfl
  unfold Book.parseEffectBy
  dsimp only
  rw [htrim']
  refine Yields.orElse_left ?_ _
  unfold Book.effectByPhrase
  rw [if_neg (by simp)]
  refine Yields.session.bind fun s _ => ?_
  refine .first_of_mem (PhraseTable.mem_candidates.2 hadmits) (fun id hid => ?_) ?_
  · have hnone : (book settings).effects.phrases[id]? = none := by
      rw [effects_book, List.getElem?_eq_none]
      exact Nat.one_le_iff_ne_zero.2 hid
    exact (Misses.ofOption hnone).bind _
  · have hprint : (book settings).effects.phrases[0]? = some printPhrase := by rw [effects_book]; rfl
    refine Yields.bind (.ofOption hprint rfl) ?_
    rintro _ rfl
    refine (Book.tryPhrase_yields rfl (node_print htrim hne h)).bind fun effect heffect => ?_
    exact (Yields.change _).bind fun _ _ => .pure heffect

/-- Printing strings in quotes is understood in every session, whatever was of use before: the effect has
one expression, and its values are the strings in order. -/
theorem parseEffect_print [RegexEngine.Lawful] (settings : Settings) (ss : List String) (hne : ss ≠ [])
    (hquote : ∀ s ∈ ss, '"' ∉ s.toList) (session : Session) : ∃ effect e session',
      (book settings).parseEffect ("print ".toList ++ quotedList ss) session = (.found effect, session') ∧
        effect.expressions = [e] ∧ e.values = ss.map .string := by
  have htrim := trim_quotedList hquote hne
  have hnonempty : quotedList ss ≠ [] := by
    obtain ⟨s, ss, rfl⟩ := List.exists_cons_of_ne_nil hne
    obtain ⟨rest, h, -⟩ := Text.listText_cons "and".toList (Text.inQuotes s.toList)
      (ss.map fun s => Text.inQuotes s.toList)
    exact fun hnil => by cases h.symm.trans hnil
  have hdepth : 2 ≤ Book.nestingBound ("print ".toList ++ quotedList ss) := Nat.le_add_left _ _
  let resolve := (book settings).resolverFrom (fun _ _ _ _ => failure)
    (Book.nestingBound ("print ".toList ++ quotedList ss))
  have hfound : Yields (fun effect => ∃ e, effect.expressions = [e] ∧ e.values = ss.map .string)
      ((book settings).parseEffectBy resolve ("print ".toList ++ quotedList ss)) :=
    parseEffectBy_print htrim hnonempty fun f _ => resolver_quotedList hquote hne hdepth [f]
  rw [(Book.parseEffect_wellNested _).settled _ _ le_rfl] at hfound
  obtain ⟨effect, heffect, e, he, hvalues⟩ := hfound session
  rcases hrun : (book settings).parseEffect ("print ".toList ++ quotedList ss) session with ⟨o, session'⟩
  rw [hrun] at heffect
  cases heffect
  exact ⟨effect, e, session', rfl, he, hvalues⟩

end

/-- Separators, parentheses and lines within strings, and a string without characters. -/
def peculiar : List String := ["a, b and (c", "", "\\) or\nnor"]

theorem parseEffect_print_peculiar :
    (peculiar ≠ [] ∧ ∀ s ∈ peculiar, '"' ∉ s.toList) ∧
      quotedList peculiar = "\"a, b and (c\", \"\" and \"\\) or\nnor\"".toList ∧
      ∃ effect e session', (book {}).parseEffect ("print ".toList ++ quotedList peculiar) (book {}).fresh =
          (.found effect, session') ∧
        effect.expressions = [e] ∧ e.values = peculiar.map .string := by
  have hquote : ∀ s ∈ peculiar, '"' ∉ s.toList := by decide
  exact ⟨⟨by decide, hquote⟩, by decide, parseEffect_print {} peculiar (by decide) hquote (book {}).fresh⟩

end Phrasebook.Standard
