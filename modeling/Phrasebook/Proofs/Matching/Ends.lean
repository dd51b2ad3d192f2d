import Phrasebook.Matching.Greedy
import Phrasebook.Proofs.Search
import Phrasebook.Proofs.Text.Case

/-!
Parts of a pattern that are certain to end at one place. A slot ends at the first of its boundaries that
has a place, if what stands in front of it can be resolved; of the branches of a choice the first one that
does not miss is taken.
-/

namespace Phrasebook

namespace Text

/-- A word is not found where no character agrees with its first one. -/
theorem spacedOccurrence?_eq_none {w : Char} {ws t : Text} {before after : Bool}
    {previous : Option Char} (h : ∀ c ∈ t, sameLetter c w = false) :
    spacedOccurrence? (w :: ws) before after previous t = none := by
  induction t generalizing previous with
  | nil => rfl
  | cons c t ih =>
    have hc : agreeing? (w :: ws) (c :: t) = none := by
      rw [agreeing?, if_neg (by simp [h c List.mem_cons_self])]
    rw [spacedOccurrence?, hc, ih fun d hd => h d (List.mem_cons_of_mem c hd)]
    rfl

/-- A sign is found where it stands first. -/
theorem spacedOccurrence?_sign {w c : Char} {s t : Text} {previous : Option Char}
    (hs : ∀ d ∈ s, sameLetter d w = false) (hc : sameLetter c w = true) :
    spacedOccurrence? [w] false false previous (s ++ c :: t) = some (width s) := by
  induction s generalizing previous with
  | nil =>
    have hhere : agreeing? [w] (c :: t) = some (c.utf8Size + 0) := by
      rw [agreeing?, if_pos hc]
      rfl
    rw [List.nil_append, spacedOccurrence?, hhere]
    rfl
  | cons d s ih =>
    have hd : agreeing? [w] (d :: (s ++ c :: t)) = none := by
      rw [agreeing?, if_neg (by simp [hs d List.mem_cons_self])]
    rw [List.cons_append, spacedOccurrence?, hd, ih fun e he => hs e (List.mem_cons_of_mem d he)]
    rfl

end Text

theorem Boundary.place?_word_eq_none [RegexEngine] {t : Text} {w : Char} {ws : Text} {before after : Bool}
    (h : ∀ c ∈ t, Text.sameLetter c w = false) :
    (Boundary.word (w :: ws) before after).place? t 0 = none := by
  have hcut : t.cut? 0 = some ([], t) := Text.cut?_append [] t
  simp only [place?, Text.findSpaced?, hcut, Option.bind_eq_bind, Option.bind_some,
    Text.spacedOccurrence?_eq_none h, Option.bind_none]

theorem Boundary.place?_sign [RegexEngine] {s t : Text} {w c : Char}
    (hs : ∀ d ∈ s, Text.sameLetter d w = false) (hc : Text.sameLetter c w = true) :
    (Boundary.word [w] false false).place? (s ++ c :: t) 0 = some s.width := by
  have hcut : (s ++ c :: t).cut? 0 = some ([], s ++ c :: t) := Text.cut?_append [] _
  simp only [place?, Text.findSpaced?, hcut, Option.bind_eq_bind, Option.bind_some,
    Text.spacedOccurrence?_sign hs hc, Nat.zero_add]

namespace Matching

open Search

variable [RegexEngine] {resolve : Resolver} {tail : Tail} {a : Attempt} {i start stop : Nat}

/-! ## Literals -/

theorem blank_yields {t : Text} (ht : Text.trim t = []) (hi : a.source.skipBlank i = stop) :
    Yields (· = (stop, a)) (node resolve (.literal t) tail i a) := by
  have hend : literalEnd t a.source i = pure stop := by
    unfold literalEnd
    rw [if_pos ht, hi]
  rw [node, hend]
  exact .pure rfl

/-- A literal ends behind itself where the text is written as it is. -/
theorem literal_yields {t rest : Text} (hsource : a.source.after? i = some (t ++ rest))
    (ht : Text.trim t ≠ []) (hhead : ∀ c ∈ t.head?, Text.isBlank c = false) :
    Yields (· = (i + t.width, a)) (node resolve (.literal t) tail i a) := by
  obtain ⟨c, u, hc⟩ : ∃ c u, t = c :: u := by
    refine List.exists_cons_of_ne_nil ?_
    rintro rfl
    exact ht rfl
  have hnotblank : Text.isBlank c = false := hhead c (by rw [hc]; rfl)
  have hstart : a.source.skipBlank i = i :=
    Text.skipBlank_of_not_blank (hsource.trans (by rw [hc]; rfl)) hnotblank
  obtain ⟨b, hb⟩ : ∃ b, b = (t.reverse.takeWhile Text.isBlank).reverse := ⟨_, rfl⟩
  have hblank : ∀ d ∈ b, Text.isBlank d = true := by
    intro d hd
    rw [hb, List.mem_reverse] at hd
    exact List.mem_takeWhile_imp hd
  have hsplit : t = Text.trim t ++ b := by
    have htrim : Text.trim t = (t.reverse.dropWhile Text.isBlank).reverse := by
      have hstart : Text.trimStart t = t := by
        rw [Text.trimStart, hc, List.dropWhile_cons_of_neg (by simp [hnotblank])]
      rw [Text.trim, hstart, Text.trimEnd]
    rw [htrim, hb, ← List.reverse_append, List.takeWhile_append_dropWhile, List.reverse_reverse]
  have hoccurs : a.source.occursAt? i (Text.trim t) = some (i + (Text.trim t).width) := by
    rw [Text.occursAt?, hsource]
    simp only [Option.bind_eq_bind, Option.bind_some]
    rw [show t ++ rest = Text.trim t ++ (b ++ rest) by rw [← List.append_assoc, ← hsplit],
      Text.agreeing?_append]
    rfl
  have hafter : a.source.after? (i + (Text.trim t).width) = some (b ++ rest) := by
    obtain ⟨front, hfront, rfl⟩ := Text.after?_eq_some_iff.1 hsource
    refine Text.after?_eq_some_iff.2 ⟨front ++ Text.trim t, ?_, Text.width_append _ _⟩
    rw [hfront, List.append_assoc, ← List.append_assoc (Text.trim t), ← hsplit]
  have htrailing : ((b ++ rest).takeWhile Text.isBlank).take
      (t.reverse.takeWhile Text.isBlank).length = b := by
    rw [List.takeWhile_append_of_pos hblank]
    exact List.take_left' (by rw [hb, List.length_reverse])
  have hend : literalEnd t a.source i = pure (i + t.width) := by
    unfold literalEnd
    simp only [hstart, if_neg ht, hoccurs, ofOption_some_bind, hafter, cut_some_bind, htrailing]
    rw [Nat.add_assoc, ← Text.width_append, ← hsplit]
  rw [node, hend]
  exact .pure rfl

section

variable {w c : Char} {rest : Text} (hw : Text.isBlank w = false) (hc : Text.isBlank c = false)
  (hrest : a.source.after? i = some (c :: rest))

include hw hc hrest

/-- A sign that stands just here. -/
theorem sign_yields (hcw : Text.sameLetter c w = true) (hstop : i + c.utf8Size = stop) :
    Yields (· = (stop, a)) (node resolve (.literal [w]) tail i a) := by
  have hoccurs : a.source.occursAt? i [w] = some (i + c.utf8Size) := by
    rw [Text.occursAt?, hrest]
    simp [Text.agreeing?, hcw]
  have hafter : a.source.after? (i + c.utf8Size) = some rest := by
    obtain ⟨b, hb, rfl⟩ := Text.after?_eq_some_iff.1 hrest
    exact Text.after?_eq_some_iff.2 ⟨b ++ [c], by simp [hb], by simp⟩
  have hend : literalEnd [w] a.source i = pure (i + c.utf8Size) := by
    unfold literalEnd
    simp only [Text.trim_singleton hw, Text.skipBlank_of_not_blank hrest hc, hoccurs, ofOption_some_bind,
      hafter]
    simp [hw]
    rfl
  rw [node, hend, hstop]
  exact .pure rfl

theorem sign_misses (hcw : Text.sameLetter c w = false) :
    Misses (node resolve (.literal [w]) tail i a) := by
  have hoccurs : a.source.occursAt? i [w] = none := by
    rw [Text.occursAt?, hrest]
    simp [Text.agreeing?, hcw]
  have hend : Misses (literalEnd [w] a.source i) := by
    unfold literalEnd
    simp only [Text.trim_singleton hw, Text.skipBlank_of_not_blank hrest hc, hoccurs]
    exact Misses.bind .failure _
  rw [node]
  exact hend.bind _

end

/-! ## Slots -/

omit [RegexEngine] in
theorem resolveSlot_yields {P : Expression → Prop} {type : SlotType} {accepts : Acceptance}
    {chain : List Frame} {candidate text : Text} (htext : Text.trim candidate = text) (hne : text ≠ [])
    (h : Yields P (resolve text type accepts chain)) :
    Yields P (resolveSlot resolve [type] accepts chain candidate) := by
  unfold resolveSlot
  dsimp only
  rw [htext, if_neg hne]
  exact h.orElse_left _

theorem slot_yields {P : Expression → Prop} {types : List SlotType} {accepts : Acceptance}
    {nullable : Bool} {before after : List Boundary} {b : Boundary} {candidate : Text}
    (htail : tail.boundaries = before ++ b :: after) (hi : a.source.skipBlank i = start)
    (hbefore : ∀ c ∈ before, c.place? a.source start = none) (hb : b.place? a.source start = some stop)
    (hcandidate : a.source.between? start stop = some candidate)
    (h : Yields P (resolveSlot resolve types accepts a.chain candidate)) :
    Yields (fun x => ∃ e, P e ∧ x = (stop, a.addExpression e))
      (node resolve (.slot types accepts nullable) tail i a) := by
  have hend : Yields (fun x => x.1 = stop ∧ P x.2) (slotEnd resolve types accepts tail a i) := by
    unfold slotEnd
    dsimp only
    rw [hi, htail]
    refine Yields.orElse_left (.first (fun c hc => ?_) ?_) _
    · exact (Misses.ofOption (hbefore c hc)).bind _
    · refine Yields.bind (.ofOption hb rfl) ?_
      rintro _ rfl
      refine Yields.bind (.cut hcandidate rfl) ?_
      rintro _ rfl
      exact h.bind fun e he => .pure ⟨rfl, he⟩
  rw [node]
  refine hend.bind ?_
  rintro ⟨_, e⟩ ⟨rfl, he⟩
  exact .pure ⟨e, he, rfl⟩

/-! ## Choices and sequences -/

/-- The first branch that does not miss; it adds its mark. -/
theorem choice_yields {before after : List (Int32 × Pattern)} {mark : Int32} {p : Pattern}
    {b : Attempt} (hbefore : ∀ c ∈ before, Misses (node resolve c.2 tail i a.branch))
    (h : Yields (· = (stop, b)) (node resolve p tail i a.branch)) :
    Yields (· = (stop, (a.merge b.findings).addMark mark))
      (node resolve (.choice (before ++ (mark, p) :: after)) tail i a) := by
  rw [node]
  induction before with
  | nil =>
    rw [List.nil_append, branches]
    refine Yields.orElse_left (h.bind ?_) _
    rintro _ rfl
    exact .pure rfl
  | cons c before ih =>
    rw [List.cons_append, branches]
    refine Misses.orElse_yields ((hbefore c List.mem_cons_self).bind _) ?_
    exact ih fun d hd => hbefore d (List.mem_cons_of_mem c hd)

theorem parts_yields {P Q : Nat × Attempt → Prop} {p : Pattern} {ps : List Pattern}
    (h : Yields P (node resolve p (ps :: tail) i a))
    (hps : ∀ j b, P (j, b) → Yields Q (parts resolve ps tail j b)) :
    Yields Q (parts resolve (p :: ps) tail i a) := by
  rw [parts]
  exact h.bind fun x hx => hps x.1 x.2 hx

end Matching

end Phrasebook
