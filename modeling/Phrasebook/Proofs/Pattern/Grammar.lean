import Phrasebook.Proofs.Pattern.WellFormed
import Phrasebook.Proofs.Text.Brackets

/-!
The grammar of patterns without regular expressions, and what its texts look like from outside.

    pattern  = items | branch '|' branch … '|' branch
    branch   = [ digits mark-sign ] items
    items    = { run | '(' branches ')' | '[' branches ']' | '%' slot '%' }
    slot     = [ '-' ] [ '*' | '~' ] name { '/' name }
    run      = { plain character | '\' character }

Runs are as long as they can be, and digits in front of the mark sign at the beginning of a branch are
always its mark. A text of the grammar is made of brackets that match and of characters that the scans
for brackets do not mind, so the scans pass over it.
-/

namespace Phrasebook

namespace Text

/-- Whether every closing bracket closes the one that was opened last and none stays open; `awaited`
lists what would close the brackets that are open, the innermost first. -/
def bracketsMatch : (awaited : List Char) → Text → Bool
  | awaited, [] => awaited.isEmpty
  | awaited, c :: t =>
    match bracketPairs.lookup c with
    | some closer => bracketsMatch (closer :: awaited) t
    | none =>
      if bracketPairs.any (·.2 == c) then awaited.head? == some c && bracketsMatch awaited.tail t
      else bracketsMatch awaited t

/-- The brackets that are not escaped match. -/
def Matched (t : Text) : Prop := bracketsMatch [] (unescaped t) = true

/-- The text does not end within an escape, and its brackets match one another. -/
structure Closed (t : Text) : Prop where
  escapes : escapesEnd t = true
  brackets : ∀ awaited rest, bracketsMatch awaited (unescaped t ++ rest) = bracketsMatch awaited rest

namespace Closed

variable {s t : Text}

theorem matched (h : Closed t) : Matched t := by
  have := h.brackets [] []
  rwa [List.append_nil] at this

theorem nil : Closed [] := ⟨rfl, fun _ _ => rfl⟩

theorem escape (c : Char) : Closed ['\\', c] := ⟨rfl, fun _ _ => rfl⟩

theorem append (hs : Closed s) (ht : Closed t) : Closed (s ++ t) where
  escapes := by rw [escapesEnd_append hs.escapes, ht.escapes]
  brackets awaited rest := by
    rw [unescaped_append hs.escapes, List.append_assoc, hs.brackets, ht.brackets]

/-- A character that is neither a bracket nor a backslash. -/
theorem single {c : Char} (hs : c ≠ '\\') (hc : depthChange c = 0) : Closed [c] where
  escapes := by rw [escapesEnd_cons hs]; rfl
  brackets awaited rest := by
    have hopen : bracketPairs.lookup c = none := by
      rw [List.lookup_eq_none_iff]
      intro pair hp
      simp only [bracketPairs, List.mem_cons, List.not_mem_nil, or_false] at hp
      rcases hp with rfl | rfl | rfl <;> simp only [bne_iff_ne] <;> rintro rfl <;>
        simp [depthChange] at hc
    have hclose : bracketPairs.any (·.2 == c) = false := by
      rw [List.any_eq_false]
      intro pair hp
      simp only [bracketPairs, List.mem_cons, List.not_mem_nil, or_false] at hp
      rcases hp with rfl | rfl | rfl <;> simp only [beq_iff_eq] <;> rintro rfl <;>
        simp [depthChange] at hc
    rw [unescaped_cons hs]
    simp [unescaped, bracketsMatch, hopen, hclose]

theorem join {parts : List Text} (h : ∀ p ∈ parts, Closed p) : Closed (Text.join ['|'] parts) := by
  induction parts with
  | nil => exact nil
  | cons p ps ih =>
    have ih := ih fun r hr => h r (by simp [hr])
    cases ps with
    | nil => exact h p (by simp)
    | cons q qs => exact ((h p (by simp)).append (single (by decide) (by decide))).append ih

theorem bracket {opener closer : Char} (hp : (opener, closer) ∈ bracketPairs) (h : Closed t) :
    Closed (opener :: t ++ [closer]) := by
  have hne : opener ≠ '\\' ∧ closer ≠ '\\' ∧ bracketPairs.lookup opener = some closer ∧
      bracketPairs.lookup closer = none ∧ bracketPairs.any (·.2 == closer) = true := by
    simp only [bracketPairs, List.mem_cons, List.not_mem_nil, or_false, Prod.mk.injEq] at hp
    rcases hp with ⟨rfl, rfl⟩ | ⟨rfl, rfl⟩ | ⟨rfl, rfl⟩ <;> decide
  obtain ⟨ho, hc, hopen, hclose, hany⟩ := hne
  refine ⟨?_, fun awaited rest => ?_⟩
  · rw [List.cons_append, escapesEnd_cons ho, escapesEnd_append h.escapes, escapesEnd_cons hc]
    rfl
  · rw [List.cons_append, unescaped_cons ho, unescaped_append h.escapes, unescaped_cons hc,
      List.cons_append, List.append_assoc, bracketsMatch, hopen]
    simp [h.brackets, unescaped, bracketsMatch, hclose, hany]

end Closed

/-- What holds of escapes, of characters that the scans do not mind and of brackets around parts that
have it, and of two texts in a row if it holds of both. -/
structure Composes (Q : Text → Prop) : Prop where
  nil : Q []
  append : ∀ s t, Q s → Q t → Q (s ++ t)
  escape : ∀ c, Q ['\\', c]
  plain : ∀ c, isScanned c = false → Q [c]
  bracket : ∀ opener closer, (opener, closer) ∈ bracketPairs → ∀ parts, (∀ p ∈ parts, Q p) →
    Q (opener :: Text.join ['|'] parts ++ [closer])

theorem composes_sealed : Composes (Sealed 0) where
  nil := .nil
  append _ _ hs ht := hs.append ht
  escape := .escape
  plain _ h := .plain h
  bracket _ _ hp _ h := .bracket hp (sealed_join h)

theorem composes_closed : Composes Closed where
  nil := .nil
  append _ _ hs ht := hs.append ht
  escape := .escape
  plain _ h := .single (isScanned_eq_false.1 h).1 (isScanned_eq_false.1 h).2.2
  bracket _ _ hp _ h := .bracket hp (.join h)

theorem Composes.of_plain {Q : Text → Prop} (hQ : Composes Q) {t : Text}
    (h : ∀ c ∈ t, isScanned c = false) : Q t := by
  induction t with
  | nil => exact hQ.nil
  | cons c t ih =>
    have hc : Q [c] := hQ.plain c (h c (by simp))
    exact hQ.append [c] t hc (ih fun d hd => h d (by simp [hd]))

end Text

namespace Pattern

/-! ## The grammar -/

section

variable [RegexEngine]

/-- Whether the character stands for itself in a pattern. -/
def isPlain (c : Char) : Bool := !(['[', ']', '(', ')', '<', '>', '%', '|', '\\'].contains c)

/-- Characters that stand for themselves or follow a backslash, and what they stand for. -/
inductive Run : Text → Text → Prop
  | nil : Run [] []
  | plain {c : Char} {s t : Text} (h : isPlain c = true) (more : Run s t) : Run (c :: s) (c :: t)
  | escape {s t : Text} (c : Char) (more : Run s t) : Run ('\\' :: c :: s) (c :: t)

/-- What stands between slashes in a slot, and the type that it means. -/
structure Names (types : TypeNames) (name : Text) (t : SlotType) : Prop where
  nonempty : name ≠ []
  word : ∀ c ∈ name, Text.isWord c = true
  known : types (String.ofList name) = some t

/-- What stands between the percent signs of a slot, and the slot. -/
inductive SlotText (types : TypeNames) : Text → Pattern → Prop
  | names {names : List Text} {ts : List SlotType} (some : names ≠ [])
      (named : List.Forall₂ (Names types) names ts) (nullable : Bool) (accepts : Acceptance) :
      SlotText types
        ((if nullable then ['-'] else []) ++ acceptanceText accepts ++ Text.join ['/'] names)
        (.slot ts accepts nullable)

/-- The text begins with digits, of whatever script, and the mark sign. -/
def Marked (t : Text) : Prop :=
  ∃ digits rest, digits ≠ [] ∧ (∀ c ∈ digits, Text.isDigit c = true) ∧
    t = digits ++ markSign :: rest

/-- A branch as it is written: the digits of its mark, if it has one, then its items, with the parts
that they stand for. -/
structure WrittenBranch where
  mark : Option Text
  items : Text
  parts : List Pattern

namespace WrittenBranch

def text (b : WrittenBranch) : Text :=
  match b.mark with
  | none => b.items
  | some digits => digits ++ markSign :: b.items

/-- A mark is a decimal numeral that is not too large; a branch without one does not look as if it had
one. -/
def Legal (b : WrittenBranch) : Prop :=
  match b.mark with
  | none => ¬ Marked b.items
  | some digits =>
    digits ≠ [] ∧ (∀ c ∈ digits, c.isDigit = true) ∧ Nat.ofDigitChars 10 digits 0 ≤ maxMark

def meaning (b : WrittenBranch) : Int32 × Pattern :=
  match b.mark with
  | none => (0, ofParts b.parts)
  | some digits => (Int32.ofNat (Nat.ofDigitChars 10 digits 0), ofParts b.parts)

end WrittenBranch

def branchesText (bs : List WrittenBranch) : Text := Text.join ['|'] (bs.map (·.text))

/-- What the branches in square brackets mean; one that has no mark stands for its items. -/
def insideOf : List WrittenBranch → Pattern
  | [⟨none, _, parts⟩] => ofParts parts
  | bs => .choice (bs.map (·.meaning))

/-- A text without outer bars, and the parts that it stands for. -/
inductive Items (types : TypeNames) : Text → List Pattern → Prop
  | nil : Items types [] []
  | run {s t rest : Text} {ps : List Pattern} (run : Run s t) (some : t ≠ [])
      (longest : ∀ p ∈ ps.head?, p.isLiteral = false) (more : Items types rest ps) :
      Items types (s ++ rest) (.literal t :: ps)
  | choice {bs : List WrittenBranch} {rest : Text} {ps : List Pattern} (some : bs ≠ [])
      (legal : ∀ b ∈ bs, b.Legal) (branches : ∀ b ∈ bs, Items types b.items b.parts)
      (more : Items types rest ps) :
      Items types ('(' :: branchesText bs ++ ')' :: rest) (.choice (bs.map (·.meaning)) :: ps)
  | optional {bs : List WrittenBranch} {rest : Text} {ps : List Pattern} (some : bs ≠ [])
      (legal : ∀ b ∈ bs, b.Legal) (branches : ∀ b ∈ bs, Items types b.items b.parts)
      (more : Items types rest ps) :
      Items types ('[' :: branchesText bs ++ ']' :: rest) (.optional (insideOf bs) :: ps)
  | slot {spec rest : Text} {p : Pattern} {ps : List Pattern} (slot : SlotText types spec p)
      (more : Items types rest ps) :
      Items types ('%' :: spec ++ '%' :: rest) (p :: ps)

/-- A text of the grammar, and its tree. -/
inductive Derives (types : TypeNames) : Text → Pattern → Prop
  | items {t : Text} {ps : List Pattern} (h : Items types t ps) : Derives types t (ofParts ps)
  | choice {bs : List WrittenBranch} (long : 2 ≤ bs.length) (legal : ∀ b ∈ bs, b.Legal)
      (branches : ∀ b ∈ bs, Items types b.items b.parts) :
      Derives types (branchesText bs) (.choice (bs.map (·.meaning)))

end

/-! ## Characters -/

theorem isSpecial_of_isPlain {c : Char} (h : isPlain c = true) : isSpecial c = (c == markSign) := by
  simp only [isPlain, List.contains_eq_mem, List.mem_cons, List.not_mem_nil, or_false,
    Bool.not_eq_true', decide_eq_false_iff_not, not_or] at h
  simp [isSpecial, h]

theorem isScanned_of_isPlain {c : Char} (h : isPlain c = true) : Text.isScanned c = false := by
  by_cases hc : c = markSign
  · rw [hc]
    decide
  · exact isScanned_of_isSpecial (by rw [isSpecial_of_isPlain h]; simpa using hc)

theorem isScanned_of_isDigit {c : Char} (h : Text.isDigit c = true) : Text.isScanned c = false := by
  refine isScanned_of_isSpecial ?_
  by_contra hs
  rw [isDigit_of_isSpecial (by simpa using hs)] at h
  cases h

theorem mem_join {sep : Text} {parts : List Text} {c : Char} (h : c ∈ Text.join sep parts) :
    c ∈ sep ∨ ∃ p ∈ parts, c ∈ p := by
  induction parts with
  | nil => cases h
  | cons p ps ih =>
    cases ps with
    | nil => exact Or.inr ⟨p, by simp, h⟩
    | cons q qs =>
      simp only [Text.join, List.append_assoc, List.mem_append] at h
      rcases h with h | h | h
      · exact Or.inr ⟨p, by simp, h⟩
      · exact Or.inl h
      · rcases ih h with h | ⟨r, hr, h⟩
        · exact Or.inl h
        · exact Or.inr ⟨r, List.mem_cons_of_mem p hr, h⟩

theorem isWord_of_forall₂_names {types : TypeNames} {names : List Text} {ts : List SlotType}
    (h : List.Forall₂ (Names types) names ts) : ∀ name ∈ names, ∀ c ∈ name, Text.isWord c = true := by
  induction h with
  | nil => simp
  | cons hname _ ih =>
    intro name hmem
    rcases List.mem_cons.1 hmem with rfl | hmem
    · exact hname.word
    · exact ih name hmem

variable [RegexEngine]

/-- What slots are written with, apart from the percent signs. -/
theorem SlotText.forall_mem {types : TypeNames} {spec : Text} {p : Pattern}
    (h : SlotText types spec p) {c : Char} (hc : c ∈ spec) :
    c ∈ ['-', '*', '~', '/'] ∨ Text.isWord c = true := by
  obtain ⟨-, named, nullable, accepts⟩ := h
  simp only [List.mem_append] at hc
  rcases hc with (hc | hc) | hc
  · cases nullable <;> simp_all
  · cases accepts <;> simp_all [acceptanceText]
  · rcases mem_join hc with hc | ⟨name, hname, hc⟩
    · simp_all
    · exact Or.inr (isWord_of_forall₂_names named name hname c hc)

theorem SlotText.isSpecial_of_mem {types : TypeNames} {spec : Text} {p : Pattern}
    (h : SlotText types spec p) {c : Char} (hc : c ∈ spec) : isSpecial c = false := by
  rcases h.forall_mem hc with hc | hc
  · simp only [List.mem_cons, List.not_mem_nil, or_false] at hc
    rcases hc with rfl | rfl | rfl | rfl <;> decide
  · exact not_isSpecial_of_isWord hc

/-! ## What the texts look like -/

section

open Text (Composes)

variable {Q : Text → Prop} (hQ : Composes Q)

include hQ

omit [RegexEngine] in
theorem Run.composes {s t : Text} (h : Run s t) : Q s := by
  induction h with
  | nil => exact hQ.nil
  | plain h _ ih => exact hQ.append [_] _ (hQ.plain _ (isScanned_of_isPlain h)) ih
  | escape c _ ih => exact hQ.append ['\\', c] _ (hQ.escape c) ih

omit [RegexEngine] in
theorem composes_mark {digits : Text} (h : ∀ c ∈ digits, c.isDigit = true) :
    Q (digits ++ [markSign]) :=
  hQ.append _ _ (hQ.of_plain fun c hc => isScanned_of_isDigit (isDigit_of_ascii (h c hc)))
    (hQ.plain _ (by decide))

theorem WrittenBranch.composes {b : WrittenBranch} (legal : b.Legal) (h : Q b.items) : Q b.text := by
  obtain ⟨mark, items, parts⟩ := b
  cases mark with
  | none => exact h
  | some digits =>
    obtain ⟨-, hdigits, -⟩ := legal
    have := hQ.append _ _ (composes_mark hQ hdigits) h
    rwa [List.append_assoc] at this

/-- What holds of all that the texts of the grammar are made of holds of them. -/
theorem Items.composes {types : TypeNames} {s : Text} {ps : List Pattern} (h : Items types s ps) :
    Q s := by
  have hbracket {opener closer : Char} (hp : (opener, closer) ∈ Text.bracketPairs)
      {bs : List WrittenBranch} (legal : ∀ b ∈ bs, b.Legal) (hbs : ∀ b ∈ bs, Q b.items) {rest : Text}
      (hrest : Q rest) : Q (opener :: branchesText bs ++ closer :: rest) := by
    have htexts : ∀ p ∈ bs.map (·.text), Q p := by
      intro p hmem
      obtain ⟨b, hb, rfl⟩ := List.mem_map.1 hmem
      exact WrittenBranch.composes hQ (legal b hb) (hbs b hb)
    have := hQ.append _ _ (hQ.bracket opener closer hp _ htexts) hrest
    rwa [List.append_assoc] at this
  induction h with
  | nil => exact hQ.nil
  | run hrun _ _ _ ih => exact hQ.append _ _ (hrun.composes hQ) ih
  | choice _ legal _ _ ihs ih => exact hbracket (by simp [Text.bracketPairs]) legal ihs ih
  | optional _ legal _ _ ihs ih => exact hbracket (by simp [Text.bracketPairs]) legal ihs ih
  | @slot spec _ _ _ hslot _ ih =>
    have hplain : ∀ c ∈ '%' :: (spec ++ ['%']), Text.isScanned c = false := by
      intro c hc
      rcases List.mem_cons.1 hc with rfl | hc
      · decide
      · rcases List.mem_append.1 hc with hc | hc
        · exact isScanned_of_isSpecial (hslot.isSpecial_of_mem hc)
        · rw [List.mem_singleton.1 hc]
          decide
    have := hQ.append _ _ (hQ.of_plain hplain) ih
    rwa [List.cons_append, List.append_assoc] at this

/-- All branches together; `bars` says what holds of parts with bars between them. -/
theorem branchesText_composes {types : TypeNames} {P : Text → Prop}
    (bars : ∀ parts, (∀ p ∈ parts, Q p) → P (Text.join ['|'] parts)) {bs : List WrittenBranch}
    (legal : ∀ b ∈ bs, b.Legal) (branches : ∀ b ∈ bs, Items types b.items b.parts) :
    P (branchesText bs) := by
  refine bars _ fun p hp => ?_
  obtain ⟨b, hb, rfl⟩ := List.mem_map.1 hp
  exact WrittenBranch.composes hQ (legal b hb) ((branches b hb).composes hQ)

end

/-- In a text of the grammar, brackets match. -/
theorem Derives.matched {types : TypeNames} {t : Text} {p : Pattern} (h : Derives types t p) :
    Text.Matched t := by
  cases h with
  | items h => exact (h.composes Text.composes_closed).matched
  | choice _ legal branches =>
    exact (branchesText_composes Text.composes_closed (fun _ => Text.Closed.join) legal branches).matched

end Pattern

end Phrasebook
