import Phrasebook.Proofs.Pattern.Accepts
import Phrasebook.Proofs.Pattern.Groups
import Phrasebook.Proofs.Text.Place

/-!
Where errors point. The offset of an error is put together on the way into the brackets, from the place
of each bracket, the offsets of the branches and the widths of their marks. Wherever the fault is, the
sum is the place in the whole text at which what is reported begins.
-/

namespace Phrasebook

/-- The lines that show `message` behind a caret, which stands below `source` behind `n` spaces. -/
def caretBehind (message : String) (source : Text) (n : Nat) : String :=
  let spaces := String.ofList (List.replicate n ' ')
  "\n".intercalate [
    s!"  --> pattern, column {n + 1}",
    "   |",
    s!"   | {String.ofList source}",
    s!"   | {spaces}^ {message}",
    "   |"]

/-- At a place of the text, the caret is under the character that begins there. -/
theorem caret_append (message : String) (front rest : Text) :
    caret message (front ++ rest) front.width = caretBehind message (front ++ rest) front.length := by
  have hbefore : (front ++ rest).before? front.width = some front :=
    Text.before?_eq_some_iff.2 ⟨rest, rfl, rfl⟩
  have hmin : min front.width (front ++ rest).width = front.width := by
    rw [Text.width_append]
    omega
  rw [caret, caretBehind]
  simp only [hmin, hbefore]

section

variable [RegexEngine]

/-- What is reported begins the text. -/
def PatternError.Culprit (types : TypeNames) : PatternError → Text → Prop
  | .unmatchedOpening c _, t => c ∈ ['[', '(', '<'] ∧ [c] <+: t
  | .unmatchedClosing c _, t => c ∈ [']', ')', '>'] ∧ [c] <+: t
  | .unmatchedPercent _, t => ['%'] <+: t
  | .invalidSlot spec _, t => '%' :: spec ++ ['%'] <+: t
  | .unknownType name _, t => types (String.ofList name) = none ∧
      ∃ (nullable : Bool) (accepts : Acceptance) (names : Text),
        (∀ c ∈ names, Text.isWord c = true ∨ c = '/') ∧ name ∈ Text.splitWhen (· == '/') names ∧
        '%' :: ((if nullable then ['-'] else []) ++ Pattern.acceptanceText accepts ++ names) ++ ['%'] <+: t
  | @invalidRegex message source _, t =>
    RegexPart.ofSource source = .error message ∧ '<' :: source ++ ['>'] <+: t
  | .markTooLarge digits _, t =>
    digits ≠ [] ∧ (∀ c ∈ digits, Text.isDigit c = true) ∧ digits ++ [markSign] <+: t
  | .trailingEscape _, t => t = ['\\']

end

namespace Pattern

section

variable [RegexEngine] {types : TypeNames} {read : Reader} {i : Nat} {t : Text} {e : PatternError}

/-- Text behind does no harm, unless it is put behind a trailing escape. -/
theorem culprit_append (h : e.Culprit types t) {b : Text}
    (hb : b = [] ∨ ∀ j, e ≠ .trailingEscape j) : e.Culprit types (t ++ b) := by
  rcases hb with rfl | hb
  · rwa [List.append_nil]
  · have hmore {u : Text} (hu : u <+: t) : u <+: t ++ b := hu.trans (List.prefix_append t b)
    cases e with
    | unmatchedOpening c j => exact ⟨h.1, hmore h.2⟩
    | unmatchedClosing c j => exact ⟨h.1, hmore h.2⟩
    | unmatchedPercent j => exact hmore h
    | invalidSlot spec j => exact hmore h
    | unknownType name j =>
      obtain ⟨hnone, nullable, accepts, names, hall, hname, ht⟩ := h
      exact ⟨hnone, nullable, accepts, names, hall, hname, hmore ht⟩
    | invalidRegex source j => exact ⟨h.1, hmore h.2⟩
    | markTooLarge digits j => exact ⟨h.1, h.2.1, hmore h.2.2⟩
    | trailingEscape j => exact absurd rfl (hb j)

theorem culprit_ne_nil (h : e.Culprit types t) : t ≠ [] := by
  rintro rfl
  have hnil {u : Text} (hu : u <+: ([] : Text)) : u = [] := List.prefix_nil.1 hu
  cases e with
  | unmatchedOpening c j => simpa using hnil h.2
  | unmatchedClosing c j => simpa using hnil h.2
  | unmatchedPercent j => simpa using hnil h
  | invalidSlot spec j => simpa using hnil h
  | unknownType name j =>
    obtain ⟨-, nullable, accepts, names, -, -, ht⟩ := h
    simpa using hnil ht
  | invalidRegex source j => simpa using hnil h.2
  | markTooLarge digits j => simpa using hnil h.2.2
  | trailingEscape j => cases h

/-- The error is about a place in a text that stands at byte `i`. Only a text that ends within an escape
is blamed for it. -/
structure Blames (types : TypeNames) (i : Nat) (t : Text) (e : PatternError) : Prop where
  place : ∃ front rest, t = front ++ rest ∧ e.index = i + front.width ∧ e.Culprit types rest
  escape : ∀ j, e = .trailingEscape j → Text.escapesEnd t = false

namespace Blames

/-- An error about the beginning of the text. -/
theorem here (hindex : e.index = i) (h : e.Culprit types t) (hescape : ∀ j, e ≠ .trailingEscape j) :
    Blames types i t e :=
  ⟨⟨[], t, rfl, hindex, h⟩, fun j hj => absurd hj (hescape j)⟩

/-- An error about a part of a text is about the text. -/
theorem within {a s b : Text} (h : Blames types (i + a.width) s e)
    (hs : Text.escapesEnd s = false → b = [] ∧ Text.escapesEnd (a ++ s ++ b) = false) :
    Blames types i (a ++ s ++ b) e := by
  obtain ⟨⟨front, rest, rfl, hindex, hculprit⟩, hescape⟩ := h
  refine ⟨⟨a ++ front, rest ++ b, by simp, ?_, culprit_append hculprit ?_⟩, fun j hj => ?_⟩
  · rw [hindex, Text.width_append, Nat.add_assoc]
  · by_cases hj : ∃ j, e = .trailingEscape j
    · obtain ⟨j, hj⟩ := hj
      exact Or.inl (hs (hescape j hj)).1
    · exact Or.inr fun j heq => hj ⟨j, heq⟩
  · exact (hs (hescape j hj)).2

/-- What stands in front is over when the part begins. -/
theorem behind {a s : Text} (ha : Text.escapesEnd a = true) (h : Blames types (i + a.width) s e) :
    Blames types i (a ++ s) e := by
  have := h.within (b := []) fun hs => ⟨rfl, by rw [List.append_nil, Text.escapesEnd_append ha, hs]⟩
  rwa [List.append_nil] at this

theorem inside {opener closer : Char} {s rest : Text} (ho : opener.utf8Size = 1)
    (hs : Text.escapesEnd s = true) (h : Blames types (i + 1) s e) :
    Blames types i (opener :: (s ++ closer :: rest)) e := by
  have hi : i + 1 = i + Text.width [opener] := by rw [Text.width_cons, ho, Text.width_nil]
  rw [hi] at h
  exact h.within fun hfalse => absurd (hs.symm.trans hfalse) (by decide)

/-- An error behind brackets that have been read. -/
theorem behind_bracket {opener closer : Char} (ho : opener.utf8Size = 1) (hc : closer.utf8Size = 1)
    {inside rest : Text} {p : Pattern} (piece : Piece types read i (opener :: inside ++ [closer]) p)
    (h : Blames types (i + inside.width + 2) rest e) :
    Blames types i (opener :: (inside ++ closer :: rest)) e := by
  rw [width_bracket opener closer inside ho hc] at h
  rw [← append_bracket]
  exact .behind piece.escapesEnd h

end Blames

/-! ## Pieces -/

theorem blames_of_mark? (h : mark? i t = .error e) : Blames types i t e := by
  by_cases hmark : Marked t
  · obtain ⟨digits, rest, hne, hd, rfl⟩ := hmark
    have hculprit : PatternError.Culprit types (.markTooLarge digits i) (digits ++ markSign :: rest) :=
      ⟨hne, hd, rest, by simp⟩
    rw [mark?_append hne hd] at h
    split at h
    · split at h
      · cases h
      · cases h
        exact .here rfl hculprit (by simp)
    · cases h
      exact .here rfl hculprit (by simp)
  · rw [mark?_of_not_marked hmark] at h
    cases h

omit [RegexEngine] in
theorem slotTypes_eq_error {spec : Text} {names : List Text}
    (h : slotTypes types i spec names = .error e) : e = .invalidSlot spec i ∨
      ∃ name ∈ names, types (String.ofList name) = none ∧ e = .unknownType name i := by
  induction names with
  | nil => cases h
  | cons name names ih =>
    rw [slotTypes] at h
    split at h
    · cases h
      exact Or.inl rfl
    · dsimp only at h
      split at h
      · rename_i hnone
        cases h
        exact Or.inr ⟨name, by simp, hnone, rfl⟩
      · rcases error_of_bind h with h | ⟨ts, -, h⟩
        · rcases ih h with h | ⟨name', hmem, hname⟩
          · exact Or.inl h
          · exact Or.inr ⟨name', List.mem_cons_of_mem name hmem, hname⟩
        · cases h

theorem blames_of_slotOf {spec rest : Text} (h : slotOf types i spec = .error e) :
    Blames types i ('%' :: (spec ++ '%' :: rest)) e := by
  have hinvalid : Blames types i ('%' :: (spec ++ '%' :: rest)) (.invalidSlot spec i) :=
    .here rfl ⟨rest, by simp⟩ (by simp)
  unfold slotOf at h
  split at h
  rename_i nullable signed hnull
  split at h
  rename_i accepts names hsign
  have hspec : spec = (if nullable then ['-'] else []) ++ acceptanceText accepts ++ names := by
    have hsigned : signed = acceptanceText accepts ++ names := by
      split at hsign <;> cases hsign <;> rfl
    rw [List.append_assoc, ← hsigned]
    split at hnull <;> cases hnull <;> rfl
  split at h
  · cases h
    exact hinvalid
  · rename_i hgood
    rw [not_or, not_not] at hgood
    have hall : ∀ c ∈ names, Text.isWord c = true ∨ c = '/' := by simpa using hgood.2
    rcases error_of_bind h with h | ⟨ts, -, h⟩
    · rcases slotTypes_eq_error h with rfl | ⟨name, hname, hnone, rfl⟩
      · exact hinvalid
      · refine .here rfl ⟨hnone, nullable, accepts, names, hall, hname, rest, ?_⟩ (by simp)
        rw [← hspec]
        simp
    · cases h

/-! ## Brackets -/

/-- What goes wrong with texts inside brackets is about a place in them. -/
def ReadsBlaming (types : TypeNames) (read : Reader) : Prop :=
  ∀ base s e, read base s = .error e → Blames types base s e

section

variable (hread : ReadsBlaming types read)

include hread

theorem blames_of_branch (h : branch read i t = .error e) : Blames types i t e := by
  unfold branch at h
  rcases error_of_bind h with h | ⟨found, hmark, h⟩
  · exact blames_of_mark? h
  cases found with
  | none =>
    rcases error_of_bind h with h | ⟨p, -, h⟩
    · exact hread i t e h
    · cases h
  | some found =>
    obtain ⟨m, rest⟩ := found
    obtain ⟨digits, -, hdigits, -, rfl, -⟩ := mark?_eq_ok_some_iff.1 hmark
    rcases error_of_bind h with h | ⟨p, -, h⟩
    · have hwidth : markWidth (digits ++ markSign :: rest) rest = Text.width (digits ++ [markSign]) := by
        simp only [markWidth, Text.width_append, Text.width_cons, Text.width_nil]
        omega
      rw [hwidth] at h
      rw [← List.singleton_append, ← List.append_assoc]
      exact .behind (composes_mark Text.composes_closed hdigits).escapes (hread _ rest e h)
    · cases h

theorem blames_of_branches (h : branches read i t.splitBars = .error e) : Blames types i t e := by
  unfold branches at h
  rcases error_of_bind h with h | ⟨bs, -, h⟩
  · obtain ⟨⟨j, part⟩, hpart, h⟩ := error_of_mapM h
    obtain ⟨a, b, rfl, rfl, hend⟩ := Text.exists_of_mem_splitBars hpart
    exact (blames_of_branch hread h).within hend
  · cases h

theorem blames_of_optionalInside (h : optionalInside read i t = .error e) : Blames types i t e := by
  by_cases hlength : t.splitBars.length = 1
  · rw [optionalInside_eq_branch hlength] at h
    cases hb : branch read i t with
    | error e' =>
      rw [hb] at h
      cases h
      exact blames_of_branch hread hb
    | ok b =>
      rw [hb] at h
      cases h
  · rw [optionalInside, if_neg hlength] at h
    exact hread i t e h

/-! ## Parts -/

omit hread in
/-- A bracket is to blame if it is not closed; otherwise its inside is, or what comes behind it. -/
theorem blames_of_bracket {α : Type} {fuel : Nat} {plain : Text} {opener closer : Char}
    (hp : (opener, closer) ∈ Text.bracketPairs) {inner : Text → Except PatternError α}
    {build : α → Pattern}
    (hpiece : ∀ inside a, Text.TakesBack opener closer 0 inside → inner inside = .ok a →
      Piece types read i (opener :: inside ++ [closer]) (build a))
    (hinner : ∀ inside rest, Text.TakesBack opener closer 0 inside → inner inside = .error e →
      Blames types i (opener :: (inside ++ closer :: rest)) e)
    (ih : ∀ {i plain t}, parts types read fuel i plain t = .error e → Blames types i t e)
    (h : (do
      let some (inside, rest) := enclosed? opener closer (opener :: t) |
        throw (PatternError.unmatchedOpening opener i)
      let a ← inner inside
      let qs ← parts types read fuel (i + inside.width + 2) [] rest
      return flush plain (build a :: qs)) = Except.error e) :
    Blames types i (opener :: t) e := by
  obtain ⟨ho, hc⟩ := utf8Size_of_mem_bracketPairs hp
  split at h
  · rename_i inside rest hinside
    obtain ⟨rfl, hback⟩ := (enclosed?_eq_some_iff hp).1 hinside
    rcases error_of_bind h with h | ⟨a, ha, h⟩
    · exact hinner inside rest hback h
    rcases error_of_bind h with h | ⟨qs, -, h⟩
    · exact .behind_bracket ho hc (hpiece inside a hback ha) (ih h)
    · cases h
  · cases h
    refine .here rfl ⟨?_, t, rfl⟩ (by simp)
    simp only [Text.bracketPairs, List.mem_cons, List.not_mem_nil, or_false, Prod.mk.injEq] at hp
    rcases hp with ⟨rfl, -⟩ | ⟨rfl, -⟩ | ⟨rfl, -⟩ <;> simp

omit hread in
theorem blames_of_percent {fuel : Nat} {plain : Text}
    (ih : ∀ {i plain t}, parts types read fuel i plain t = .error e → Blames types i t e)
    (h : parts types read (fuel + 1) i plain ('%' :: t) = .error e) : Blames types i ('%' :: t) e := by
  rw [parts] at h
  split at h
  · rename_i sign rest hpercent
    have ht := eq_append_of_percent hpercent
    generalize t.takeWhile (· ≠ '%') = spec at ht h
    subst ht
    rcases error_of_bind h with h | ⟨p, hp, h⟩
    · exact blames_of_slotOf h
    rcases error_of_bind h with h | ⟨qs, -, h⟩
    · have piece : Piece types read i ('%' :: spec ++ ['%']) p := .slot (slotText_of_slotOf hp)
      exact .behind_bracket rfl rfl piece (ih h)
    · cases h
  · cases h
    exact .here rfl ⟨t, rfl⟩ (by simp)

omit hread in
theorem blames_of_escape {fuel : Nat} {plain : Text}
    (ih : ∀ {i plain t}, parts types read fuel i plain t = .error e → Blames types i t e)
    (h : parts types read (fuel + 1) i plain ('\\' :: t) = .error e) : Blames types i ('\\' :: t) e := by
  cases t with
  | nil =>
    have h : Except.error (PatternError.trailingEscape i) = Except.error e := h
    cases h
    exact ⟨⟨[], ['\\'], rfl, rfl, rfl⟩, fun _ _ => rfl⟩
  | cons c rest =>
    have hi : i + 1 + c.utf8Size = i + Text.width ['\\', c] := by
      simp only [Text.width_cons, Text.width_nil]
      have : '\\'.utf8Size = 1 := rfl
      omega
    rw [parts_escape, hi] at h
    exact .behind (a := ['\\', c]) rfl (ih h)

theorem blames_of_parts {fuel : Nat} {plain : Text} (h : parts types read fuel i plain t = .error e) :
    Blames types i t e := by
  induction fuel generalizing i plain t with
  | zero => cases h
  | succ fuel ih =>
    cases t with
    | nil => cases h
    | cons c t =>
      have hwhole := h
      rw [parts.eq_def] at h
      dsimp only at h
      split at h
      · exact blames_of_bracket (by simp [Text.bracketPairs]) (fun _ _ hback hp => .optional hback hp)
          (fun _ _ hback h => (blames_of_optionalInside hread h).inside rfl hback.escapes) ih h
      · exact blames_of_bracket (by simp [Text.bracketPairs]) (fun _ _ hback hp => .choice hback hp)
          (fun _ _ hback h => (blames_of_branches hread h).inside rfl hback.escapes) ih h
      · refine blames_of_bracket (by simp [Text.bracketPairs]) (fun inside g hback hg => ?_)
          (fun inside rest _ h => ?_) ih h
        · obtain rfl := ofSource_eq_ok_iff.1 (ok_of_mapError hg)
          exact .regex hback
        · obtain ⟨message, hmessage, rfl⟩ := error_of_mapError h
          exact .here rfl ⟨hmessage, rest, by simp⟩ (by simp)
      · exact blames_of_percent ih hwhole
      · exact blames_of_escape ih hwhole
      · cases h
        exact .here rfl ⟨by simp, t, rfl⟩ (by simp)
      · cases h
        exact .here rfl ⟨by simp, t, rfl⟩ (by simp)
      · cases h
        exact .here rfl ⟨by simp, t, rfl⟩ (by simp)
      · exact .behind (a := [c]) (Text.escapesEnd_cons ‹_› []) (ih h)

end

theorem readsBlaming_readWithin (types : TypeNames) (n : Nat) :
    ReadsBlaming types (readWithin types n) := by
  induction n with
  | zero =>
    intro base s e h
    cases h
  | succ n ih =>
    intro base s e h
    rw [readWithin] at h
    split at h
    · exact blames_of_branches ih h
    · rcases error_of_bind h with h | ⟨ps, -, h⟩
      · exact blames_of_parts ih h
      · cases h

/-- An error of reading is about a place before the end, where its culprit begins, and is shown with a
caret behind as many spaces as there are characters before it. -/
theorem ofText_error_culprit (types : TypeNames) (t : Text) (e : PatternError)
    (h : ofText types t = .error e) :
    ∃ front rest, t = front ++ rest ∧ front.width = e.index ∧ e.index < t.width ∧
      e.Culprit types rest ∧ e.render t = caretBehind e.message t front.length := by
  obtain ⟨⟨front, rest, rfl, hindex, hculprit⟩, -⟩ := readsBlaming_readWithin types _ 0 t e h
  rw [Nat.zero_add] at hindex
  have hrest : rest.width ≠ 0 := mt Text.width_eq_zero.1 (culprit_ne_nil hculprit)
  refine ⟨front, rest, rfl, hindex.symm, ?_, hculprit, ?_⟩
  · rw [hindex, Text.width_append]
    omega
  · rw [PatternError.render, hindex]
    exact caret_append e.message front rest

end

/-- A marked branch in square brackets within a choice, behind characters of two bytes. -/
def misspelledText : Text :=
  ['é', '(', 'a', '|', '[', '1', markSign, '%', '-', 'n', '/', 'm', '%', ']', ')']

theorem ofText_error_culprit_misspelled :
    ofText shortName misspelledText = .error (.unknownType ['m'] 9) ∧
      ∃ front rest, misspelledText = front ++ rest ∧ front.width = 9 ∧ front.length = 7 ∧
        PatternError.Culprit shortName (.unknownType ['m'] 9) rest := by
  have hread : ofText shortName misspelledText = .error (.unknownType ['m'] 9) := by rfl
  obtain ⟨front, rest, ht, hwidth, -, hculprit, -⟩ :=
    ofText_error_culprit shortName misspelledText _ hread
  have hfront : front = misspelledText.take 7 := by
    have hcut : misspelledText.before? 9 = some front :=
      Text.before?_eq_some_iff.2 ⟨rest, ht, hwidth⟩
    exact (Option.some.inj hcut).symm
  exact ⟨hread, front, rest, ht, hwidth, by rw [hfront]; rfl, hculprit⟩

end Pattern

end Phrasebook
