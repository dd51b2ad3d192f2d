import Phrasebook.Proofs.Pattern.InARow
import Phrasebook.Proofs.Pattern.RoundTrip

/-!
Regular expressions in a pattern. What stands in angle brackets is taken as it is written, but the
scans for bars and for closing brackets have gone over it before: they count the brackets in it. So
a group can be put next to other parts and into brackets as long as no bar becomes an outer one and
the bracket around it still finds its end; it is enough that its own brackets are balanced.
-/

namespace Phrasebook

namespace Text

/-- No bar of the text is an outer one. -/
def Barless (t : Text) : Prop := barParts 0 t = [t]

theorem Barless.length_splitBars {t : Text} (h : Barless t) : t.splitBars.length = 1 := by
  rw [Text.length_splitBars, h, List.length_singleton]

theorem barless_iff {t : Text} : Barless t ↔ ¬ t.splitBars.length > 1 := by
  constructor
  · intro h
    rw [h.length_splitBars]
    omega
  · intro h
    have := List.length_pos_of_ne_nil (barParts_ne_nil 0 t)
    rw [Text.length_splitBars] at h
    exact barParts_eq_singleton (by omega)

theorem barless_of_sealed {t : Text} (h : Sealed 0 t) : Barless t := by
  have := h.bars 0 (Int.le_refl 0) []
  unfold Barless
  simpa [prepend_first] using this

theorem single_of_pushFirst {c : Char} {t : Text} {parts : List Text} (hne : parts ≠ [])
    (h : pushFirst c parts = [c :: t]) : parts = [t] := by
  match parts, hne with
  | p :: ps, _ => simpa [pushFirst] using h

/-- Behind a text without outer bars the scan goes on at the depth that the text has reached. -/
theorem barParts_append_of_single {d : Int} {t : Text} (he : escapesEnd t = true)
    (h : barParts d t = [t]) (rest : Text) :
    barParts d (t ++ rest) = prepend t (barParts (d + depthOf (unescaped t)) rest) := by
  induction t using unescaped.induct generalizing d with
  | case1 => simp [unescaped]
  | case2 => simp [escapesEnd] at he
  | case3 e t ih =>
    have hstep : unescaped ('\\' :: e :: t) = unescaped t := rfl
    rw [barParts_escape] at h
    have ih := ih (by simpa [escapesEnd] using he) 
      (single_of_pushFirst (barParts_ne_nil d t)
        (single_of_pushFirst (pushFirst_ne_nil e _) h))
    rw [List.cons_append, List.cons_append, barParts_escape, ih, hstep]
    rfl
  | case4 c t hc ih =>
    rw [barParts_cons hc] at h
    rw [escapesEnd_cons hc] at he
    split at h
    · cases h
    · rename_i hbar
      rw [List.cons_append, barParts_cons hc, if_neg hbar, 
        ih he (single_of_pushFirst (barParts_ne_nil _ t) h),
        unescaped_cons hc, depthOf_cons, prepend_cons, Int.add_assoc]

/-- Characters of other kinds around a text do not matter to its balance. -/
theorem balanced_bracket_iff {opener closer x y : Char} {t : Text} (he : escapesEnd t = true)
    (hx : x ≠ '\\') (hy : y ≠ '\\') (ho : opener ∉ [x, y]) (hc : closer ∉ [x, y]) :
    Balanced opener closer (x :: t ++ [y]) ↔ Balanced opener closer t := by
  have hshape : unescaped (x :: t ++ [y]) = x :: (unescaped t ++ [y]) := by
    rw [List.cons_append, unescaped_cons hx, unescaped_append he, unescaped_cons hy]
    rfl
  have hcount (a : Char) (ha : a ∉ [x, y]) (s : Text) : (x :: s).count a = s.count a ∧
      (s ++ [y]).count a = s.count a := by
    simp only [List.mem_cons, List.not_mem_nil, or_false, not_or] at ha
    simp [Ne.symm ha.1, Ne.symm ha.2]
  have hopen := hcount opener ho
  have hclose := hcount closer hc
  constructor
  · rintro ⟨h, hall⟩
    rw [hshape] at h hall
    refine ⟨fun p hp => ?_, ?_⟩
    · have := h (x :: p) (List.cons_prefix_cons.2 ⟨rfl, hp.trans (List.prefix_append _ _)⟩)
      rwa [(hclose p).1, (hopen p).1] at this
    · rwa [(hclose _).1, (hclose _).2, (hopen _).1, (hopen _).2] at hall
  · rintro ⟨h, hall⟩
    refine ⟨fun p hp => ?_, ?_⟩
    · rw [hshape] at hp
      cases p with
      | nil => simp
      | cons d p =>
        obtain ⟨rfl, hprefix⟩ := List.cons_prefix_cons.1 hp
        rw [(hclose p).1, (hopen p).1]
        rcases List.prefix_concat_iff.1 hprefix with rfl | hprefix
        · rw [(hclose _).2, (hopen _).2, hall]
        · exact h p hprefix
    · rw [hshape, (hclose _).1, (hclose _).2, (hopen _).1, (hopen _).2, hall]

end Text

namespace Pattern

section

variable [RegexEngine] {types : TypeNames} {read : Reader}

/-! ## Parts and elements -/

theorem Piece.isPart {i : Nat} {t : Text} {p : Pattern} (h : Piece types read i t p) :
    p.isPart = true := by
  cases h with
  | optional => rfl
  | choice back inner =>
    unfold branches at inner
    obtain ⟨bs, -, h⟩ := ok_of_bind inner
    cases h
    rfl
  | regex => rfl
  | slot slot =>
    cases slot
    rfl

theorem Piece.isLiteral {i : Nat} {t : Text} {p : Pattern} (h : Piece types read i t p) :
    p.isLiteral = false := by
  cases h with
  | optional => rfl
  | choice back inner =>
    unfold branches at inner
    obtain ⟨bs, -, h⟩ := ok_of_bind inner
    cases h
    rfl
  | regex => rfl
  | slot slot => exact slot.isLiteral

theorem Piece.escapesEnd {i : Nat} {t : Text} {p : Pattern} (h : Piece types read i t p) :
    Text.escapesEnd t = true := by
  have hbracket {opener closer : Char} {inside : Text} (ho : opener ≠ '\\') (hc : closer ≠ '\\')
      (he : Text.escapesEnd inside = true) :
      Text.escapesEnd (opener :: inside ++ [closer]) = true := by
    rw [List.cons_append, Text.escapesEnd_cons ho, Text.escapesEnd_append he, Text.escapesEnd_cons hc]
    rfl
  cases h with
  | optional back => exact hbracket (by decide) (by decide) back.escapes
  | choice back => exact hbracket (by decide) (by decide) back.escapes
  | regex back => exact hbracket (by decide) (by decide) back.escapes
  | slot slot =>
    refine hbracket (by decide) (by decide) ?_
    have := Text.composes_closed.of_plain fun c hc => isScanned_of_isSpecial (slot.isSpecial_of_mem hc)
    exact this.escapes

section

variable {fuel i : Nat} {plain t : Text} {ps : List Pattern}

theorem isPart_of_mem_flush (h : ∀ p ∈ ps, p.isPart = true) :
    ∀ p ∈ flush plain ps, p.isPart = true := by
  intro p hp
  unfold flush at hp
  split at hp
  · exact h p hp
  · rename_i hne
    rcases List.mem_cons.1 hp with rfl | hp
    · simpa [isPart] using hne
    · exact h p hp

theorem isPart_of_parts (h : parts types read fuel i plain t = .ok ps) :
    ∀ p ∈ ps, p.isPart = true := by
  induction fuel generalizing i plain t ps with
  | zero =>
    cases h
    exact isPart_of_mem_flush (by simp)
  | succ fuel ih =>
    cases taken_of_parts h with
    | nil => exact isPart_of_mem_flush (by simp)
    | piece piece more =>
      refine isPart_of_mem_flush fun p hp => ?_
      rcases List.mem_cons.1 hp with rfl | hp
      · exact piece.isPart
      · exact ih more p hp
    | escape more => exact ih more
    | plain hc more => exact ih more

theorem escapesEnd_of_parts (h : parts types read fuel i plain t = .ok ps) (hf : t.length ≤ fuel) :
    Text.escapesEnd t = true := by
  induction fuel generalizing i plain t ps with
  | zero =>
    obtain rfl : t = [] := List.eq_nil_of_length_eq_zero (by omega)
    rfl
  | succ fuel ih =>
    cases taken_of_parts h with
    | nil => rfl
    | piece piece more =>
      have := piece.length_pos
      rw [List.length_append] at hf
      rw [Text.escapesEnd_append piece.escapesEnd]
      exact ih more (by omega)
    | @escape c rest ps more =>
      rw [List.length_cons, List.length_cons] at hf
      have hstep : Text.escapesEnd ('\\' :: c :: rest) = Text.escapesEnd rest := rfl
      rw [hstep]
      exact ih more (by omega)
    | plain hc more =>
      rw [List.length_cons] at hf
      rw [Text.escapesEnd_cons (by rintro rfl; simp [isPlain] at hc)]
      exact ih more (by omega)

/-- Plain text in front comes out as a literal. -/
theorem exists_literal_of_parts (h : parts types read fuel i plain t = .ok ps) (hne : plain ≠ []) :
    ∃ s qs, ps = .literal s :: qs := by
  induction fuel generalizing i plain t ps with
  | zero =>
    cases h
    exact ⟨_, _, if_neg hne⟩
  | succ fuel ih =>
    cases taken_of_parts h with
    | nil => exact ⟨_, _, if_neg hne⟩
    | piece piece more => exact ⟨_, _, if_neg hne⟩
    | escape more => exact ih more (by simp)
    | plain hc more => exact ih more (by simp)

/-- Nothing but an empty text has no parts. -/
theorem eq_nil_of_parts (h : parts types read fuel i [] t = .ok []) (hf : t.length ≤ fuel) : t = [] := by
  cases fuel with
  | zero => exact List.eq_nil_of_length_eq_zero (by omega)
  | succ fuel =>
    obtain ⟨ps, hps, h⟩ : ∃ ps, ps = [] ∧ parts types read (fuel + 1) i [] t = .ok ps := ⟨_, rfl, h⟩
    cases taken_of_parts h with
    | nil => rfl
    | piece piece more => simp [flush] at hps
    | escape more =>
      obtain ⟨s, qs, rfl⟩ := exists_literal_of_parts more (by simp)
      cases hps
    | plain hc more =>
      obtain ⟨s, qs, rfl⟩ := exists_literal_of_parts more (by simp)
      cases hps

/-- A text is read as one part that is not plain text if it is that piece from end to end. -/
theorem parts_eq_single_iff {q : Pattern} (hq : q.isLiteral = false) (hf : t.length ≤ fuel) :
    parts types read fuel i [] t = .ok [q] ↔ Piece types read i t q := by
  constructor
  · intro h
    cases fuel with
    | zero => simp [parts, flush, pure, Except.pure] at h
    | succ fuel =>
      generalize hps : [q] = ps at h
      cases taken_of_parts h with
      | nil => simp [flush] at hps
      | @piece front rest q' qs piece more =>
        obtain ⟨rfl, rfl⟩ : q = q' ∧ qs = [] := by simpa [flush] using hps
        have := piece.length_pos
        rw [List.length_append] at hf
        obtain rfl := eq_nil_of_parts more (by omega)
        rwa [List.append_nil]
      | escape more =>
        subst hps
        obtain ⟨s, qs, heq⟩ := exists_literal_of_parts more (by simp)
        cases heq
        cases hq
      | plain hc more =>
        subst hps
        obtain ⟨s, qs, heq⟩ := exists_literal_of_parts more (by simp)
        cases heq
        cases hq
  · intro h
    have := h.length_pos
    obtain ⟨f, rfl⟩ : ∃ f, fuel = f + 1 := ⟨fuel - 1, by omega⟩
    have htaken : Taken types read f i [] (t ++ []) (flush [] [q]) := .piece h (parts_nil f _ [])
    have := parts_of_taken htaken
    rwa [List.append_nil] at this

end

/-- The parts that a tree stands for. -/
def elements : Pattern → List Pattern
  | literal [] => []
  | sequence ps => ps
  | p => [p]

theorem elements_ofParts {ps : List Pattern} (h : ∀ p ∈ ps, p.isPart = true) :
    (ofParts ps).elements = ps := by
  match ps with
  | [] => rfl
  | [p] =>
    have hp := h p (by simp)
    cases p with
    | literal t =>
      cases t with
      | nil => cases hp
      | cons c t => rfl
    | sequence ps => cases hp
    | _ => rfl
  | p :: q :: ps => rfl

theorem ofText_of_parts {t : Text} {ps : List Pattern} (hbars : t.Barless)
    (h : parts types (readWithin types t.length) t.length 0 [] t = .ok ps) :
    ofText types t = .ok (ofParts ps) := by
  rw [ofText, readWithin, if_neg (Text.barless_iff.1 hbars), h]
  rfl

/-- A text without outer bars is read as its parts. -/
theorem parts_of_ofText {t : Text} {p : Pattern} (hbars : t.Barless) (h : ofText types t = .ok p) :
    parts types (readWithin types t.length) t.length 0 [] t = .ok p.elements := by
  rw [ofText, readWithin, if_neg (Text.barless_iff.1 hbars)] at h
  obtain ⟨ps, hps, h⟩ := ok_of_bind h
  cases h
  rw [hps, elements_ofParts (isPart_of_parts hps)]

theorem ofText_eq_piece_iff {t : Text} {q : Pattern} (hbars : t.Barless) (hq : q.isLiteral = false)
    (hpart : q.isPart = true) :
    ofText types t = .ok q ↔ Piece types (readWithin types t.length) 0 t q := by
  have helements : (ofParts [q]).elements = [q] := elements_ofParts (by simpa using hpart)
  rw [← parts_eq_single_iff hq (Nat.le_refl _)]
  constructor
  · intro h
    rw [parts_of_ofText hbars h]
    exact congrArg Except.ok helements
  · exact fun h => ofText_of_parts hbars h

/-- With an outer bar, a text is a choice of several. -/
theorem exists_choice_of_bars {t : Text} {p : Pattern} (hbars : ¬ t.Barless)
    (h : ofText types t = .ok p) : ∃ bs, p = .choice bs ∧ 1 < bs.length := by
  rw [Text.barless_iff, not_not] at hbars
  rw [ofText, readWithin, if_pos hbars] at h
  unfold branches at h
  obtain ⟨bs, hbs, h⟩ := ok_of_bind h
  cases h
  refine ⟨bs, rfl, ?_⟩
  rwa [← (forall₂_of_mapM hbs).length_eq]

/-! ## One group -/

def groupText (source : Text) : Text := '<' :: source ++ ['>']

omit [RegexEngine] in
theorem mark?_groupText (i : Nat) (source : Text) : mark? i (groupText source) = .ok none :=
  mark?_of_unmarked (unmarked_cons (by decide) (by decide) _) i

theorem piece_regex_iff {i : Nat} {source : Text} {g : RegexPart} :
    Piece types read i (groupText source) (.regex g) ↔
      g.source = source ∧ Text.TakesBack '<' '>' 0 source := by
  constructor
  · intro h
    generalize ht : groupText source = t at h
    cases h with
    | choice back inner =>
      cases ht
    | regex back =>
      obtain rfl : source = g.source := by simpa [groupText] using ht
      exact ⟨rfl, back⟩
    | slot slot => cases ht
  · rintro ⟨rfl, back⟩
    exact .regex back

theorem piece_round_iff {i : Nat} {t : Text} {q : Pattern} :
    Piece types read i ('(' :: t ++ [')']) q ↔
      Text.TakesBack '(' ')' 0 t ∧ branches read (i + 1) t.splitBars = .ok q := by
  constructor
  · intro h
    generalize ht : '(' :: t ++ [')'] = s at h
    cases h with
    | optional back inner => cases ht
    | choice back inner =>
      obtain rfl : t = _ := by simpa using ht
      exact ⟨back, inner⟩
    | regex back => cases ht
    | slot slot => cases ht
  · rintro ⟨back, inner⟩
    exact .choice back inner

theorem piece_square_iff {i : Nat} {t : Text} {q : Pattern} :
    Piece types read i ('[' :: t ++ [']']) (.optional q) ↔
      Text.TakesBack '[' ']' 0 t ∧ optionalInside read (i + 1) t = .ok q := by
  constructor
  · intro h
    generalize ht : '[' :: t ++ [']'] = s at h
    cases h with
    | optional back inner =>
      obtain rfl : t = _ := by simpa using ht
      exact ⟨back, inner⟩
    | choice back inner => cases ht
    | slot slot => cases ht
  · rintro ⟨back, inner⟩
    exact .optional back inner

/-- A group alone is read if it has no outer bar and the scan for its end finds the last character. -/
theorem ofText_groupText_iff {source : Text} {g : RegexPart} :
    ofText types (groupText source) = .ok (.regex g) ↔
      (groupText source).Barless ∧ g.source = source ∧ Text.TakesBack '<' '>' 0 source := by
  constructor
  · intro h
    have hbars : (groupText source).Barless := by
      by_contra hbars
      obtain ⟨bs, heq, -⟩ := exists_choice_of_bars hbars h
      cases heq
    exact ⟨hbars, piece_regex_iff.1 ((ofText_eq_piece_iff hbars rfl rfl).1 h)⟩
  · rintro ⟨hbars, h⟩
    exact (ofText_eq_piece_iff hbars rfl rfl).2 (piece_regex_iff.2 h)

theorem ofParts_ne_choice (ps qs : List Pattern) (g : RegexPart) (bs : List (Int32 × Pattern)) :
    ofParts (ps ++ .regex g :: qs) ≠ .choice bs := by
  match ps, qs with
  | [], [] => simp [ofParts]
  | [], _ :: _ => simp [ofParts]
  | [_], _ => simp [ofParts]
  | _ :: _ :: _, _ => simp [ofParts]

section

variable {source : Text} {g : RegexPart} (hg : ofText types (groupText source) = .ok (.regex g))

include hg

/-- A group between other parts is read as it is read alone if no bar has become an outer one. -/
theorem ofText_between_iff {s t : Text} {p q : Pattern} (hs : s.Barless) (ht : t.Barless)
    (hp : ofText types s = .ok p) (hq : ofText types t = .ok q) :
    ofText types (s ++ groupText source ++ t) =
        .ok (ofParts (p.elements ++ .regex g :: q.elements)) ↔
      (s ++ groupText source ++ t).Barless := by
  constructor
  · intro h
    by_contra hbars
    obtain ⟨bs, heq, -⟩ := exists_choice_of_bars hbars h
    exact ofParts_ne_choice _ _ _ _ heq
  · intro hbars
    refine ofText_of_parts hbars ?_
    obtain ⟨-, rfl, hback⟩ := ofText_groupText_iff.1 hg
    generalize hn : (s ++ groupText g.source ++ t).length = n
    rw [List.length_append, List.length_append] at hn
    rw [List.append_assoc]
    refine parts_append (n := s.length) (agreeBelow_readWithin (Nat.le_refl _) (by omega))
      (parts_of_ofText hs hp) (Nat.le_refl _) (Nat.le_refl _)
      (m := (groupText g.source).length + t.length) (fun f j plain hf => ?_) n 0 (by omega)
    obtain ⟨k, rfl⟩ : ∃ k, f = k + 1 := by
      simp only [groupText, List.length_append, List.length_cons] at hf
      exact ⟨f - 1, by omega⟩
    refine parts_of_taken (.piece (.regex hback) ?_)
    refine parts_ok_of_ok (n := t.length) (agreeBelow_readWithin (Nat.le_refl _) (by omega))
      (parts_of_ofText ht hq) (Nat.le_refl _) (Nat.le_refl _) k _ ?_
    simp only [groupText, List.length_append, List.length_cons] at hf
    omega

theorem branch_groupText {n : Nat} (hn : (groupText source).length < n) (i : Nat) :
    branch (readWithin types n) i (groupText source) = .ok (0, .regex g) := by
  have hread : readWithin types n i (groupText source) = .ok (.regex g) :=
    readWithin_ok_of_ok hg (Nat.lt_succ_self _) hn i
  rw [branch, mark?_groupText]
  simp [bind, Except.bind, hread, pure, Except.pure]

theorem branches_groupText {n : Nat} (hn : (groupText source).length < n) (base : Nat) :
    branches (readWithin types n) base (groupText source).splitBars =
      .ok (.choice [(0, .regex g)]) := by
  have hbars : Text.barParts 0 (groupText source) = [groupText source] :=
    (ofText_groupText_iff.1 hg).1
  rw [branches, Text.splitBars, hbars]
  simp [Text.placed, branch_groupText hg hn, bind, Except.bind, pure, Except.pure]

theorem optionalInside_groupText {n : Nat} (hn : (groupText source).length < n) (base : Nat) :
    optionalInside (readWithin types n) base (groupText source) = .ok (.regex g) := by
  have hbars := (ofText_groupText_iff.1 hg).1
  rw [optionalInside_eq_branch hbars.length_splitBars, branch_groupText hg hn, mark?_groupText]
  rfl

/-- Whether a bracket of another kind around the group still finds its end. -/
theorem takesBack_groupText_iff {opener closer : Char} (ho : opener ∉ ['<', '>'])
    (hc : closer ∉ ['<', '>']) :
    Text.TakesBack opener closer 0 (groupText source) ↔ Text.Balanced opener closer source := by
  obtain ⟨-, -, hback⟩ := ofText_groupText_iff.1 hg
  have hescapes : Text.escapesEnd (groupText source) = true := by
    rw [groupText, List.cons_append, Text.escapesEnd_cons (by decide),
      Text.escapesEnd_append hback.escapes]
    rfl
  rw [Text.takesBack_zero, and_iff_right hescapes]
  exact Text.balanced_bracket_iff hback.escapes (by decide) (by decide) ho hc

theorem ofText_round_groupText_iff :
    ofText types ('(' :: groupText source ++ [')']) = .ok (.choice [(0, .regex g)]) ↔
      Text.Barless ('(' :: groupText source ++ [')']) ∧ Text.Balanced '(' ')' source := by
  have hlength : (groupText source).length < ('(' :: groupText source ++ [')']).length := by
    simp only [List.cons_append, List.length_cons, List.length_append]
    omega
  have hpiece (hbars : Text.Barless ('(' :: groupText source ++ [')'])) :
      ofText types ('(' :: groupText source ++ [')']) = .ok (.choice [(0, .regex g)]) ↔
        Text.Balanced '(' ')' source := by
    rw [ofText_eq_piece_iff hbars rfl rfl, piece_round_iff,
      takesBack_groupText_iff hg (by decide) (by decide)]
    exact and_iff_left (branches_groupText hg hlength 1)
  constructor
  · intro h
    have hbars : Text.Barless ('(' :: groupText source ++ [')']) := by
      by_contra hbars
      obtain ⟨bs, heq, hlong⟩ := exists_choice_of_bars hbars h
      cases heq
      exact absurd hlong (by simp)
    exact ⟨hbars, (hpiece hbars).1 h⟩
  · rintro ⟨hbars, h⟩
    exact (hpiece hbars).2 h

theorem ofText_square_groupText_iff :
    ofText types ('[' :: groupText source ++ [']']) = .ok (.optional (.regex g)) ↔
      Text.Barless ('[' :: groupText source ++ [']']) ∧ Text.Balanced '[' ']' source := by
  have hlength : (groupText source).length < ('[' :: groupText source ++ [']']).length := by
    simp only [List.cons_append, List.length_cons, List.length_append]
    omega
  have hpiece (hbars : Text.Barless ('[' :: groupText source ++ [']'])) :
      ofText types ('[' :: groupText source ++ [']']) = .ok (.optional (.regex g)) ↔
        Text.Balanced '[' ']' source := by
    rw [ofText_eq_piece_iff hbars rfl rfl, piece_square_iff,
      takesBack_groupText_iff hg (by decide) (by decide)]
    exact and_iff_left (optionalInside_groupText hg hlength 1)
  constructor
  · intro h
    have hbars : Text.Barless ('[' :: groupText source ++ [']']) := by
      by_contra hbars
      obtain ⟨bs, heq, -⟩ := exists_choice_of_bars hbars h
      cases heq
    exact ⟨hbars, (hpiece hbars).1 h⟩
  · rintro ⟨hbars, h⟩
    exact (hpiece hbars).2 h

/-- The scans pass over a group whose own brackets are balanced. -/
theorem sealed_groupText (hround : Text.Balanced '(' ')' source)
    (hsquare : Text.Balanced '[' ']' source) : Text.Sealed 0 (groupText source) := by
  obtain ⟨-, -, hback⟩ := ofText_groupText_iff.1 hg
  obtain ⟨hescapes, hangle⟩ := Text.takesBack_zero.1 hback
  refine Text.Sealed.bracket (by simp [Text.bracketPairs]) (Text.Sealed.of_balanced hescapes ?_)
  intro pair hp
  simp only [Text.bracketPairs, List.mem_cons, List.not_mem_nil, or_false] at hp
  rcases hp with rfl | rfl | rfl
  · exact hround
  · exact hsquare
  · exact hangle

/-- A group whose own brackets are balanced can stand anywhere. -/
theorem barless_between {s t : Text} {p : Pattern} (hs : s.Barless) (ht : t.Barless)
    (hp : ofText types s = .ok p) (hdepth : Text.depthOf (Text.unescaped s) = 0)
    (hround : Text.Balanced '(' ')' source) (hsquare : Text.Balanced '[' ']' source) :
    (s ++ groupText source ++ t).Barless := by
  have hescapes := escapesEnd_of_parts (parts_of_ofText hs hp) (Nat.le_refl _)
  have hsealed := sealed_groupText hg hround hsquare
  have ht : Text.barParts 0 t = [t] := ht
  unfold Text.Barless
  rw [List.append_assoc, Text.barParts_append_of_single hescapes hs, hdepth,
    Int.add_zero, hsealed.bars 0 (Int.le_refl 0), ht, Text.prepend_first, Text.prepend_first]

theorem barless_bracket {opener closer : Char} (hb : (opener, closer) ∈ Text.bracketPairs)
    (hround : Text.Balanced '(' ')' source) (hsquare : Text.Balanced '[' ']' source) :
    Text.Barless (opener :: groupText source ++ [closer]) :=
  Text.barless_of_sealed (.bracket hb ((sealed_groupText hg hround hsquare).mono (by omega)))

end

/-- What becomes of a group that is read when it stands alone, next to other parts and in brackets.
It goes wrong exactly where a bar has become an outer one or the bracket around the group does not
find its end. If the brackets in the group are balanced it is read in brackets, and behind a text that
closes as many brackets as it opens. -/
theorem ofText_groupText_placed (types : TypeNames) {s t source : Text} {p q : Pattern}
    {g : RegexPart} (hs : s.Barless) (ht : t.Barless) (hp : ofText types s = .ok p)
    (hq : ofText types t = .ok q) (hg : ofText types (groupText source) = .ok (.regex g)) :
    (ofText types (s ++ groupText source ++ t) =
        .ok (ofParts (p.elements ++ .regex g :: q.elements)) ↔
      (s ++ groupText source ++ t).Barless) ∧
    (ofText types ('(' :: groupText source ++ [')']) = .ok (.choice [(0, .regex g)]) ↔
      Text.Barless ('(' :: groupText source ++ [')']) ∧ Text.Balanced '(' ')' source) ∧
    (ofText types ('[' :: groupText source ++ [']']) = .ok (.optional (.regex g)) ↔
      Text.Barless ('[' :: groupText source ++ [']']) ∧ Text.Balanced '[' ']' source) ∧
    (Text.Balanced '(' ')' source → Text.Balanced '[' ']' source →
      ofText types ('(' :: groupText source ++ [')']) = .ok (.choice [(0, .regex g)]) ∧
      ofText types ('[' :: groupText source ++ [']']) = .ok (.optional (.regex g)) ∧
      (Text.depthOf (Text.unescaped s) = 0 → ofText types (s ++ groupText source ++ t) =
        .ok (ofParts (p.elements ++ .regex g :: q.elements)))) := by
  have hbetween := ofText_between_iff hg hs ht hp hq
  have hroundIff := ofText_round_groupText_iff hg
  have hsquareIff := ofText_square_groupText_iff hg
  refine ⟨hbetween, hroundIff, hsquareIff, fun hround hsquare => ⟨?_, ?_, fun hdepth => ?_⟩⟩
  · exact hroundIff.2 ⟨barless_bracket hg (by simp [Text.bracketPairs]) hround hsquare, hround⟩
  · exact hsquareIff.2 ⟨barless_bracket hg (by simp [Text.bracketPairs]) hround hsquare, hsquare⟩
  · exact hbetween.2 (barless_between hg hs ht hp hdepth hround hsquare)

end

theorem ofText_groupText_placed_lopsided :
    ofText numberOnly (['a'] ++ groupText lopsidedSource ++ ['(', 'b', '|', ')']) =
        .ok (sequence [literal ['a'], regex lopsided,
          choice [(0, literal ['b']), (0, literal [])]]) ∧
      ofText numberOnly ('[' :: groupText lopsidedSource ++ [']']) = .ok (optional (regex lopsided)) := by
  have hround : Text.Balanced '(' ')' lopsidedSource := .of_inits (by decide) (by decide)
  have hsquare : Text.Balanced '[' ']' lopsidedSource := .of_inits (by decide) (by decide)
  have hangle : Text.TakesBack '<' '>' 0 lopsidedSource :=
    Text.takesBack_zero.2 ⟨by decide, .of_inits (by decide) (by decide)⟩
  have hg : ofText numberOnly (groupText lopsidedSource) = .ok (regex lopsided) :=
    ofText_groupText_iff.2 ⟨by rfl, rfl, hangle⟩
  have hp : ofText numberOnly ['a'] = .ok (literal ['a']) := by rfl
  have hq : ofText numberOnly ['(', 'b', '|', ')'] =
      .ok (choice [(0, literal ['b']), (0, literal [])]) := by rfl
  obtain ⟨-, hsquare, hbetween⟩ :=
    (ofText_groupText_placed numberOnly (by rfl) (by rfl) hp hq hg).2.2.2 hround hsquare
  exact ⟨hbetween rfl, hsquare⟩

/-- A class that holds a closing parenthesis. -/
def closerSource : Text := ['[', ')', ']']

def closerClass : RegexPart where
  source := closerSource
  whole := (Regex.Machine.ofText? (Regex.anchored closerSource)).get (by decide +kernel)
  search := (Regex.Machine.ofText? closerSource).get (by decide +kernel)
  whole_eq := Regex.threads_compile_eq_ok_iff.2 (Option.some_get _).symm
  search_eq := Regex.threads_compile_eq_ok_iff.2 (Option.some_get _).symm

/-- In front of a choice and in parentheses the class is not read as it is alone. -/
theorem not_ofText_groupText_placed :
    ofText numberOnly (groupText closerSource) = .ok (regex closerClass) ∧
      ofText numberOnly [] = .ok (literal []) ∧
      ofText numberOnly ['(', 'a', '|', 'b', ')'] =
        .ok (choice [(0, literal ['a']), (0, literal ['b'])]) ∧
      ofText numberOnly (groupText closerSource ++ ['(', 'a', '|', 'b', ')']) ≠
        .ok (sequence [regex closerClass, choice [(0, literal ['a']), (0, literal ['b'])]]) ∧
      ofText numberOnly ('(' :: groupText closerSource ++ [')']) ≠
        .ok (choice [(0, regex closerClass)]) := by
  have hangle : Text.TakesBack '<' '>' 0 closerSource :=
    Text.takesBack_zero.2 ⟨by decide, .of_inits (by decide) (by decide)⟩
  have hg : ofText numberOnly (groupText closerSource) = .ok (regex closerClass) :=
    ofText_groupText_iff.2 ⟨by rfl, rfl, hangle⟩
  have hp : ofText numberOnly [] = .ok (literal []) := by rfl
  have hq : ofText numberOnly ['(', 'a', '|', 'b', ')'] =
      .ok (choice [(0, literal ['a']), (0, literal ['b'])]) := by rfl
  refine ⟨hg, hp, hq, fun h => ?_, fun h => ?_⟩
  · have hbars := (ofText_between_iff hg (by rfl) (by rfl) hp hq).1 h
    cases hbars
  · have hbalanced := ((ofText_round_groupText_iff hg).1 h).2
    have := hbalanced.closed
    revert this
    decide

end Pattern

end Phrasebook
