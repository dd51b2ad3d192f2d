import Phrasebook.Proofs.Except
import Phrasebook.Proofs.Pattern.Grammar
import Mathlib.Data.List.TakeWhile

/-!
What the readers of the pieces accept: brackets, marks, slots, runs. Each reads exactly the texts that
the grammar has for its piece.
-/

namespace Phrasebook

namespace Text

theorem splitWhen_ne_nil (sep : Char → Bool) (t : Text) : splitWhen sep t ≠ [] := by
  cases t with
  | nil => simp [splitWhen]
  | cons c t =>
    rw [splitWhen]
    split
    · simp
    · split <;> simp

theorem splitWhen_of_all {f : Char → Bool} {p : Text} (h : ∀ c ∈ p, f c = false) :
    splitWhen f p = [p] := by
  induction p with
  | nil => rfl
  | cons c p ih =>
    rw [splitWhen, ih fun e he => h e (by simp [he])]
    simp [h c (by simp)]

theorem splitWhen_append {f : Char → Bool} {p : Text} (h : ∀ c ∈ p, f c = false) {s : Char}
    (hs : f s = true) (t : Text) :
    splitWhen f (p ++ s :: t) = p :: splitWhen f t := by
  induction p with
  | nil => simp [splitWhen, hs]
  | cons c p ih =>
    rw [List.cons_append, splitWhen, ih fun e he => h e (by simp [he])]
    simp [h c (by simp)]

theorem splitWhen_join {names : List Text} (hne : names ≠ [])
    (h : ∀ name ∈ names, ∀ c ∈ name, c ≠ '/') :
    splitWhen (· == '/') (join ['/'] names) = names := by
  induction names with
  | nil => exact absurd rfl hne
  | cons p ps ih =>
    have hp : ∀ c ∈ p, (c == '/') = false := fun c hc => by simpa using h p (by simp) c hc
    cases ps with
    | nil => exact splitWhen_of_all hp
    | cons q qs =>
      have ih := ih (by simp) fun name hname => h name (by simp [hname])
      rw [join, List.append_assoc, List.singleton_append, splitWhen_append hp (by simp), ih]

/-- The pieces hold no separator. -/
theorem not_mem_splitWhen {sep : Char} {t p : Text} (hp : p ∈ splitWhen (· == sep) t) :
    sep ∉ p := by
  induction t generalizing p with
  | nil => simp_all [splitWhen]
  | cons c t ih =>
    rw [splitWhen] at hp
    split at hp
    · rcases List.mem_cons.1 hp with rfl | hp
      · simp
      · exact ih hp
    · rename_i hc
      have hc : sep ≠ c := fun heq => hc (by rw [heq, beq_self_eq_true])
      obtain ⟨q, qs, hq⟩ := List.exists_cons_of_ne_nil (splitWhen_ne_nil (· == sep) t)
      rw [hq] at hp ih
      rcases List.mem_cons.1 hp with rfl | hp
      · simpa [hc] using ih (p := q) (by simp)
      · exact ih (by simp [hp])

theorem join_splitWhen (sep : Char) (t : Text) : join [sep] (splitWhen (· == sep) t) = t := by
  induction t with
  | nil => rfl
  | cons c t ih =>
    rw [splitWhen]
    obtain ⟨q, qs, hq⟩ := List.exists_cons_of_ne_nil (splitWhen_ne_nil (· == sep) t)
    rw [hq] at ih ⊢
    split
    · rename_i hc
      obtain rfl : c = sep := by simpa using hc
      simp [join, ih]
    · rw [← ih]
      cases qs <;> rfl

theorem mem_of_mem_splitWhen {sep : Char} {t p : Text} (hp : p ∈ splitWhen (· == sep) t) {c : Char}
    (hc : c ∈ p) : c ∈ t := by
  rw [← join_splitWhen sep t]
  generalize splitWhen (· == sep) t = parts at hp
  induction parts with
  | nil => cases hp
  | cons q qs ih =>
    cases qs with
    | nil =>
      rw [List.mem_singleton.1 hp] at hc
      exact hc
    | cons r rs =>
      simp only [join, List.append_assoc, List.mem_append]
      rcases List.mem_cons.1 hp with rfl | hp
      · exact Or.inl hc
      · exact Or.inr (Or.inr (ih hp))

end Text

namespace Pattern

open Text (Sealed)

variable {types : TypeNames}

/-! ## Brackets -/

theorem enclosed?_bracket (opener closer : Char) (hp : (opener, closer) ∈ Text.bracketPairs)
    {d : Int} {t : Text} (h : Sealed d t) (rest : Text) :
    enclosed? opener closer (opener :: t ++ closer :: rest) = some (t, rest) := by
  have hclose : Text.closingIn? opener closer 0 (opener :: t ++ closer :: rest) =
      some (Text.width (opener :: t)) := by
    have hne : opener ≠ '\\' ∧ closer ≠ '\\' ∧ closer ≠ opener := by
      simp only [Text.bracketPairs, List.mem_cons, List.not_mem_nil, or_false, Prod.mk.injEq] at hp
      rcases hp with ⟨rfl, rfl⟩ | ⟨rfl, rfl⟩ | ⟨rfl, rfl⟩ <;> decide
    rw [List.cons_append, Text.closingIn?_opener hne.1, h.closing _ hp,
      Text.closingIn?_cons hne.2.1]
    simp [hne.2.2]
  have hafter : Text.after? (opener :: t ++ closer :: rest) 0 =
      some (opener :: t ++ closer :: rest) := rfl
  simp only [enclosed?, Text.closing?, hafter, hclose, Option.bind_eq_bind, Option.bind_some,
    Nat.zero_add, Text.cut?_append, List.tail_cons]

theorem enclosed?_eq_some_iff {opener closer : Char} (hp : (opener, closer) ∈ Text.bracketPairs)
    {t inside rest : Text} : enclosed? opener closer (opener :: t) = some (inside, rest) ↔
      t = inside ++ closer :: rest ∧ Text.TakesBack opener closer 0 inside := by
  have hne : opener ≠ '\\' ∧ closer ≠ '\\' ∧ opener ≠ closer := by
    simp only [Text.bracketPairs, List.mem_cons, List.not_mem_nil, or_false, Prod.mk.injEq] at hp
    rcases hp with ⟨rfl, rfl⟩ | ⟨rfl, rfl⟩ | ⟨rfl, rfl⟩ <;> decide
  obtain ⟨ho, hc, hne⟩ := hne
  have hstart : enclosed? opener closer (opener :: t) =
      (Text.closingIn? opener closer 1 t).bind fun n =>
        (Text.cut? (opener :: t) (opener.utf8Size + n)).map fun p => (p.1.tail, p.2.tail) := by
    have hafter : Text.after? (opener :: t) 0 = some (opener :: t) := rfl
    simp only [enclosed?, Text.closing?, hafter, Option.bind_eq_bind, Option.bind_some,
      Text.closingIn?_opener ho, Nat.zero_add]
    cases Text.closingIn? opener closer 1 t with
    | none => rfl
    | some n =>
      simp only [Option.map_some, Option.bind_some]
      cases Text.cut? (opener :: t) (opener.utf8Size + n) <;> rfl
  have hcut (u v : Text) : Text.cut? (opener :: (u ++ closer :: v)) (opener.utf8Size + u.width) =
      some (opener :: u, closer :: v) :=
    Text.cut?_append (opener :: u) (closer :: v)
  rw [hstart]
  constructor
  · intro h
    obtain ⟨n, hn, h⟩ := Option.bind_eq_some_iff.1 h
    obtain ⟨u, v, rfl, rfl, hu⟩ := (Text.closingIn?_eq_some_iff hne hc).1 hn
    rw [hcut] at h
    cases h
    exact ⟨rfl, hu⟩
  · rintro ⟨rfl, hu⟩
    rw [(Text.closingIn?_eq_some_iff hne hc).2 ⟨inside, rest, rfl, rfl, hu⟩, Option.bind_some, hcut]
    rfl

/-- The brackets around a sealed text are those of a piece. -/
theorem takesBack_of_sealed (opener closer : Char) (hp : (opener, closer) ∈ Text.bracketPairs)
    {d : Int} {t : Text} (h : Sealed d t) : Text.TakesBack opener closer 0 t :=
  ((enclosed?_eq_some_iff hp).1 (enclosed?_bracket opener closer hp h [])).2

theorem utf8Size_of_mem_bracketPairs {opener closer : Char}
    (hp : (opener, closer) ∈ Text.bracketPairs) : opener.utf8Size = 1 ∧ closer.utf8Size = 1 := by
  simp only [Text.bracketPairs, List.mem_cons, List.not_mem_nil, or_false, Prod.mk.injEq] at hp
  rcases hp with ⟨rfl, rfl⟩ | ⟨rfl, rfl⟩ | ⟨rfl, rfl⟩ <;> decide

theorem append_bracket (opener closer : Char) (inside rest : Text) :
    (opener :: inside ++ [closer]) ++ rest = opener :: (inside ++ closer :: rest) := by simp

theorem width_bracket {i : Nat} (opener closer : Char) (inside : Text) (ho : opener.utf8Size = 1)
    (hc : closer.utf8Size = 1) :
    i + inside.width + 2 = i + Text.width (opener :: inside ++ [closer]) := by
  simp only [List.cons_append, Text.width_cons, Text.width_append, Text.width_nil, ho, hc]
  omega

/-! ## Marks -/

theorem mark?_append {digits rest : Text} (hne : digits ≠ [])
    (hd : ∀ c ∈ digits, Text.isDigit c = true) (i : Nat) :
    mark? i (digits ++ markSign :: rest) =
      match decimalValue? digits with
      | some n =>
        if n ≤ maxMark then .ok (some (Int32.ofNat n, rest)) else .error (.markTooLarge digits i)
      | none => .error (.markTooLarge digits i) := by
  have htake : (digits ++ markSign :: rest).takeWhile Text.isDigit = digits := by
    rw [List.takeWhile_append_of_pos hd, List.takeWhile_cons_of_neg (by decide), List.append_nil]
  rw [mark?, htake, List.drop_left]
  cases digits with
  | nil => exact absurd rfl hne
  | cons d ds => rfl

theorem decimalValue?_eq_some_iff {digits : Text} {n : Nat} : decimalValue? digits = some n ↔
    (∀ c ∈ digits, c.isDigit = true) ∧ Nat.ofDigitChars 10 digits 0 = n := by
  constructor
  · intro h
    have hall : ∀ c ∈ digits, c.isDigit = true := by
      rw [decimalValue?] at h
      generalize 0 = start at h
      induction digits generalizing start with
      | nil => simp
      | cons c t ih =>
        rw [List.foldlM_cons] at h
        split at h
        · rename_i hc
          simpa [hc] using ih _ h
        · cases h
    rw [decimalValue?_eq hall] at h
    exact ⟨hall, Option.some.inj h⟩
  · rintro ⟨hall, rfl⟩
    exact decimalValue?_eq hall

theorem mark?_of_not_marked {t : Text} (h : ¬ Marked t) (i : Nat) : mark? i t = .ok none := by
  unfold mark?
  dsimp only
  split
  · rename_i d ds c rest htake hdrop
    split
    · rename_i hc
      rw [drop_length_takeWhile] at hdrop
      refine absurd ⟨d :: ds, rest, by simp, fun e he => ?_, ?_⟩ h
      · rw [← htake] at he
        exact List.mem_takeWhile_imp he
      · rw [← hc, ← hdrop, ← htake, List.takeWhile_append_dropWhile]
    · rfl
  · rfl

theorem mark?_eq_ok_some_iff {i : Nat} {t rest : Text} {m : Int32} :
    mark? i t = .ok (some (m, rest)) ↔ ∃ digits, digits ≠ [] ∧ (∀ c ∈ digits, c.isDigit = true) ∧
      Nat.ofDigitChars 10 digits 0 ≤ maxMark ∧ t = digits ++ markSign :: rest ∧
      m = Int32.ofNat (Nat.ofDigitChars 10 digits 0) := by
  constructor
  · intro h
    by_cases hmark : Marked t
    · obtain ⟨digits, rest', hne, hd, rfl⟩ := hmark
      rw [mark?_append hne hd] at h
      split at h
      · rename_i n hn
        obtain ⟨hall, rfl⟩ := decimalValue?_eq_some_iff.1 hn
        split at h
        · rename_i hle
          cases h
          exact ⟨digits, hne, hall, hle, rfl, rfl⟩
        · cases h
      · cases h
    · rw [mark?_of_not_marked hmark] at h
      cases h
  · rintro ⟨digits, hne, hall, hle, rfl, rfl⟩
    rw [mark?_append hne fun c hc => isDigit_of_ascii (hall c hc), decimalValue?_eq hall]
    simp [hle]

theorem mark?_eq_ok_none_iff {i : Nat} {t : Text} : mark? i t = .ok none ↔ ¬ Marked t := by
  constructor
  · rintro h ⟨digits, rest, hne, hd, rfl⟩
    rw [mark?_append hne hd] at h
    split at h
    · split at h <;> cases h
    · cases h
  · exact fun h => mark?_of_not_marked h i

/-! ## Slots -/

theorem slotTypes_eq_ok_iff {i : Nat} {spec : Text} {names : List Text} {ts : List SlotType} :
    slotTypes types i spec names = .ok ts ↔
      List.Forall₂ (fun name t => name ≠ [] ∧ types (String.ofList name) = some t) names ts := by
  induction names generalizing ts with
  | nil => 
    constructor
    · intro h
      cases h
      exact .nil
    · rintro ⟨⟩
      rfl
  | cons name names ih =>
    rw [slotTypes, List.forall₂_cons_left_iff]
    constructor
    · intro h
      split at h
      · cases h
      · rename_i hne
        dsimp only at h
        split at h
        · cases h
        · rename_i t ht
          obtain ⟨us, hus, h⟩ := ok_of_bind h
          cases h
          exact ⟨t, us, ⟨hne, ht⟩, ih.1 hus, rfl⟩
    · rintro ⟨t, us, ⟨hne, ht⟩, hus, rfl⟩
      simp only [hne, if_false, ht, ih.2 hus]
      rfl

/-- Names between slashes begin with a character of a word. -/
theorem exists_cons_of_forall₂_names {names : List Text} {ts : List SlotType} (hne : names ≠ [])
    (h : List.Forall₂ (Names types) names ts) :
    ∃ c rest, Text.join ['/'] names = c :: rest ∧ Text.isWord c = true := by
  cases h with
  | nil => exact absurd rfl hne
  | @cons name t names ts hname hnames =>
    obtain ⟨c, rest, rfl⟩ := List.exists_cons_of_ne_nil hname.nonempty
    refine ⟨c, ?_⟩
    cases names <;> simp [Text.join, hname.word c]

/-- The names of a slot are read as the types that they mean. -/
theorem slotTypes_splitWhen_iff {i : Nat} {spec names : Text} {ts : List SlotType}
    (hall : names.all (fun c => Text.isWord c || c == '/') = true) :
    slotTypes types i spec (Text.splitWhen (· == '/') names) = .ok ts ↔
      ∃ parts, parts ≠ [] ∧ List.Forall₂ (Names types) parts ts ∧ names = Text.join ['/'] parts := by
  have hword {part : Text} (hpart : part ∈ Text.splitWhen (· == '/') names) {c : Char}
      (hc : c ∈ part) : Text.isWord c = true := by
    have hslash : c ≠ '/' := by
      rintro rfl
      exact Text.not_mem_splitWhen hpart hc
    simpa [hslash] using List.all_eq_true.1 hall c (Text.mem_of_mem_splitWhen hpart hc)
  rw [slotTypes_eq_ok_iff]
  constructor
  · intro h
    refine ⟨_, Text.splitWhen_ne_nil _ _, ?_, (Text.join_splitWhen '/' names).symm⟩
    rw [List.forall₂_iff_get] at h ⊢
    refine ⟨h.1, fun j hj hj' => ?_⟩
    obtain ⟨hne, ht⟩ := h.2 j hj hj'
    exact ⟨hne, fun c => hword (List.get_mem _ _), ht⟩
  · rintro ⟨parts, hne, h, rfl⟩
    rw [Text.splitWhen_join hne fun name hname c hc => ?_]
    · exact h.imp fun name t hname => ⟨hname.nonempty, hname.known⟩
    · rintro rfl
      have := isWord_of_forall₂_names h name hname _ hc
      revert this
      decide

/-- A text is cut at its first percent sign. -/
theorem eq_append_of_percent {t rest : Text} {c : Char}
    (h : t.drop (t.takeWhile (· ≠ '%')).length = c :: rest) :
    t = t.takeWhile (· ≠ '%') ++ '%' :: rest := by
  rw [drop_length_takeWhile] at h
  obtain rfl : c = '%' := by
    have := List.head?_dropWhile_not (fun d => decide (d ≠ '%')) t
    rw [h] at this
    simpa using this
  rw [← h, List.takeWhile_append_dropWhile]

variable [RegexEngine] {read : Reader}

theorem slotOf_of_slotText {spec : Text} {p : Pattern} (h : SlotText types spec p) (i : Nat) :
    slotOf types i spec = .ok p := by
  obtain ⟨hne, named, nullable, accepts⟩ := h
  rename_i names ts
  obtain ⟨c, rest, hnames, hc⟩ := exists_cons_of_forall₂_names hne named
  have hc1 : c ≠ '-' := by rintro rfl; revert hc; decide
  have hc2 : c ≠ '~' := by rintro rfl; revert hc; decide
  have hc3 : c ≠ '*' := by rintro rfl; revert hc; decide
  have hall : (c :: rest).all (fun d => Text.isWord d || d == '/') = true := by
    rw [← hnames, List.all_eq_true]
    intro d hd
    rcases mem_join hd with hd | ⟨name, hname, hd⟩
    · simp_all
    · simp [isWord_of_forall₂_names named name hname d hd]
  have htypes (spec : Text) :
      slotTypes types i spec (Text.splitWhen (· == '/') (c :: rest)) = .ok ts :=
    (slotTypes_splitWhen_iff hall).2 ⟨names, hne, named, hnames.symm⟩
  rw [hnames]
  cases nullable <;> cases accepts <;>
    simp [slotOf, acceptanceText, hc1, hc2, hc3, hall, htypes]

theorem slotText_of_slotOf {i : Nat} {spec : Text} {p : Pattern} (h : slotOf types i spec = .ok p) :
    SlotText types spec p := by
  unfold slotOf at h
  split at h
  rename_i nullable signed hnull
  split at h
  rename_i accepts names hsign
  have hspec : spec = (if nullable then ['-'] else []) ++ signed := by
    split at hnull <;> cases hnull <;> rfl
  have hsigned : signed = acceptanceText accepts ++ names := by
    split at hsign <;> cases hsign <;> rfl
  split at h
  · cases h
  · rename_i hgood
    rw [not_or, not_not] at hgood
    obtain ⟨ts, hts, h⟩ := ok_of_bind h
    cases h
    obtain ⟨parts, hne, named, rfl⟩ := (slotTypes_splitWhen_iff hgood.2).1 hts
    rw [hspec, hsigned, ← List.append_assoc]
    exact .names hne named nullable accepts

theorem SlotText.isLiteral {spec : Text} {p : Pattern} (h : SlotText types spec p) :
    p.isLiteral = false := by
  cases h
  rfl

theorem SlotText.ne_percent_of_mem {spec : Text} {p : Pattern} (h : SlotText types spec p) {c : Char}
    (hc : c ∈ spec) : c ≠ '%' := by
  rintro rfl
  have := h.isSpecial_of_mem hc
  revert this
  decide

/-! ## Branches -/

/-- A branch that is alone in square brackets is read as elsewhere, and stands for itself if it has
no mark. -/
theorem optionalInside_eq_branch {t : Text} (h : t.splitBars.length = 1) (base : Nat) :
    optionalInside read base t = (branch read base t).map fun b =>
      match mark? base t with
      | .ok (some _) => .choice [b]
      | _ => b.2 := by
  rw [optionalInside, if_pos h, branch]
  cases mark? base t with
  | error e => rfl
  | ok found =>
    cases found with
    | none => cases hread : read base t <;> simp [bind, Except.bind] <;> rfl
    | some found =>
      obtain ⟨m, rest⟩ := found
      cases hread : read (base + markWidth t rest) rest <;> simp [bind, Except.bind, hread] <;> rfl

/-! ## Regular expressions -/

theorem ofSource_source (g : RegexPart) : RegexPart.ofSource g.source = .ok g := by
  rw [RegexPart.ofSource]
  split
  · rename_i h
    rw [g.whole_eq] at h
    cases h
  · split
    · rename_i h
      rw [g.search_eq] at h
      cases h
    · exact congrArg Except.ok (RegexPart.ext_source rfl)

theorem ofSource_eq_ok_iff {source : Text} {g : RegexPart} :
    RegexPart.ofSource source = .ok g ↔ g.source = source := by
  constructor
  · intro h
    unfold RegexPart.ofSource at h
    split at h
    · cases h
    · split at h
      · cases h
      · cases h
        rfl
  · rintro rfl
    exact ofSource_source g

/-! ## One step of reading -/

/-- A part in brackets or percent signs, at byte `i`. -/
inductive Piece (types : TypeNames) (read : Reader) (i : Nat) : Text → Pattern → Prop
  | optional {inside : Text} {p : Pattern} (back : Text.TakesBack '[' ']' 0 inside)
      (inner : optionalInside read (i + 1) inside = .ok p) :
      Piece types read i ('[' :: inside ++ [']']) (.optional p)
  | choice {inside : Text} {p : Pattern} (back : Text.TakesBack '(' ')' 0 inside)
      (inner : branches read (i + 1) inside.splitBars = .ok p) :
      Piece types read i ('(' :: inside ++ [')']) p
  | regex {g : RegexPart} (back : Text.TakesBack '<' '>' 0 g.source) :
      Piece types read i ('<' :: g.source ++ ['>']) (.regex g)
  | slot {spec : Text} {p : Pattern} (slot : SlotText types spec p) :
      Piece types read i ('%' :: spec ++ ['%']) p

theorem Piece.length_pos {i : Nat} {t : Text} {p : Pattern} (h : Piece types read i t p) :
    0 < t.length := by
  cases h <;> simp

/-- What one step of reading parts does, and what the rest is read as. -/
inductive Taken (types : TypeNames) (read : Reader) (fuel i : Nat) (plain : Text) :
    Text → List Pattern → Prop
  | nil : Taken types read fuel i plain [] (flush plain [])
  | piece {front rest : Text} {q : Pattern} {qs : List Pattern} (piece : Piece types read i front q)
      (more : parts types read fuel (i + front.width) [] rest = .ok qs) :
      Taken types read fuel i plain (front ++ rest) (flush plain (q :: qs))
  | escape {c : Char} {rest : Text} {ps : List Pattern}
      (more : parts types read fuel (i + 1 + c.utf8Size) (c :: plain) rest = .ok ps) :
      Taken types read fuel i plain ('\\' :: c :: rest) ps
  | plain {c : Char} {rest : Text} {ps : List Pattern} (hc : isPlain c = true ∨ c = '|')
      (more : parts types read fuel (i + c.utf8Size) (c :: plain) rest = .ok ps) :
      Taken types read fuel i plain (c :: rest) ps

theorem parts_nil (fuel i : Nat) (plain : Text) :
    parts types read fuel i plain [] = .ok (flush plain []) := by
  cases fuel <;> rfl

theorem parts_escape (fuel i : Nat) (plain : Text) (c : Char) (rest : Text) :
    parts types read (fuel + 1) i plain ('\\' :: c :: rest) =
      parts types read fuel (i + 1 + c.utf8Size) (c :: plain) rest := rfl

theorem parts_of_isPlain {c : Char} (h : isPlain c = true ∨ c = '|') (fuel i : Nat)
    (plain rest : Text) : parts types read (fuel + 1) i plain (c :: rest) =
      parts types read fuel (i + c.utf8Size) (c :: plain) rest := by
  rcases h with h | rfl
  · rw [parts.eq_def]
    split <;> simp_all [isPlain]
  · rfl

section

variable {fuel i : Nat} {plain t : Text} {ps : List Pattern}

/-- A bracket that is read at all is read as a piece, if its inside gives one. -/
theorem taken_of_bracket {α : Type} {opener closer : Char}
    (hp : (opener, closer) ∈ Text.bracketPairs) {e : PatternError}
    {inner : Text → Except PatternError α} {build : α → Pattern}
    (hpiece : ∀ inside a, Text.TakesBack opener closer 0 inside → inner inside = .ok a →
      Piece types read i (opener :: inside ++ [closer]) (build a))
    (h : (do
      let some (inside, rest) := enclosed? opener closer (opener :: t) | throw e
      let a ← inner inside
      let qs ← parts types read fuel (i + inside.width + 2) [] rest
      return flush plain (build a :: qs)) = Except.ok ps) :
    Taken types read fuel i plain (opener :: t) ps := by
  split at h
  · rename_i inside rest hinside
    obtain ⟨rfl, hback⟩ := (enclosed?_eq_some_iff hp).1 hinside
    obtain ⟨a, ha, h⟩ := ok_of_bind h
    obtain ⟨qs, hqs, h⟩ := ok_of_bind h
    cases h
    rw [width_bracket opener closer inside (utf8Size_of_mem_bracketPairs hp).1
      (utf8Size_of_mem_bracketPairs hp).2] at hqs
    rw [← append_bracket]
    exact .piece (hpiece inside a hback ha) hqs
  · cases h

theorem taken_of_percent (h : parts types read (fuel + 1) i plain ('%' :: t) = .ok ps) :
    Taken types read fuel i plain ('%' :: t) ps := by
  rw [parts] at h
  split at h
  · rename_i sign rest hrest
    obtain ⟨p, hp, h⟩ := ok_of_bind h
    obtain ⟨qs, hqs, h⟩ := ok_of_bind h
    cases h
    have ht := eq_append_of_percent hrest
    have hslot := slotText_of_slotOf hp
    generalize t.takeWhile (· ≠ '%') = spec at ht hslot hqs
    subst ht
    rw [width_bracket '%' '%' spec rfl rfl] at hqs
    rw [← append_bracket]
    exact .piece (.slot hslot) hqs
  · cases h

theorem taken_of_parts (h : parts types read (fuel + 1) i plain t = .ok ps) :
    Taken types read fuel i plain t ps := by
  cases t with
  | nil =>
    rw [parts_nil] at h
    cases h
    exact .nil
  | cons c t =>
    have hwhole := h
    rw [parts.eq_def] at h
    dsimp only at h
    split at h
    · exact taken_of_bracket (by simp [Text.bracketPairs]) (fun _ _ hback hp => .optional hback hp) h
    · exact taken_of_bracket (by simp [Text.bracketPairs])
        (fun _ _ hback hp => .choice hback hp) h
    · refine taken_of_bracket (by simp [Text.bracketPairs]) (fun inside g hback hg => ?_) h
      obtain rfl := ofSource_eq_ok_iff.1 (ok_of_mapError hg)
      exact .regex hback
    · exact taken_of_percent hwhole
    · split at h
      · cases h
      · exact .escape h
    · cases h
    · cases h
    · cases h
    · exact .plain (by simp_all [isPlain]; tauto) h

theorem parts_of_taken (h : Taken types read fuel i plain t ps) :
    parts types read (fuel + 1) i plain t = .ok ps := by
  cases h with
  | nil => exact parts_nil (fuel + 1) i plain
  | escape more => rw [parts_escape, more]
  | plain hc more => rw [parts_of_isPlain hc, more]
  | @piece front rest q qs piece more =>
    cases piece with
    | @optional inside p back inner =>
      have hinside : enclosed? '[' ']' ('[' :: (inside ++ ']' :: rest)) = some (inside, rest) :=
        (enclosed?_eq_some_iff (by simp [Text.bracketPairs])).2 ⟨rfl, back⟩
      rw [← width_bracket '[' ']' inside rfl rfl] at more
      rw [append_bracket, parts]
      simp only [hinside, inner, more]
      rfl
    | @choice inside p back inner =>
      have hinside : enclosed? '(' ')' ('(' :: (inside ++ ')' :: rest)) = some (inside, rest) :=
        (enclosed?_eq_some_iff (by simp [Text.bracketPairs])).2 ⟨rfl, back⟩
      rw [← width_bracket '(' ')' inside rfl rfl] at more
      rw [append_bracket, parts]
      simp only [hinside, inner, more]
      rfl
    | @regex g back =>
      have hinside : enclosed? '<' '>' ('<' :: (g.source ++ '>' :: rest)) = some (g.source, rest) :=
        (enclosed?_eq_some_iff (by simp [Text.bracketPairs])).2 ⟨rfl, back⟩
      rw [← width_bracket '<' '>' g.source rfl rfl] at more
      rw [append_bracket, parts]
      simp only [hinside, ofSource_source, more]
      rfl
    | @slot spec p slot =>
      have htake : (spec ++ '%' :: rest).takeWhile (· ≠ '%') = spec := by
        rw [List.takeWhile_append_of_pos fun c hc => by simpa using slot.ne_percent_of_mem hc]
        simp
      rw [← width_bracket '%' '%' spec rfl rfl] at more
      rw [append_bracket, parts]
      simp only [htake, List.drop_left, slotOf_of_slotText slot, more]
      rfl

end

/-- A run is collected in front of what follows it. -/
theorem parts_run {s t : Text} (h : Run s t) (fuel i : Nat) (plain rest : Text)
    (hf : (s ++ rest).length ≤ fuel) :
    ∃ f j, rest.length ≤ f ∧ parts types read fuel i plain (s ++ rest) =
      parts types read f j (t.reverse ++ plain) rest := by
  induction h generalizing fuel i plain with
  | nil => exact ⟨fuel, i, hf, rfl⟩
  | @plain c s t hc _ ih =>
    rw [List.cons_append, List.length_cons] at hf
    obtain ⟨n, rfl⟩ : ∃ n, fuel = n + 1 := ⟨fuel - 1, by omega⟩
    obtain ⟨f, j, hr, heq⟩ := ih n (i + c.utf8Size) (c :: plain) (by omega)
    refine ⟨f, j, hr, ?_⟩
    rw [List.cons_append, parts_of_isPlain (Or.inl hc), heq]
    simp
  | @escape s t c _ ih =>
    rw [List.cons_append, List.cons_append, List.length_cons, List.length_cons] at hf
    obtain ⟨n, rfl⟩ : ∃ n, fuel = n + 1 := ⟨fuel - 1, by omega⟩
    obtain ⟨f, j, hr, heq⟩ := ih n (i + 1 + c.utf8Size) (c :: plain) (by omega)
    refine ⟨f, j, hr, ?_⟩
    rw [List.cons_append, List.cons_append, parts_escape, heq]
    simp

end Pattern

end Phrasebook
