import Phrasebook.Expression
import Phrasebook.Proofs.Text.Place
import Phrasebook.Text.Listing

/-!
Lists as they are printed and cut again. A part may hold anything between quotes and in parentheses;
outside of them it must have no comma and no conjunction that stands alone. Then the scan for parts passes
over it, and the text of two or more such parts is cut into just these. A text in quotes is such a part.
-/

namespace Phrasebook.Text

/-! ## Quotes and parentheses -/

/-- Whether a quote is open at the end of the text. -/
def quoteOpen (t : Text) : Bool := t.count '"' % 2 == 1

/-- The characters outside quotes, of a text that may begin inside. -/
def outsideQuotes : (inside : Bool) → Text → Text
  | _, [] => []
  | inside, c :: t =>
    if c = '"' then outsideQuotes (!inside) t
    else if inside then outsideQuotes inside t
    else c :: outsideQuotes inside t

/-- How many parentheses outside quotes are open at the end of the text. -/
def parenDepth (t : Text) : Int :=
  (outsideQuotes false t).count '(' - (outsideQuotes false t).count ')'

/-- What stands behind the text is outside quotes and parentheses. -/
structure AtTop (t : Text) : Prop where
  quotes : quoteOpen t = false
  parens : parenDepth t = 0

theorem AtTop.nil : AtTop [] := ⟨rfl, rfl⟩

theorem quoteOpen_concat (u : Text) (c : Char) :
    quoteOpen (u ++ [c]) = if c = '"' then !quoteOpen u else quoteOpen u := by
  unfold quoteOpen
  rw [List.count_append]
  split
  · rename_i hc
    rw [hc, List.count_singleton_self, Bool.eq_iff_iff]
    simp only [beq_iff_eq, Bool.not_eq_true', beq_eq_false_iff_ne]
    omega
  · rename_i hc
    rw [List.count_singleton, if_neg (by simpa using hc), Nat.add_zero]

theorem outsideQuotes_concat (u : Text) (c : Char) (inside : Bool) :
    outsideQuotes inside (u ++ [c]) = outsideQuotes inside u ++
      if c = '"' ∨ (inside ^^ quoteOpen u) = true then [] else [c] := by
  induction u generalizing inside with
  | nil => by_cases hc : c = '"' <;> cases inside <;> simp [outsideQuotes, quoteOpen, hc]
  | cons d u ih =>
    have hopen : quoteOpen (d :: u) = if d = '"' then !quoteOpen u else quoteOpen u := by
      rw [← quoteOpen_concat]
      unfold quoteOpen
      rw [List.count_append, List.count_cons, List.count_singleton]
    rw [List.cons_append, outsideQuotes, outsideQuotes, hopen, ih, ih]
    by_cases hd : d = '"'
    · cases inside <;> simp [hd]
    · cases inside <;> simp [hd]

theorem parenDepth_concat (u : Text) (c : Char) :
    parenDepth (u ++ [c]) = parenDepth u +
      if quoteOpen u = true then 0 else if c = '(' then 1 else if c = ')' then -1 else 0 := by
  unfold parenDepth
  rw [outsideQuotes_concat, List.count_append, List.count_append]
  cases quoteOpen u with
  | true => simp
  | false =>
    by_cases hquote : c = '"'
    · simp [hquote]
    · by_cases hopen : c = '('
      · simp [hopen]
        omega
      · by_cases hclose : c = ')'
        · simp [hclose]
          omega
        · simp [hquote, hopen, hclose]

theorem AtTop.append_blank {u b : Text} (h : AtTop u) (hb : ∀ c ∈ b, isBlank c = true) :
    AtTop (u ++ b) := by
  induction b generalizing u with
  | nil => rwa [List.append_nil]
  | cons c b ih =>
    have hc := hb c List.mem_cons_self
    have hquote : c ≠ '"' := by rintro rfl; cases hc
    have hopen : c ≠ '(' := by rintro rfl; cases hc
    have hclose : c ≠ ')' := by rintro rfl; cases hc
    have hnext : AtTop (u ++ [c]) :=
      ⟨by rw [quoteOpen_concat, if_neg hquote, h.quotes],
        by simp [parenDepth_concat, h.quotes, h.parens, hopen, hclose]⟩
    have := ih hnext fun d hd => hb d (List.mem_cons_of_mem c hd)
    rwa [List.append_assoc, List.singleton_append] at this

/-- The scan for parts takes one more character to the current part, if that one separates nothing. -/
theorem listParts_next {u t part : Text} {c : Char} (fuel : Nat)
    (h : AtTop u → c ≠ ',' ∧ (isBlank c = true → conjunction? (c :: t) = none)) :
    listParts (fuel + 1) (parenDepth u) (quoteOpen u) part (c :: t) =
      listParts fuel (parenDepth (u ++ [c])) (quoteOpen (u ++ [c])) (c :: part) t := by
  rw [listParts, quoteOpen_concat, parenDepth_concat]
  by_cases hquote : c = '"'
  · simp [hquote]
  by_cases hopen : quoteOpen u = true
  · simp [hquote, hopen]
  have hopen := Bool.eq_false_iff.2 hopen
  by_cases hleft : c = '('
  · simp [hleft, hopen]
  by_cases hright : c = ')'
  · simp [hright, hopen]
    rfl
  by_cases hdepth : parenDepth u = 0
  · obtain ⟨hcomma, hblank⟩ := h ⟨hopen, hdepth⟩
    by_cases hc : isBlank c = true
    · simp [hquote, hopen, hleft, hright, hdepth, hcomma, hc, hblank hc]
    · simp [hquote, hopen, hleft, hright, hdepth, hcomma, hc]
  · simp [hquote, hopen, hleft, hright, hdepth]

/-! ## Parts -/

def conjunctions : List Text := ["and".toList, "or".toList, "nor".toList]

/-- A part that the scan passes over: it ends at the top, and there it has neither a comma nor a
conjunction between blanks or the edges of the part. -/
structure Indivisible (p : Text) : Prop where
  nonempty : p ≠ []
  trimmed : trim p = p
  atTop : AtTop p
  comma : ∀ u v, p = u ++ ',' :: v → ¬ AtTop u
  conjunction : ∀ u w v, p = u ++ (w ++ v) → AtTop u → u.getLast?.all isBlank = true →
    v.head?.all isBlank = true → w.map Char.toLower ∉ conjunctions

theorem indivisible_iff {p : Text} : Indivisible p ↔ p ≠ [] ∧ trim p = p ∧ AtTop p ∧
    (∀ i < p.length, (p.drop i).head? = some ',' → ¬ AtTop (p.take i)) ∧
    ∀ i ≤ p.length, AtTop (p.take i) ∧ (p.take i).getLast?.all isBlank = true → ∀ k ≤ p.length,
      ((p.drop i).drop k).head?.all isBlank = true →
        ((p.drop i).take k).map Char.toLower ∉ conjunctions := by
  constructor
  · intro h
    refine ⟨h.nonempty, h.trimmed, h.atTop, fun i _ hcomma => h.comma _ (p.drop (i + 1)) ?_,
      fun i _ htop k _ hhead => h.conjunction _ _ ((p.drop i).drop k) ?_ htop.1 htop.2 hhead⟩
    · rw [← List.tail_drop, List.cons_head?_tail hcomma, List.take_append_drop]
    · rw [List.take_append_drop, List.take_append_drop]
  · rintro ⟨hne, htrim, htop, hcomma, hconj⟩
    refine ⟨hne, htrim, htop, ?_, ?_⟩
    · rintro u v rfl
      simpa using hcomma u.length (by simp) (by simp)
    · rintro u w v rfl hu hlast hhead
      have hu' : AtTop ((u ++ (w ++ v)).take u.length) ∧
          ((u ++ (w ++ v)).take u.length).getLast?.all isBlank = true := by
        rw [List.take_left]
        exact ⟨hu, hlast⟩
      have hword := hconj u.length (by simp) hu' w.length (by simp; omega)
      rw [List.drop_left, List.drop_left, List.take_left] at hword
      exact hword hhead

instance (t : Text) : Decidable (AtTop t) :=
  decidable_of_iff (quoteOpen t = false ∧ parenDepth t = 0)
    ⟨fun h => ⟨h.1, h.2⟩, fun h => ⟨h.quotes, h.parens⟩⟩

set_option synthInstance.maxSize 256 in
instance (p : Text) : Decidable (Indivisible p) := decidable_of_iff' _ indivisible_iff

/-- What may stand behind a part: a separator or nothing. -/
def EndsPart (rest : Text) : Prop := ∀ c ∈ rest.head?, c = ',' ∨ isBlank c = true

/-- A word that has no comma ends with the part at the latest. -/
theorem exists_takeWhile_append {v rest : Text} (hrest : EndsPart rest)
    (hcomma : ',' ∉ (v ++ rest).takeWhile (!isBlank ·)) :
    ∃ x, v = (v ++ rest).takeWhile (!isBlank ·) ++ x ∧ x.head?.all isBlank = true := by
  induction v with
  | nil =>
    refine ⟨[], ?_, rfl⟩
    rw [List.append_nil, List.nil_append] at *
    cases rest with
    | nil => rfl
    | cons c rest =>
      rcases hrest c rfl with rfl | hc
      · exact absurd (by simp [show isBlank ',' = false from rfl]) hcomma
      · simp [hc]
  | cons c v ih =>
    by_cases hc : isBlank c = true
    · exact ⟨c :: v, by simp [hc], by simp [hc]⟩
    · rw [List.cons_append, List.takeWhile_cons_of_pos (by simp [hc])] at hcomma ⊢
      obtain ⟨x, hx, hhead⟩ := ih fun hmem => hcomma (List.mem_cons_of_mem c hmem)
      exact ⟨x, by rw [List.cons_append, ← hx], hhead⟩

theorem conjunction?_eq_none {b t : Text} (hb : ∀ c ∈ b, isBlank c = true)
    (ht : ∀ c ∈ t.head?, isBlank c = false)
    (hword : (t.takeWhile (!isBlank ·)).map Char.toLower ∉ conjunctions) :
    conjunction? (b ++ t) = none := by
  have hrest : (b ++ t).dropWhile isBlank = t := by
    rw [List.dropWhile_append_of_pos hb]
    cases t with
    | nil => rfl
    | cons c t => rw [List.dropWhile_cons_of_neg (by simp [ht c rfl])]
  have hname (w : Text) (hw : w ∈ conjunctions) :
      String.ofList ((t.takeWhile (!isBlank ·)).map Char.toLower) ≠ String.ofList w := by
    intro h
    rw [String.ofList_injective h] at hword
    exact hword hw
  unfold conjunction?
  rw [hrest]
  refine if_neg ?_
  simp only [Bool.and_eq_true, Bool.or_eq_true, beq_iff_eq, not_and, not_or]
  exact fun _ => ⟨⟨hname "and".toList (by decide), hname "or".toList (by decide)⟩,
    hname "nor".toList (by decide)⟩

namespace Indivisible

variable {p : Text} (hp : Indivisible p)

include hp

/-- At the top of a part no conjunction begins behind a blank, nor in front of the part. -/
theorem conjunction?_eq_none {u b v rest : Text} (h : p = u ++ v) (htop : AtTop u)
    (hlast : u.getLast?.all isBlank = true) (hb : ∀ c ∈ b, isBlank c = true)
    (hv : ∀ c ∈ v.head?, isBlank c = false) (hne : v ≠ []) (hrest : EndsPart rest) :
    conjunction? (b ++ (v ++ rest)) = none := by
  obtain ⟨c, v', rfl⟩ := List.exists_cons_of_ne_nil hne
  refine Text.conjunction?_eq_none hb (fun d hd => hv d hd) fun hword => ?_
  have hcomma : ',' ∉ (c :: v' ++ rest).takeWhile (!isBlank ·) := by
    intro hmem
    have := List.mem_map_of_mem (f := Char.toLower) hmem
    revert this
    generalize List.map Char.toLower _ = w at hword
    revert w
    decide
  obtain ⟨x, hx, hhead⟩ := exists_takeWhile_append hrest hcomma
  exact hp.conjunction u _ x (h.trans (congrArg (u ++ ·) hx)) htop hlast hhead hword

/-- Inside a part no blank at the top begins a separator. -/
theorem conjunction?_inside {u v rest : Text} {c : Char} (h : p = u ++ c :: v) (htop : AtTop u)
    (hc : isBlank c = true) (hrest : EndsPart rest) : conjunction? (c :: (v ++ rest)) = none := by
  have hb : ∀ d ∈ (c :: v).takeWhile isBlank, isBlank d = true := fun d hd => List.mem_takeWhile_imp hd
  have hw : ∀ d ∈ ((c :: v).dropWhile isBlank).head?, isBlank d = false := by
    intro d hd
    have := List.head?_dropWhile_not isBlank (c :: v)
    rwa [hd] at this
  have hsplit : c :: v = (c :: v).takeWhile isBlank ++ (c :: v).dropWhile isBlank :=
    List.takeWhile_append_dropWhile.symm
  -- a part does not end with a blank, so a word follows
  have hne : (c :: v).dropWhile isBlank ≠ [] := by
    intro hnil
    rw [hnil, List.append_nil] at hsplit
    have hlast := List.getLast?_eq_some_getLast (List.cons_ne_nil c v)
    have hblank := hb ((c :: v).getLast (List.cons_ne_nil c v))
      (hsplit ▸ List.getLast_mem (List.cons_ne_nil c v))
    rw [not_blank_last_of_trimmed hp.trimmed _ (by rw [h, List.getLast?_append, hlast]; rfl)] at hblank
    cases hblank
  have hedge : (u ++ (c :: v).takeWhile isBlank).getLast?.all isBlank = true := by
    have hnonempty : (c :: v).takeWhile isBlank ≠ [] := by simp [hc]
    rw [List.getLast?_append, List.getLast?_eq_some_getLast hnonempty]
    exact hb _ (List.getLast_mem hnonempty)
  have hnone := hp.conjunction?_eq_none (u := u ++ (c :: v).takeWhile isBlank)
    (by rw [List.append_assoc, ← hsplit, h]) (htop.append_blank hb) hedge hb hw hne hrest
  rwa [← List.append_assoc, ← hsplit] at hnone

/-- The scan takes the whole part to the current one. -/
theorem listParts_append {part rest : Text} (hrest : EndsPart rest) (fuel : Nat) :
    listParts (p.length + fuel) 0 false part (p ++ rest) =
      listParts fuel 0 false (p.reverse ++ part) rest := by
  have hrun (v : Text) : ∀ u part, p = u ++ v →
      listParts (v.length + fuel) (parenDepth u) (quoteOpen u) part (v ++ rest) =
        listParts fuel (parenDepth p) (quoteOpen p) (v.reverse ++ part) rest := by
    induction v with
    | nil =>
      intro u part h
      rw [h, List.append_nil, List.length_nil, Nat.zero_add]
      rfl
    | cons c v ih =>
      intro u part h
      have hstep : AtTop u → c ≠ ',' ∧ (isBlank c = true → conjunction? (c :: (v ++ rest)) = none) := by
        refine fun htop => ⟨?_, fun hc => hp.conjunction?_inside h htop hc hrest⟩
        rintro rfl
        exact hp.comma u v h htop
      rw [List.length_cons, Nat.add_right_comm, List.cons_append, listParts_next _ hstep,
        ih (u ++ [c]) (c :: part) (by simp [h])]
      simp
  have := hrun p [] part rfl
  rwa [hp.atTop.quotes, hp.atTop.parens] at this

end Indivisible

/-! ## Separators -/

theorem trim_blank_append {b : Text} (hb : ∀ c ∈ b, isBlank c = true) (t : Text) :
    trim (b ++ t) = trim t := by
  rw [trim, trimStart, List.dropWhile_append_of_pos hb]
  rfl

theorem conjunction?_separator {conj q : Text} (hconj : conj ∈ conjunctions)
    (hq : ∀ c ∈ q.head?, isBlank c = false) :
    conjunction? (' ' :: (conj ++ ' ' :: q)) = some (String.ofList conj, q) := by
  have hstop : q.dropWhile isBlank = q := by
    cases q with
    | nil => rfl
    | cons c q => rw [List.dropWhile_cons_of_neg (by simp [hq c rfl])]
  have hwords : conjunctions.all (fun w => w.all (!isBlank ·) && w.map Char.toLower == w &&
      (String.ofList w == "and" || String.ofList w == "or" || String.ofList w == "nor")) = true := by
    decide
  have hword := List.all_eq_true.1 hwords conj hconj
  simp only [Bool.and_eq_true, beq_iff_eq, List.all_eq_true] at hword
  obtain ⟨⟨hsolid, hlower⟩, hname⟩ := hword
  have hrest : (' ' :: (conj ++ ' ' :: q)).dropWhile isBlank = conj ++ ' ' :: q := by
    rw [List.dropWhile_cons_of_pos isBlank_space]
    cases conj with
    | nil => cases hname
    | cons c conj => rw [List.cons_append, List.dropWhile_cons_of_neg (by simpa using hsolid c)]
  have htake : (conj ++ ' ' :: q).takeWhile (!isBlank ·) = conj := by
    rw [List.takeWhile_append_of_pos hsolid, List.takeWhile_cons_of_neg (by simp), List.append_nil]
  unfold conjunction?
  rw [hrest]
  dsimp only
  rw [htake, List.drop_left, hlower, hname, List.dropWhile_cons_of_pos isBlank_space, hstop]
  rfl

/-- The text of a list begins with its first part, and goes on if there are more. -/
theorem listText_cons (conj p : Text) (ps : List Text) : ∃ rest,
    Expression.listText conj (p :: ps) = p ++ rest ∧ EndsPart rest ∧ (ps ≠ [] → rest ≠ []) := by
  match ps with
  | [] => exact ⟨[], by simp [Expression.listText], by simp [EndsPart], fun h => absurd rfl h⟩
  | [q] =>
    exact ⟨_, by rw [Expression.listText, List.append_assoc], by simp [EndsPart], fun _ => by simp⟩
  | q :: r :: ps => exact ⟨_, rfl, by simp [EndsPart], fun _ => by simp⟩

/-- The text of a list ends with its last part. -/
theorem listText_concat (conj : Text) (ps : List Text) (p : Text) :
    ∃ front, Expression.listText conj (ps ++ [p]) = front ++ p := by
  match ps with
  | [] => exact ⟨[], rfl⟩
  | [q] => exact ⟨q ++ ' ' :: conj ++ [' '], by simp [Expression.listText]⟩
  | q :: r :: ps =>
    obtain ⟨front, h⟩ := listText_concat conj (r :: ps) p
    refine ⟨q ++ ',' :: ' ' :: front, ?_⟩
    cases ps with
    | nil => simp_all [Expression.listText]
    | cons q' ps => simp_all [Expression.listText]

theorem trim_listText (conj : Text) {parts : List Text} (hne : parts ≠ [])
    (hparts : ∀ p ∈ parts, Indivisible p) :
    trim (Expression.listText conj parts) = Expression.listText conj parts := by
  have hhead : ∀ c ∈ (Expression.listText conj parts).head?, isBlank c = false := by
    obtain ⟨p, ps, rfl⟩ := List.exists_cons_of_ne_nil hne
    obtain ⟨rest, h, -⟩ := listText_cons conj p ps
    have hp := hparts p List.mem_cons_self
    rw [h, List.head?_append_of_ne_nil p hp.nonempty]
    exact not_blank_head_of_trimmed hp.trimmed
  obtain ⟨ps, p, rfl⟩ := (List.eq_nil_or_concat' parts).resolve_left hne
  obtain ⟨front, h⟩ := listText_concat conj ps p
  have hp := hparts p (by simp)
  rw [h] at hhead ⊢
  refine trim_eq_self (by simp [hp.nonempty]) hhead ?_
  rw [List.getLast?_append_of_ne_nil front hp.nonempty]
  exact not_blank_last_of_trimmed hp.trimmed

theorem listParts_nil (fuel : Nat) (part : Text) : listParts fuel 0 false part [] = ([part.reverse], []) := by
  cases fuel <;> rfl

theorem listParts_conjunction {t rest : Text} {name : String}
    (h : conjunction? (' ' :: t) = some (name, rest)) (fuel : Nat) (part : Text) :
    listParts (fuel + 1) 0 false part (' ' :: t) =
      (part.reverse :: (listParts fuel 0 false [] rest).1, name :: (listParts fuel 0 false [] rest).2) := by
  rw [listParts]
  simp [h]

theorem listParts_comma {t : Text} (h : conjunction? t = none) (fuel : Nat) (part : Text) :
    listParts (fuel + 1) 0 false part (',' :: t) =
      (part.reverse :: (listParts fuel 0 false [] t).1, (listParts fuel 0 false [] t).2) := by
  rw [listParts]
  simp [h]

/-- The scan cuts the text of a list into its parts, but for blanks around them. -/
theorem listParts_listText {conj : Text} (hconj : conj ∈ conjunctions) (parts : List Text)
    (hl : 2 ≤ parts.length) (hparts : ∀ p ∈ parts, Indivisible p) {lead : Text}
    (hlead : ∀ c ∈ lead, isBlank c = true) (fuel : Nat) :
    ∃ ps, listParts ((Expression.listText conj parts).length + fuel) 0 false lead.reverse
        (Expression.listText conj parts) = (ps, [String.ofList conj]) ∧ ps.map trim = parts := by
  have htrim {p : Text} (hp : Indivisible p) : trim (p.reverse ++ lead.reverse).reverse = p := by
    rw [← List.reverse_append, List.reverse_reverse, trim_blank_append hlead, hp.trimmed]
  match parts with
  | [] | [_] => simp at hl
  | [p, q] =>
    have hp : Indivisible p := hparts p (by simp)
    have hq : Indivisible q := hparts q (by simp)
    have hsep := conjunction?_separator hconj (not_blank_head_of_trimmed hq.trimmed)
    have hlast (fuel : Nat) : listParts (q.length + fuel) 0 false [] q = ([q], []) := by
      have hends : EndsPart [] := by simp [EndsPart]
      have := @Indivisible.listParts_append q hq [] [] hends fuel
      rwa [List.append_nil, List.append_nil, listParts_nil, List.reverse_reverse] at this
    have htext : Expression.listText conj [p, q] = p ++ ' ' :: (conj ++ ' ' :: q) := by
      simp [Expression.listText]
    have hfuel : (Expression.listText conj [p, q]).length + fuel =
        p.length + (q.length + (conj.length + 1 + fuel) + 1) := by
      simp only [htext, List.length_append, List.length_cons]
      omega
    refine ⟨[(p.reverse ++ lead.reverse).reverse, q], ?_, by simp only [List.map, htrim hp, hq.trimmed]⟩
    rw [hfuel, htext, hp.listParts_append (by simp [EndsPart]),
      listParts_conjunction hsep, hlast]
  | p :: q :: r :: parts =>
    have hp : Indivisible p := hparts p (by simp)
    have hq : Indivisible q := hparts q (by simp)
    have hblank : ∀ c ∈ [' '], isBlank c = true := by simp
    obtain ⟨rest, hrest, hends, -⟩ := listText_cons conj q (r :: parts)
    have hnone : conjunction? (' ' :: Expression.listText conj (q :: r :: parts)) = none := by
      rw [hrest]
      exact hq.conjunction?_eq_none (u := []) (b := [' ']) rfl AtTop.nil rfl hblank
        (not_blank_head_of_trimmed hq.trimmed) hq.nonempty hends
    obtain ⟨ps, hps, hmap⟩ := listParts_listText hconj (q :: r :: parts) (by simp)
      (fun p hp => hparts p (List.mem_cons_of_mem _ hp)) hblank fuel
    have hfuel : (Expression.listText conj (p :: q :: r :: parts)).length + fuel =
        p.length + ((Expression.listText conj (q :: r :: parts)).length + fuel + 1 + 1) := by
      simp only [Expression.listText, List.length_append, List.length_cons]
      omega
    have hlead : listParts ((Expression.listText conj (q :: r :: parts)).length + fuel + 1) 0 false []
        (' ' :: Expression.listText conj (q :: r :: parts)) = (ps, [String.ofList conj]) := by
      rw [← hps]
      exact listParts_next (u := []) _ fun _ => ⟨by decide, fun _ => hnone⟩
    refine ⟨(p.reverse ++ lead.reverse).reverse :: ps, ?_, by rw [List.map_cons, htrim hp, hmap]⟩
    rw [hfuel, Expression.listText, hp.listParts_append (by simp [EndsPart]), listParts_comma hnone, hlead]

/-- The text of a list is split into its parts; it stands for all of them unless they are joined by "or". -/
theorem splitList?_listText {conj : Text} (hconj : conj ∈ conjunctions) {parts : List Text}
    (hl : 2 ≤ parts.length) (hparts : ∀ p ∈ parts, Indivisible p) :
    splitList? (Expression.listText conj parts) = some (parts, !(String.ofList conj == "or")) := by
  have hlead : ∀ c ∈ ([] : Text), isBlank c = true := by simp
  obtain ⟨ps, hps, hmap⟩ := listParts_listText hconj parts hl hparts hlead 0
  have hempty : (parts.any (·.isEmpty)) = false := by
    rw [List.any_eq_false]
    intro p hp
    simpa using (hparts p hp).nonempty
  unfold splitList?
  rw [Nat.add_zero, List.reverse_nil] at hps
  rw [hps]
  dsimp only
  rw [hmap, hempty, decide_eq_false (Nat.not_lt.2 hl)]
  simp

/-! ## Texts in quotes -/

/-- The text between quotes as it is. -/
def inQuotes (t : Text) : Text := '"' :: t ++ ['"']

section

variable {t : Text} (ht : '"' ∉ t)

include ht

theorem unquoted?_inQuotes : unquoted? (inQuotes t) = some t := by
  simp [inQuotes, unquoted?, ht]

/-- Inside of quotes a text is not at the top. -/
theorem edge_of_inQuotes {u v : Text} (h : inQuotes t = u ++ v) (htop : AtTop u) : u = [] ∨ v = [] := by
  by_contra hne
  obtain ⟨hu, hv⟩ := not_or.1 hne
  obtain ⟨c, u, rfl⟩ := List.exists_cons_of_ne_nil hu
  rw [← List.dropLast_append_getLast hv] at h
  have hinner : t = u ++ v.dropLast := by
    simp only [inQuotes, List.cons_append, List.cons.injEq] at h
    rw [← List.append_assoc] at h
    exact (List.append_inj' h.2 rfl).1
  have hc : c = '"' := (List.cons.inj h).1.symm
  have hcount : u.count '"' = 0 := List.count_eq_zero.2 fun hmem => ht (by rw [hinner]; simp [hmem])
  have := htop.quotes
  rw [hc, quoteOpen, List.count_cons_self, hcount] at this
  cases this

theorem indivisible_inQuotes : Indivisible (inQuotes t) := by
  have hquote : isBlank '"' = false := by decide
  have houtside (t : Text) (ht : '"' ∉ t) : outsideQuotes true (t ++ ['"']) = [] := by
    induction t with
    | nil => rfl
    | cons c t ih =>
      obtain ⟨hc, ht⟩ := not_or.1 (mt List.mem_cons.2 ht)
      rw [List.cons_append, outsideQuotes, if_neg (Ne.symm hc), if_pos rfl, ih ht]
  refine ⟨by simp [inQuotes], trim_eq_self (by simp [inQuotes]) ?_ ?_, ⟨?_, ?_⟩, ?_, ?_⟩
  · simp [inQuotes, hquote]
  · intro c hc
    rw [inQuotes, List.getLast?_concat] at hc
    cases hc
    exact hquote
  · simp [quoteOpen, inQuotes, List.count_eq_zero.2 ht]
  · have hempty : outsideQuotes false (inQuotes t) = [] := by
      rw [inQuotes, List.cons_append, outsideQuotes, if_pos rfl]
      exact houtside t ht
    rw [parenDepth, hempty]
    rfl
  · intro u v h htop
    rcases edge_of_inQuotes ht h htop with rfl | hv
    · cases h
    · cases hv
  · intro u w v h htop _ hhead hmem
    have hw : w = [] ∨ w.head? = some '"' := by
      rcases edge_of_inQuotes ht h htop with rfl | hv
      · cases w with
        | nil => exact .inl rfl
        | cons c w => exact .inr (by rw [(List.cons.inj h).1]; rfl)
      · exact .inl (List.append_eq_nil_iff.1 hv).1
    have hhead : ∀ x ∈ conjunctions, x.head?.any (· ≠ '"') = true := by decide
    have := hhead _ hmem
    rcases hw with rfl | hw
    · cases this
    · rw [List.head?_map, hw] at this
      cases this

end

/-- Something else behind quotes is not inside them. -/
theorem unquoted?_append_eq_none (t : Text) {rest : Text} (hrest : rest ≠ []) :
    unquoted? (inQuotes t ++ rest) = none := by
  have hmem : '"' ∈ (t ++ '"' :: rest).dropLast := by
    rw [List.dropLast_append_of_ne_nil (by simp), List.dropLast_cons_of_ne_nil hrest]
    simp
  have htext : inQuotes t ++ rest = '"' :: (t ++ '"' :: rest) := by simp [inQuotes]
  have hcontains : (t ++ '"' :: rest).dropLast.contains '"' = true := List.contains_iff_mem.2 hmem
  rw [htext]
  simp only [unquoted?, hcontains, Bool.not_true, Bool.and_false]
  rfl

/-! ## Descriptions of lists -/

/-- The description of a list of two or more items is split into the descriptions of the items, and tells
whether the list stands for all of them. -/
theorem splitList?_description (items : List Expression) (all : Bool) (returns : ClassId)
    (hl : 2 ≤ items.length) (hitems : ∀ e ∈ items, Indivisible e.description) :
    splitList? (Expression.list items all returns).description =
      some (items.map (·.description), all) := by
  have hl' : 2 ≤ (items.map (·.description)).length := by rwa [List.length_map]
  have hparts : ∀ p ∈ items.map (·.description), Indivisible p := by
    intro p hp
    obtain ⟨e, he, rfl⟩ := List.mem_map.1 hp
    exact hitems e he
  have hconj : (if all then "and".toList else "or".toList) ∈ conjunctions := by
    cases all <;> decide
  rw [show (Expression.list items all returns).description = Expression.listText _ _ from rfl,
    splitList?_listText hconj hl' hparts]
  cases all <;> rfl

/-- Separators in parentheses, between quotes and within words separate nothing. -/
theorem splitList?_description_nested :
    let literal (source : String) := Expression.literal .string [] source.toList
    let items := [literal "(1 or 2, 3)", literal "\"x, y) and z\"", literal "Nor(way) band"]
    (2 ≤ items.length ∧ ∀ e ∈ items, Indivisible e.description) ∧
      splitList? (Expression.list items false .string).description =
        some (items.map (·.description), false) := by
  intro literal items
  have hitems : ∀ e ∈ items, Indivisible e.description := by decide
  exact ⟨⟨by decide, hitems⟩, splitList?_description items false .string (by decide) hitems⟩

end Phrasebook.Text
