import Phrasebook.Proofs.Pattern.Pieces
import Phrasebook.Regex.Threads

/-!
Reading accepts exactly the texts of the grammar, as long as no bracket of a regular expression stands
in them, and gives their trees. That the texts are read is an induction on how they are derived; that
nothing else is read is an induction on the depth of nesting that the reader is allowed, and within it
on the length of the text.
-/

namespace Phrasebook.Pattern

open Text (Sealed)

/-- No bracket of a regular expression stands unescaped in the text. -/
structure Regexless (t : Text) : Prop where
  opener : '<' ∉ Text.unescaped t
  closer : '>' ∉ Text.unescaped t

theorem Regexless.cons {c : Char} {t : Text} (h : Regexless (c :: t)) (hc : c ≠ '\\') :
    Regexless t := by
  obtain ⟨ho, hcl⟩ := h
  rw [Text.unescaped_cons hc, List.mem_cons, not_or] at ho hcl
  exact ⟨ho.2, hcl.2⟩

theorem Regexless.escape {c : Char} {t : Text} (h : Regexless ('\\' :: c :: t)) : Regexless t :=
  ⟨h.opener, h.closer⟩

theorem Regexless.append {s t : Text} (h : Regexless (s ++ t)) (hs : Text.escapesEnd s = true) :
    Regexless s ∧ Regexless t := by
  obtain ⟨ho, hc⟩ := h
  rw [Text.unescaped_append hs, List.mem_append, not_or] at ho hc
  exact ⟨⟨ho.1, hc.1⟩, ho.2, hc.2⟩

theorem Regexless.inside {opener closer : Char} {t rest : Text} (ho : opener ≠ '\\')
    (h : Regexless ((opener :: t ++ [closer]) ++ rest)) (ht : Text.escapesEnd t = true) :
    Regexless t := by
  rw [append_bracket] at h
  exact ((h.cons ho).append ht).1

theorem Regexless.part {t p : Text} (h : Regexless t) (hp : p ∈ Text.barParts 0 t) : Regexless p :=
  ⟨fun hc => h.opener (Text.mem_unescaped_of_barParts hp hc),
    fun hc => h.closer (Text.mem_unescaped_of_barParts hp hc)⟩

section

variable [RegexEngine] {types : TypeNames} {read : Reader}

/-! ## The texts of the grammar are read -/

theorem Items.sealed {s : Text} {ps : List Pattern} (h : Items types s ps) : Sealed 0 s :=
  h.composes Text.composes_sealed

theorem sealed_texts {bs : List WrittenBranch} (legal : ∀ b ∈ bs, b.Legal)
    (items : ∀ b ∈ bs, Items types b.items b.parts) : ∀ p ∈ bs.map (·.text), Sealed 0 p := by
  intro p hp
  obtain ⟨b, hb, rfl⟩ := List.mem_map.1 hp
  exact WrittenBranch.composes Text.composes_sealed (legal b hb) (items b hb).sealed

theorem barParts_branchesText {bs : List WrittenBranch} (hne : bs ≠ [])
    (legal : ∀ b ∈ bs, b.Legal) (items : ∀ b ∈ bs, Items types b.items b.parts) :
    Text.barParts 0 (branchesText bs) = bs.map (·.text) :=
  Text.barParts_join (by simpa using hne) (sealed_texts legal items)

theorem sealed_branchesText {bs : List WrittenBranch} (legal : ∀ b ∈ bs, b.Legal)
    (items : ∀ b ∈ bs, Items types b.items b.parts) : Sealed 1 (branchesText bs) :=
  Text.sealed_join (sealed_texts legal items)

/-- The items of a branch are shorter than all branches together, by the bars at least. -/
theorem length_items_le {bs : List WrittenBranch} {b : WrittenBranch} (hb : b ∈ bs) :
    b.items.length + bs.length ≤ (branchesText bs).length + 1 := by
  have htext : b.items.length ≤ b.text.length := by
    obtain ⟨mark, items, parts⟩ := b
    cases mark with
    | none => exact Nat.le_refl _
    | some digits =>
      simp only [WrittenBranch.text, List.length_append, List.length_cons]
      omega
  have hjoin := Text.length_le_join (List.mem_map_of_mem (f := (·.text)) hb)
  rw [List.length_map] at hjoin
  rw [branchesText]
  omega

theorem WrittenBranch.mark?_text {b : WrittenBranch} (legal : b.Legal) (i : Nat) :
    mark? i b.text =
      .ok (b.mark.map fun digits => (Int32.ofNat (Nat.ofDigitChars 10 digits 0), b.items)) := by
  obtain ⟨mark, items, parts⟩ := b
  cases mark with
  | none => exact mark?_eq_ok_none_iff.2 legal
  | some digits =>
    obtain ⟨hne, hdigits, hle⟩ := legal
    exact mark?_eq_ok_some_iff.2 ⟨digits, hne, hdigits, hle, rfl, rfl⟩

/-- A branch is read as what it means, if its items are read. -/
theorem branch_written {b : WrittenBranch} (legal : b.Legal)
    (hread : ∀ base, read base b.items = .ok (ofParts b.parts)) (i : Nat) :
    branch read i b.text = .ok b.meaning := by
  rw [branch, b.mark?_text legal]
  obtain ⟨mark, items, parts⟩ := b
  cases mark <;>
    simp [bind, Except.bind, pure, Except.pure, WrittenBranch.text, WrittenBranch.meaning, hread]

theorem insideOf_single (b : WrittenBranch) :
    insideOf [b] = if b.mark.isSome then .choice [b.meaning] else b.meaning.2 := by
  obtain ⟨mark, items, parts⟩ := b
  cases mark <;> rfl

theorem optionalInside_text {b : WrittenBranch} (legal : b.Legal)
    (hlength : b.text.splitBars.length = 1) {base : Nat} {c : Int32 × Pattern}
    (h : branch read base b.text = .ok c) :
    optionalInside read base b.text = .ok (if b.mark.isSome then .choice [c] else c.2) := by
  rw [optionalInside_eq_branch hlength, h, b.mark?_text legal]
  cases b.mark <;> rfl

theorem insideOf_of_long {bs : List WrittenBranch} (h : 2 ≤ bs.length) :
    insideOf bs = .choice (bs.map (·.meaning)) := by
  match bs, h with
  | b :: c :: cs, _ =>
    rw [insideOf]
    simp

/-- The text is read as the parts, at whatever depth is enough. -/
def ReadAs (types : TypeNames) (s : Text) (ps : List Pattern) : Prop :=
  ∀ n, s.length < n → ∀ base, readWithin types n base s = .ok (ofParts ps)

section

variable {bs : List WrittenBranch} (hne : bs ≠ []) (legal : ∀ b ∈ bs, b.Legal)
  (items : ∀ b ∈ bs, Items types b.items b.parts)
  (hread : ∀ b ∈ bs, ReadAs types b.items b.parts)

include hne legal items hread

theorem branches_written {n : Nat} (hn : ∀ b ∈ bs, b.items.length < n) (base : Nat) :
    branches (readWithin types n) base (branchesText bs).splitBars =
      .ok (.choice (bs.map (·.meaning))) := by
  have hall (start : Nat) : (Text.placed start (bs.map (·.text))).mapM
      (fun p => branch (readWithin types n) (base + p.1) p.2) = .ok (bs.map (·.meaning)) := by
    clear hne items
    induction bs generalizing start with
    | nil => rfl
    | cons b bs ih =>
      have hb : branch (readWithin types n) (base + start) b.text = .ok b.meaning :=
        branch_written (legal b (by simp)) (hread b (by simp) n (hn b (by simp))) _
      have ih := ih (fun c hc => legal c (by simp [hc])) (fun c hc => hread c (by simp [hc]))
        (fun c hc => hn c (by simp [hc])) (start + Text.width b.text + 1)
      simp only [List.map_cons, Text.placed, List.mapM_cons, hb, ih]
      rfl
  rw [branches, Text.splitBars, barParts_branchesText hne legal items, hall]
  rfl

theorem readWithin_written (hlong : 2 ≤ bs.length) {n : Nat} (hn : (branchesText bs).length ≤ n)
    (base : Nat) :
    readWithin types (n + 1) base (branchesText bs) = .ok (.choice (bs.map (·.meaning))) := by
  have hlength : (branchesText bs).splitBars.length > 1 := by
    rw [Text.length_splitBars, barParts_branchesText hne legal items, List.length_map]
    exact hlong
  rw [readWithin, if_pos hlength]
  refine branches_written hne legal items hread (fun b hb => ?_) base
  have := length_items_le hb
  omega

theorem optionalInside_written {n : Nat} (hn : (branchesText bs).length ≤ n) (base : Nat) :
    optionalInside (readWithin types (n + 1)) base (branchesText bs) = .ok (insideOf bs) := by
  have hlength : (branchesText bs).splitBars.length = bs.length := by
    rw [Text.length_splitBars, barParts_branchesText hne legal items, List.length_map]
  rcases Nat.lt_or_ge bs.length 2 with hshort | hlong
  · obtain ⟨b, rfl⟩ : ∃ b, bs = [b] := by
      have := List.length_pos_of_ne_nil hne
      exact List.length_eq_one_iff.1 (by omega)
    have hb := length_items_le (List.mem_singleton_self b)
    rw [List.length_singleton] at hb
    rw [insideOf_single]
    exact optionalInside_text (legal b (by simp)) hlength
      (branch_written (legal b (by simp)) (hread b (by simp) (n + 1) (by omega)) base)
  · rw [optionalInside, hlength, if_neg (by omega), insideOf_of_long hlong]
    exact readWithin_written hne legal items hread hlong hn base

end

/-- Reading a text without outer bars reads its parts. -/
theorem readAs_of_parts {s : Text} {ps : List Pattern} (hs : Sealed 0 s)
    (h : ∀ {n : Nat}, s.length ≤ n → ∀ fuel i, s.length ≤ fuel → ∀ plain,
      (plain = [] ∨ ∀ p ∈ ps.head?, p.isLiteral = false) →
      parts types (readWithin types n) fuel i plain s = .ok (flush plain ps)) :
    ReadAs types s ps := by
  intro n hn base
  obtain ⟨m, rfl⟩ : ∃ m, n = m + 1 := ⟨n - 1, by omega⟩
  rw [readWithin, Text.splitBars_of_sealed hs, if_neg (by simp),
    h (by omega) _ base (Nat.le_refl _) [] (Or.inl rfl)]
  rfl

/-- The parts of a text of the grammar are read behind whatever plain text. -/
theorem Items.parts_eq {s : Text} {ps : List Pattern} (h : Items types s ps) {n : Nat}
    (hn : s.length ≤ n) (fuel i : Nat) (hf : s.length ≤ fuel) (plain : Text)
    (hplain : plain = [] ∨ ∀ p ∈ ps.head?, p.isLiteral = false) :
    parts types (readWithin types n) fuel i plain s = .ok (flush plain ps) := by
  induction h generalizing n fuel i plain with
  | nil => exact parts_nil fuel i plain
  | @run s t rest ps hrun hne longest _ ih =>
    obtain rfl : plain = [] := hplain.resolve_right fun h => by simp [isLiteral] at h
    obtain ⟨f, j, hr, heq⟩ := @parts_run types _ (readWithin types n) s t hrun fuel i [] rest hf
    rw [List.length_append] at hn
    rw [heq, ih (by omega) f j hr (t.reverse ++ []) (Or.inr longest)]
    simp [flush, hne]
  | @choice bs rest ps hne legal hitems _ ihs ih =>
    simp only [List.cons_append, List.length_cons, List.length_append] at hn hf
    obtain ⟨f, rfl⟩ : ∃ f, fuel = f + 1 := ⟨fuel - 1, by omega⟩
    have hback := takesBack_of_sealed '(' ')' (by simp [Text.bracketPairs])
      (sealed_branchesText legal hitems)
    have hshort (b : WrittenBranch) (hb : b ∈ bs) : b.items.length < n := by
      have := length_items_le hb
      omega
    have hinner := branches_written hne legal hitems
      (fun b hb => readAs_of_parts (hitems b hb).sealed (ihs b hb)) hshort (i + 1)
    have hmore := ih (n := n) (by omega) f (i + Text.width ('(' :: branchesText bs ++ [')']))
      (by omega) [] (Or.inl rfl)
    rw [List.cons_append, ← append_bracket]
    exact parts_of_taken (.piece (.choice hback hinner) hmore)
  | @optional bs rest ps hne legal hitems _ ihs ih =>
    simp only [List.cons_append, List.length_cons, List.length_append] at hn hf
    obtain ⟨f, rfl⟩ : ∃ f, fuel = f + 1 := ⟨fuel - 1, by omega⟩
    obtain ⟨m, rfl⟩ : ∃ m, n = m + 1 := ⟨n - 1, by omega⟩
    have hback := takesBack_of_sealed '[' ']' (by simp [Text.bracketPairs])
      (sealed_branchesText legal hitems)
    have hinner := optionalInside_written hne legal hitems
      (fun b hb => readAs_of_parts (hitems b hb).sealed (ihs b hb)) (n := m) (by omega) (i + 1)
    have hmore := ih (n := m + 1) (by omega) f (i + Text.width ('[' :: branchesText bs ++ [']']))
      (by omega) [] (Or.inl rfl)
    rw [List.cons_append, ← append_bracket]
    exact parts_of_taken (.piece (.optional hback hinner) hmore)
  | @slot spec rest p ps hslot _ ih =>
    simp only [List.cons_append, List.length_cons, List.length_append] at hn hf
    obtain ⟨f, rfl⟩ : ∃ f, fuel = f + 1 := ⟨fuel - 1, by omega⟩
    have hmore := ih (n := n) (by omega) f (i + Text.width ('%' :: spec ++ ['%'])) (by omega) []
      (Or.inl rfl)
    rw [List.cons_append, ← append_bracket]
    exact parts_of_taken (.piece (.slot hslot) hmore)

theorem Items.readAs {s : Text} {ps : List Pattern} (h : Items types s ps) : ReadAs types s ps :=
  readAs_of_parts h.sealed h.parts_eq

/-- A text of the grammar is read as its tree. -/
theorem Derives.ofText_eq {t : Text} {p : Pattern} (h : Derives types t p) :
    ofText types t = .ok p := by
  cases h with
  | items h => exact h.readAs _ (Nat.lt_succ_self _) 0
  | @choice bs hlong legal hitems =>
    exact readWithin_written (List.ne_nil_of_length_pos (by omega)) legal hitems
      (fun b hb => (hitems b hb).readAs) hlong (Nat.le_refl _) 0

/-! ## Nothing else is read -/

/-- A text of the grammar that has no outer bar is made of items. -/
theorem Derives.exists_items {t : Text} {p : Pattern} (h : Derives types t p)
    (hbars : Text.barParts 0 t = [t]) : ∃ ps, Items types t ps ∧ p = ofParts ps := by
  cases h with
  | @items _ ps h => exact ⟨ps, h, rfl⟩
  | @choice bs hlong legal hitems =>
    have hne : bs ≠ [] := List.ne_nil_of_length_pos (by omega)
    have := congrArg List.length hbars
    rw [barParts_branchesText hne legal hitems, List.length_map, List.length_singleton] at this
    omega

/-- The parts are those of a run, with `plain` collected in front of it, and of what follows. -/
def Collected (types : TypeNames) (plain t : Text) (ps : List Pattern) : Prop :=
  ∃ s v rest qs, t = s ++ rest ∧ Run s v ∧ Items types rest qs ∧
    (∀ q ∈ qs.head?, q.isLiteral = false) ∧ ps = flush (v.reverse ++ plain) qs

namespace Collected

variable {plain t : Text} {ps : List Pattern}

theorem nil (plain : Text) : Collected types plain [] (flush plain []) :=
  ⟨[], [], [], [], rfl, .nil, .nil, by simp, rfl⟩

theorem cons {c : Char} (hc : isPlain c = true) (h : Collected types (c :: plain) t ps) :
    Collected types plain (c :: t) ps := by
  obtain ⟨s, v, rest, qs, rfl, hrun, hitems, hhead, rfl⟩ := h
  exact ⟨c :: s, c :: v, rest, qs, rfl, .plain hc hrun, hitems, hhead, by simp⟩

theorem escape {c : Char} (h : Collected types (c :: plain) t ps) :
    Collected types plain ('\\' :: c :: t) ps := by
  obtain ⟨s, v, rest, qs, rfl, hrun, hitems, hhead, rfl⟩ := h
  exact ⟨'\\' :: c :: s, c :: v, rest, qs, rfl, .escape c hrun, hitems, hhead, by simp⟩

/-- With nothing in front, the parts are those of the text. -/
theorem items (h : Collected types [] t ps) : Items types t ps := by
  obtain ⟨s, v, rest, qs, rfl, hrun, hitems, hhead, rfl⟩ := h
  cases hrun with
  | nil => exact hitems
  | plain hc hrun =>
    rw [flush, if_neg (by simp), List.append_nil, List.reverse_reverse]
    exact .run (.plain hc hrun) (by simp) hhead hitems
  | escape c hrun =>
    rw [flush, if_neg (by simp), List.append_nil, List.reverse_reverse]
    exact .run (.escape c hrun) (by simp) hhead hitems

/-- A part in brackets or percent signs; what stands behind it has no outer bar either. -/
theorem part {front rest : Text} {q : Pattern} {qs : List Pattern}
    (hq : ∀ rest qs, Items types rest qs → Items types (front ++ rest) (q :: qs))
    (hl : q.isLiteral = false) (hr : Regexless (front ++ rest))
    (hbars : Text.barParts 0 (front ++ rest) = [front ++ rest])
    (hrest : Regexless rest → Text.barParts 0 rest = [rest] → Collected types [] rest qs)
    (plain : Text) : Collected types plain (front ++ rest) (flush plain (q :: qs)) := by
  have hfront : Items types front [q] := by
    have := hq [] [] .nil
    rwa [List.append_nil] at this
  have hescapes := (hfront.composes Text.composes_closed).escapes
  have hitems := (hrest (hr.append hescapes).2 (Text.barParts_of_append hfront.sealed hbars)).items
  exact ⟨[], [], front ++ rest, q :: qs, rfl, .nil, hq rest qs hitems, by simpa using hl, rfl⟩

end Collected

section

variable {n : Nat}
  (hread : ∀ base s p, s.length < n → Regexless s → read base s = .ok p → Derives types s p)

include hread

theorem exists_written_of_branch {i : Nat} {t : Text} {b : Int32 × Pattern}
    (h : branch read i t = .ok b) (hbars : Text.barParts 0 t = [t]) (hr : Regexless t)
    (hn : t.length < n) : ∃ w : WrittenBranch,
      w.text = t ∧ w.Legal ∧ Items types w.items w.parts ∧ w.meaning = b := by
  unfold branch at h
  obtain ⟨found, hmark, h⟩ := ok_of_bind h
  cases found with
  | none =>
    obtain ⟨p, hp, h⟩ := ok_of_bind h
    cases h
    obtain ⟨ps, hps, rfl⟩ := (hread _ t p hn hr hp).exists_items hbars
    exact ⟨⟨none, t, ps⟩, rfl, mark?_eq_ok_none_iff.1 hmark, hps, rfl⟩
  | some found =>
    obtain ⟨m, rest⟩ := found
    obtain ⟨p, hp, h⟩ := ok_of_bind h
    cases h
    obtain ⟨digits, hne, hdigits, hle, rfl, rfl⟩ := mark?_eq_ok_some_iff.1 hmark
    rw [← List.singleton_append, ← List.append_assoc] at hbars hr
    have hbars := Text.barParts_of_append (composes_mark Text.composes_sealed hdigits) hbars
    have hr := (hr.append (composes_mark Text.composes_closed hdigits).escapes).2
    rw [List.length_append, List.length_cons] at hn
    obtain ⟨ps, hps, rfl⟩ := (hread _ rest p (by omega) hr hp).exists_items hbars
    exact ⟨⟨some digits, rest, ps⟩, rfl, ⟨hne, hdigits, hle⟩, hps, rfl⟩

theorem exists_written_of_branches {base : Nat} {t : Text} {p : Pattern}
    (h : branches read base t.splitBars = .ok p) (hr : Regexless t)
    (hn : ∀ q ∈ Text.barParts 0 t, q.length < n) :
    ∃ bs : List WrittenBranch, bs ≠ [] ∧ (∀ b ∈ bs, b.Legal) ∧
      (∀ b ∈ bs, Items types b.items b.parts) ∧ branchesText bs = t ∧
      .choice (bs.map (·.meaning)) = p := by
  have hwritten {start : Nat} {parts : List Text} {found : List (Int32 × Pattern)}
      (hfound : List.Forall₂ (fun q b => branch read (base + q.1) q.2 = .ok b)
        (Text.placed start parts) found)
      (hparts : ∀ q ∈ parts, q ∈ Text.barParts 0 t) :
      ∃ bs : List WrittenBranch, bs.map (·.text) = parts ∧ (∀ b ∈ bs, b.Legal) ∧
        (∀ b ∈ bs, Items types b.items b.parts) ∧ bs.map (·.meaning) = found := by
    induction parts generalizing start found with
    | nil =>
      cases hfound
      exact ⟨[], by simp⟩
    | cons q qs ih =>
      rw [Text.placed, List.forall₂_cons_left_iff] at hfound
      obtain ⟨b, found, hb, hfound, rfl⟩ := hfound
      have hq := hparts q (by simp)
      obtain ⟨w, rfl, hlegal, hitems, rfl⟩ :=
        exists_written_of_branch hread hb (Text.barParts_of_mem hq) (hr.part hq) (hn q hq)
      obtain ⟨bs, rfl, hlegals, hall, rfl⟩ := ih hfound fun r hr => hparts r (by simp [hr])
      exact ⟨w :: bs, rfl, by simpa using ⟨hlegal, hlegals⟩, by simpa using ⟨hitems, hall⟩, rfl⟩
  unfold branches at h
  obtain ⟨found, hall, h⟩ := ok_of_bind h
  cases h
  obtain ⟨bs, htexts, legal, hitems, rfl⟩ := hwritten (forall₂_of_mapM hall) fun _ => id
  refine ⟨bs, ?_, legal, hitems, ?_, rfl⟩
  · rintro rfl
    exact Text.barParts_ne_nil 0 t htexts.symm
  · rw [branchesText, htexts, Text.join_barParts]

theorem exists_written_of_optionalInside {base : Nat} {t : Text} {p : Pattern}
    (h : optionalInside read base t = .ok p) (hr : Regexless t) (hn : t.length < n) :
    ∃ bs : List WrittenBranch, bs ≠ [] ∧ (∀ b ∈ bs, b.Legal) ∧
      (∀ b ∈ bs, Items types b.items b.parts) ∧ branchesText bs = t ∧ insideOf bs = p := by
  by_cases hlength : t.splitBars.length = 1
  · have hbars : Text.barParts 0 t = [t] :=
      Text.barParts_eq_singleton (Text.length_splitBars t ▸ hlength)
    cases hb : branch read base t with
    | error e =>
      rw [optionalInside_eq_branch hlength, hb] at h
      cases h
    | ok b =>
      obtain ⟨w, rfl, hlegal, hitems, rfl⟩ := exists_written_of_branch hread hb hbars hr hn
      rw [optionalInside_text hlegal hlength hb, ← insideOf_single] at h
      cases h
      exact ⟨[w], by simp, by simpa using hlegal, by simpa using hitems, rfl, rfl⟩
  · rw [optionalInside, if_neg hlength] at h
    cases hread base t p hn hr h with
    | items hitems =>
      rw [Text.splitBars_of_sealed hitems.sealed] at hlength
      exact absurd rfl hlength
    | @choice bs hlong legal hitems =>
      exact ⟨bs, List.ne_nil_of_length_pos (by omega), legal, hitems, rfl, insideOf_of_long hlong⟩

/-- What reading the parts of a text has met. -/
theorem collected_of_parts {fuel i : Nat} {plain t : Text} {ps : List Pattern}
    (h : parts types read fuel i plain t = .ok ps) (hf : t.length ≤ fuel) (hn : t.length ≤ n)
    (hr : Regexless t) (hbars : Text.barParts 0 t = [t]) : Collected types plain t ps := by
  induction fuel generalizing i plain t ps with
  | zero =>
    obtain rfl : t = [] := List.eq_nil_of_length_eq_zero (by omega)
    cases h
    exact .nil plain
  | succ fuel ih =>
    cases taken_of_parts h with
    | nil => exact .nil plain
    | @escape c rest ps more =>
      rw [List.length_cons, List.length_cons] at hf hn
      exact .escape (ih more (by omega) (by omega) hr.escape
        (Text.barParts_of_append (.escape c) hbars))
    | @plain c rest ps hc more =>
      have hc : isPlain c = true := hc.resolve_right fun hbar => by
        subst hbar
        exact Text.barParts_bar_ne rest hbars
      have hs := isScanned_of_isPlain hc
      rw [List.length_cons] at hf hn
      exact .cons hc (ih more (by omega) (by omega) (hr.cons (Text.isScanned_eq_false.1 hs).1)
        (Text.barParts_of_append (.plain hs) hbars))
    | @piece front rest q qs piece more =>
      have hlength := piece.length_pos
      rw [List.length_append] at hf hn
      have hrest := ih more (by omega) (by omega)
      cases piece with
      | @optional inside p back inner =>
        obtain ⟨bs, hne, legal, hitems, rfl, rfl⟩ := exists_written_of_optionalInside hread inner
          (hr.inside (by decide) back.escapes) (by
            simp only [List.cons_append, List.length_cons, List.length_append] at hn
            omega)
        refine .part (fun rest qs h => ?_) rfl hr hbars hrest plain
        rw [append_bracket]
        exact .optional hne legal hitems h
      | @choice inside p back inner =>
        have hlength (q : Text) (hq : q ∈ Text.barParts 0 inside) : q.length < n := by
          have := Text.length_le_of_mem_barParts hq
          have := List.length_pos_of_mem hq
          simp only [List.cons_append, List.length_cons, List.length_append] at hn
          omega
        obtain ⟨bs, hne, legal, hitems, rfl, rfl⟩ := exists_written_of_branches hread inner
          (hr.inside (by decide) back.escapes) hlength
        refine .part (fun rest qs h => ?_) rfl hr hbars hrest plain
        rw [append_bracket]
        exact .choice hne legal hitems h
      | @regex g back => exact absurd (by simp [Text.unescaped_cons]) hr.opener
      | @slot spec p hslot =>
        refine .part (fun rest qs h => ?_) hslot.isLiteral hr hbars hrest plain
        rw [append_bracket]
        exact .slot hslot h

end

/-- A reader for texts inside brackets reads texts of the grammar only. -/
theorem derives_of_readWithin {n base : Nat} {t : Text} {p : Pattern} (hn : t.length < n)
    (hr : Regexless t) (h : readWithin types n base t = .ok p) : Derives types t p := by
  induction n generalizing base t p with
  | zero => omega
  | succ n ih =>
    rw [readWithin] at h
    split at h
    · rename_i hlong
      rw [Text.length_splitBars] at hlong
      obtain ⟨bs, hne, legal, hitems, rfl, rfl⟩ :=
        exists_written_of_branches (fun base s p hs hr h => ih hs hr h) h hr fun q hq => by
          have := Text.length_le_of_mem_barParts hq
          omega
      rw [barParts_branchesText hne legal hitems, List.length_map] at hlong
      exact .choice hlong legal hitems
    · rename_i hshort
      obtain ⟨ps, hps, h⟩ := ok_of_bind h
      cases h
      have hbars : Text.barParts 0 t = [t] := by
        refine Text.barParts_eq_singleton ?_
        have := List.length_pos_of_ne_nil (Text.barParts_ne_nil 0 t)
        rw [Text.length_splitBars] at hshort
        omega
      exact .items (collected_of_parts (fun base s p hs hr h => ih hs hr h) hps (Nat.le_refl _)
        (by omega) hr hbars).items

/-- A text without regular expressions is read if and only if it is a text of the grammar, and then
as its tree; so its brackets match. -/
theorem ofText_eq_ok_iff_derives (types : TypeNames) (t : Text) (hr : Regexless t) (p : Pattern) :
    (ofText types t = .ok p ↔ Derives types t p) ∧ (ofText types t = .ok p → Text.Matched t) := by
  have hsound : ofText types t = .ok p → Derives types t p :=
    derives_of_readWithin (Nat.lt_succ_self _) hr
  exact ⟨⟨hsound, Derives.ofText_eq⟩, fun h => (hsound h).matched⟩

end

/-- A marked branch and one without a mark in square brackets, a slot in parentheses, an escape. -/
def nestedText : Text :=
  ['[', '2', markSign, 'a', '|', '(', '%', '*', 'n', '%', ')', ']', '\\', '|']

def nestedTree : Pattern :=
  sequence [optional (choice [(2, literal ['a']),
    (0, choice [(0, slot [⟨⟨1⟩, "n", true⟩] .literalsOnly false)])]), literal ['|']]

/-- The only name is that of one type. -/
def shortName : TypeNames := fun name => if name.toList = ['n'] then some ⟨⟨1⟩, "n", true⟩ else none

/-- The closing brackets come in the wrong order, though each kind is balanced. -/
def crossedText : Text := ['(', '[', ')', ']']

theorem ofText_eq_ok_iff_derives_nested :
    (Regexless nestedText ∧ Derives shortName nestedText nestedTree ∧ Text.Matched nestedText) ∧
      (Regexless crossedText ∧ ∀ p, ¬ Derives shortName crossedText p) := by
  have hnested : Regexless nestedText := ⟨by decide, by decide⟩
  have hcrossed : Regexless crossedText := ⟨by decide, by decide⟩
  have hread : ofText shortName nestedText = .ok nestedTree := by rfl
  refine ⟨⟨hnested, ?_, ?_⟩, hcrossed, fun p h => ?_⟩
  · exact (ofText_eq_ok_iff_derives shortName nestedText hnested nestedTree).1.1 hread
  · exact (ofText_eq_ok_iff_derives shortName nestedText hnested nestedTree).2 hread
  · have := (ofText_eq_ok_iff_derives shortName crossedText hcrossed p).1.2 h
    cases this

end Phrasebook.Pattern
