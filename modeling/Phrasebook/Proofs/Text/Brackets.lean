import Phrasebook.Proofs.Text.Balanced

/-!
What the two scans for brackets find. The bracket that closes a kind is the first that leaves none of
it open. Cutting at the bars loses nothing, and no part has an outer bar left.
-/

namespace Phrasebook.Text

/-! ## The closing bracket -/

theorem count_cons_add (c : Char) (t : Text) (a : Char) : (c :: t).count a = [c].count a + t.count a := by
  rw [← List.count_append, List.singleton_append]

/-- The text takes back `depth` brackets that were opened before it, and on the way never more. -/
structure TakesBack (opener closer : Char) (depth : Nat) (t : Text) : Prop where
  escapes : escapesEnd t = true
  opened : ∀ p, p <+: unescaped t → p.count closer ≤ depth + p.count opener
  closed : (unescaped t).count closer = depth + (unescaped t).count opener

theorem takesBack_zero {opener closer : Char} {t : Text} :
    TakesBack opener closer 0 t ↔ escapesEnd t = true ∧ Balanced opener closer t := by
  constructor
  · rintro ⟨he, ho, hc⟩
    exact ⟨he, fun p hp => by simpa using ho p hp, by simpa using hc⟩
  · rintro ⟨he, ho, hc⟩
    exact ⟨he, fun p hp => by simpa using ho p hp, by simpa using hc⟩

namespace TakesBack

variable {opener closer : Char} {depth : Nat} {t : Text}

theorem nil : TakesBack opener closer 0 [] :=
  takesBack_zero.2 ⟨rfl, .of_inits (by simp [unescaped]) rfl⟩

theorem escape (e : Char) (h : TakesBack opener closer depth t) :
    TakesBack opener closer depth ('\\' :: e :: t) :=
  ⟨h.escapes, h.opened, h.closed⟩

/-- A character in front that changes the number of open brackets as it should. -/
theorem cons {c : Char} {depth' : Nat} (hc : c ≠ '\\')
    (hcount : depth' + [c].count closer = depth + [c].count opener)
    (h : TakesBack opener closer depth' t) : TakesBack opener closer depth (c :: t) := by
  refine ⟨by rw [escapesEnd_cons hc, h.escapes], fun p hp => ?_, ?_⟩
  · rw [unescaped_cons hc] at hp
    cases p with
    | nil => simp
    | cons d q =>
      obtain ⟨rfl, hq⟩ := List.cons_prefix_cons.1 hp
      have := h.opened q hq
      rw [count_cons_add _ q closer, count_cons_add _ q opener]
      omega
  · have := h.closed
    rw [unescaped_cons hc, count_cons_add c _ closer, count_cons_add c _ opener]
    omega

end TakesBack

/-- Where the scan stops, the brackets that were open are taken back for the first time. -/
theorem takesBack_of_closingIn? {opener closer : Char} (hne : opener ≠ closer) {t : Text}
    {depth n : Nat} (h : closingIn? opener closer (depth + 1) t = some n) :
    ∃ u v, t = u ++ closer :: v ∧ u.width = n ∧ TakesBack opener closer depth u := by
  induction t using unescaped.induct generalizing depth n with
  | case1 => simp at h
  | case2 =>
    rw [closingIn?.eq_def] at h
    simp at h
  | case3 e t ih =>
    rw [closingIn?_escape] at h
    obtain ⟨m, hm, rfl⟩ := Option.map_eq_some_iff.1 h
    obtain ⟨u, v, rfl, rfl, hu⟩ := ih hm
    exact ⟨'\\' :: e :: u, v, rfl, by simp [Nat.add_assoc], hu.escape e⟩
  | case4 c t hc ih =>
    rw [closingIn?_cons hc] at h
    split at h
    · rename_i hco
      subst hco
      obtain ⟨m, hm, rfl⟩ := Option.map_eq_some_iff.1 h
      obtain ⟨u, v, rfl, rfl, hu⟩ := ih hm
      exact ⟨c :: u, v, rfl, rfl, hu.cons hc (by simp [hne])⟩
    · rename_i hco
      split at h
      · rename_i hcc
        subst hcc
        split at h
        · rename_i hzero
          cases h
          exact ⟨[], t, rfl, rfl, hzero ▸ .nil⟩
        · obtain ⟨depth, rfl⟩ := Nat.exists_eq_succ_of_ne_zero ‹_›
          obtain ⟨m, hm, rfl⟩ := Option.map_eq_some_iff.1 h
          obtain ⟨u, v, rfl, rfl, hu⟩ := ih hm
          exact ⟨c :: u, v, rfl, rfl, hu.cons hc (by simp [hco])⟩
      · rename_i hcc
        obtain ⟨m, hm, rfl⟩ := Option.map_eq_some_iff.1 h
        obtain ⟨u, v, rfl, rfl, hu⟩ := ih hm
        exact ⟨c :: u, v, rfl, rfl, hu.cons hc (by simp [hco, hcc])⟩

/-- The scan stops at the first closing bracket that leaves none open. -/
theorem closingIn?_eq_some_iff {opener closer : Char} (hne : opener ≠ closer) (hc : closer ≠ '\\')
    {t : Text} {depth n : Nat} : closingIn? opener closer (depth + 1) t = some n ↔
      ∃ u v, t = u ++ closer :: v ∧ u.width = n ∧ TakesBack opener closer depth u := by
  constructor
  · exact takesBack_of_closingIn? hne
  · rintro ⟨u, v, rfl, rfl, he, ho, hclosed⟩
    rw [closingIn?_append hne he _ depth ho, hclosed, Nat.sub_self, closingIn?_cons hc,
      if_neg hne.symm]
    simp

/-! ## The bars -/

theorem join_pushFirst (sep : Text) (c : Char) {parts : List Text} (h : parts ≠ []) :
    join sep (pushFirst c parts) = c :: join sep parts := by
  match parts, h with
  | [p], _ => rfl
  | p :: q :: ps, _ => rfl

theorem pushFirst_ne_nil (c : Char) (parts : List Text) : pushFirst c parts ≠ [] := by
  cases parts <;> simp [pushFirst]

theorem barParts_ne_nil (d : Int) (t : Text) : barParts d t ≠ [] := by
  rw [barParts.eq_def]
  repeat' split
  all_goals simp [pushFirst_ne_nil]

/-- The parts with the bars between them are the text again. -/
theorem join_barParts (d : Int) (t : Text) : join ['|'] (barParts d t) = t := by
  induction t using unescaped.induct generalizing d with
  | case1 => simp [join]
  | case2 =>
    rw [barParts.eq_def]
    simp [join]
  | case3 e t ih =>
    rw [barParts_escape, join_pushFirst _ _ (pushFirst_ne_nil _ _),
      join_pushFirst _ _ (barParts_ne_nil _ _), ih]
  | case4 c t hc ih =>
    rw [barParts_cons hc]
    split
    · rename_i hbar
      obtain ⟨p, ps, hparts⟩ := List.exists_cons_of_ne_nil (barParts_ne_nil d t)
      have := ih d
      rw [hparts] at this ⊢
      rw [hbar.1]
      simp [join, this]
    · rw [join_pushFirst _ _ (barParts_ne_nil _ _), ih]

/-- Parts are shorter than all of them with bars in between. -/
theorem length_le_join {parts : List Text} {p : Text} (hp : p ∈ parts) :
    p.length + parts.length ≤ (join ['|'] parts).length + 1 := by
  induction parts generalizing p with
  | nil => cases hp
  | cons q qs ih =>
    cases qs with
    | nil => simp [List.mem_singleton.1 hp, join]
    | cons r rs =>
      simp only [join, List.append_assoc, List.length_append, List.length_cons, List.length_nil]
      have hrest := ih (p := r) (by simp)
      rw [List.length_cons] at hrest
      rcases List.mem_cons.1 hp with rfl | hp
      · omega
      · have := ih hp
        rw [List.length_cons] at this
        omega

theorem infix_join {sep p : Text} {parts : List Text} (hp : p ∈ parts) : p <:+: join sep parts := by
  induction parts with
  | nil => cases hp
  | cons q qs ih =>
    cases qs with
    | nil =>
      rw [List.mem_singleton.1 hp]
      exact List.infix_rfl
    | cons r rs =>
      rw [join, List.append_assoc]
      rcases List.mem_cons.1 hp with rfl | hp
      · exact (List.prefix_append _ _).isInfix
      · exact (ih hp).trans ((List.suffix_append _ _).trans (List.suffix_append _ _)).isInfix

/-- A part is shorter than the text, by the bars at least. -/
theorem length_le_of_mem_barParts {d : Int} {t p : Text} (hp : p ∈ barParts d t) :
    p.length + (barParts d t).length ≤ t.length + 1 := by
  have := length_le_join hp
  rwa [join_barParts] at this

theorem barParts_eq_singleton {d : Int} {t : Text} (h : (barParts d t).length = 1) :
    barParts d t = [t] := by
  obtain ⟨p, hp⟩ := List.length_eq_one_iff.1 h
  have := join_barParts d t
  rw [hp] at this ⊢
  exact congrArg (fun s => [s]) this

theorem map_snd_splitBars (t : Text) : t.splitBars.map Prod.snd = barParts 0 t := by
  have hplaced (start : Nat) (parts : List Text) : (placed start parts).map Prod.snd = parts := by
    induction parts generalizing start with
    | nil => rfl
    | cons p ps ih => rw [placed, List.map_cons, ih]
  exact hplaced 0 _

theorem length_splitBars (t : Text) : (splitBars t).length = (barParts 0 t).length := by
  rw [← map_snd_splitBars, List.length_map]

/-- A bar at the beginning cuts. -/
theorem barParts_bar_ne (t : Text) : barParts 0 ('|' :: t) ≠ ['|' :: t] := by
  rw [barParts_cons (by decide)]
  simp

/-- The first part has no outer bar from the depth on at which the text begins, and the others have
none at all. -/
theorem barParts_of_barParts {d : Int} {t p : Text} {ps : List Text} (h : barParts d t = p :: ps) :
    barParts d p = [p] ∧ ∀ q ∈ ps, barParts 0 q = [q] := by
  induction t using unescaped.induct generalizing d p ps with
  | case1 =>
    rw [barParts_nil] at h
    cases h
    simp
  | case2 =>
    rw [barParts.eq_def] at h
    simp only [if_true] at h
    cases h
    rw [barParts.eq_def]
    simp
  | case3 e t ih =>
    obtain ⟨q, qs, hparts⟩ := List.exists_cons_of_ne_nil (barParts_ne_nil d t)
    obtain ⟨hq, hqs⟩ := ih hparts
    rw [barParts_escape, hparts] at h
    cases h
    exact ⟨by rw [barParts_escape, hq]; rfl, hqs⟩
  | case4 c t hc ih =>
    rw [barParts_cons hc] at h
    split at h
    · rename_i hbar
      cases h
      refine ⟨barParts_nil d, fun q hq => ?_⟩
      obtain ⟨r, rs, hparts⟩ := List.exists_cons_of_ne_nil (barParts_ne_nil d t)
      obtain ⟨hr, hrs⟩ := ih hparts
      rw [hparts] at hq
      rcases List.mem_cons.1 hq with rfl | hq
      · rwa [hbar.2] at hr
      · exact hrs q hq
    · rename_i hbar
      obtain ⟨q, qs, hparts⟩ := List.exists_cons_of_ne_nil (barParts_ne_nil (d + depthChange c) t)
      obtain ⟨hq, hqs⟩ := ih hparts
      rw [hparts] at h
      cases h
      exact ⟨by rw [barParts_cons hc, if_neg hbar, hq]; rfl, hqs⟩

theorem barParts_of_mem {t p : Text} (h : p ∈ barParts 0 t) : barParts 0 p = [p] := by
  obtain ⟨q, qs, hparts⟩ := List.exists_cons_of_ne_nil (barParts_ne_nil 0 t)
  obtain ⟨hq, hqs⟩ := barParts_of_barParts hparts
  rw [hparts] at h
  rcases List.mem_cons.1 h with rfl | h
  · exact hq
  · exact hqs p h

/-- Sealed texts with bars between them are the parts that the bars cut. -/
theorem barParts_join {parts : List Text} (hne : parts ≠ []) (h : ∀ p ∈ parts, Sealed 0 p) :
    barParts 0 (join ['|'] parts) = parts := by
  induction parts with
  | nil => exact absurd rfl hne
  | cons p ps ih =>
    have hp := h p (by simp)
    cases ps with
    | nil =>
      have := hp.bars 0 (Int.le_refl 0) []
      simpa [join, prepend_first] using this
    | cons q qs =>
      rw [join, List.append_assoc, List.singleton_append, barParts_of_sealed hp,
        ih (by simp) fun r hr => h r (by simp [hr])]

theorem sealed_join {parts : List Text} (h : ∀ p ∈ parts, Sealed 0 p) :
    Sealed 1 (join ['|'] parts) := by
  induction parts with
  | nil => exact Sealed.nil
  | cons p ps ih =>
    have hp : Sealed 1 p := (h p (by simp)).mono (by omega)
    cases ps with
    | nil => exact hp
    | cons q qs =>
      have ih := ih fun r hr => h r (by simp [hr])
      exact (hp.append (Sealed.bar (Int.le_refl 1))).append ih

/-- What follows a sealed text without outer bars has none either. -/
theorem barParts_of_append {s t : Text} (hs : Sealed 0 s) (h : barParts 0 (s ++ t) = [s ++ t]) :
    barParts 0 t = [t] := by
  refine barParts_eq_singleton ?_
  obtain ⟨p, ps, hparts⟩ := List.exists_cons_of_ne_nil (barParts_ne_nil 0 t)
  rw [hs.bars 0 (Int.le_refl 0), hparts, prepend_first] at h
  rw [hparts, (List.cons.inj h).2]
  rfl

/-! ## What stands unescaped -/

theorem unescaped_append {s : Text} (hs : escapesEnd s = true) (t : Text) :
    unescaped (s ++ t) = unescaped s ++ unescaped t := by
  induction s using unescaped.induct with
  | case1 => rfl
  | case2 => simp [escapesEnd] at hs
  | case3 e s ih =>
    have ih := ih (by simpa [escapesEnd] using hs)
    simpa [unescaped] using ih
  | case4 c s hc ih =>
    rw [escapesEnd_cons hc] at hs
    rw [List.cons_append, unescaped_cons hc, unescaped_cons hc, ih hs, List.cons_append]

theorem escapesEnd_append {s : Text} (hs : escapesEnd s = true) (t : Text) :
    escapesEnd (s ++ t) = escapesEnd t := by
  induction s using unescaped.induct with
  | case1 => rfl
  | case2 => simp [escapesEnd] at hs
  | case3 e s ih =>
    have ih := ih (by simpa [escapesEnd] using hs)
    simpa [escapesEnd] using ih
  | case4 c s hc ih =>
    rw [escapesEnd_cons hc] at hs
    rw [List.cons_append, escapesEnd_cons hc, ih hs]

/-- What stands unescaped in a part stands so in the text. -/
theorem mem_unescaped_of_barParts {d : Int} {t p : Text} (hp : p ∈ barParts d t) {c : Char}
    (hc : c ∈ unescaped p) : c ∈ unescaped t := by
  have hfirst (d : Int) (t : Text) := List.exists_cons_of_ne_nil (barParts_ne_nil d t)
  induction t using unescaped.induct generalizing d p with
  | case1 =>
    rw [barParts_nil, List.mem_singleton] at hp
    rwa [hp] at hc
  | case2 =>
    rw [barParts.eq_def] at hp
    simp only [if_true, List.mem_singleton] at hp
    rwa [hp] at hc
  | case3 e t ih =>
    obtain ⟨q, qs, hparts⟩ := hfirst d t
    rw [barParts_escape, hparts] at hp
    have hstep : unescaped ('\\' :: e :: t) = unescaped t := rfl
    rw [hstep]
    rcases List.mem_cons.1 hp with rfl | hp
    · exact ih (d := d) (p := q) (by simp [hparts]) hc
    · exact ih (d := d) (by simp [hparts, hp]) hc
  | case4 e t he ih =>
    rw [unescaped_cons he]
    rw [barParts_cons he] at hp
    split at hp
    · rcases List.mem_cons.1 hp with rfl | hp
      · cases hc
      · exact List.mem_cons_of_mem e (ih hp hc)
    · obtain ⟨q, qs, hparts⟩ := hfirst (d + depthChange e) t
      rw [hparts] at hp
      rcases List.mem_cons.1 hp with rfl | hp
      · rw [unescaped_cons he] at hc
        rcases List.mem_cons.1 hc with rfl | hc
        · exact List.mem_cons_self
        · exact List.mem_cons_of_mem e (ih (d := d + depthChange e) (by simp [hparts]) hc)
      · exact List.mem_cons_of_mem e (ih (d := d + depthChange e) (by simp [hparts, hp]) hc)

/-- Only the last part may end within an escape, and it does if the text does. -/
theorem map_escapesEnd_barParts (d : Int) (t : Text) :
    ∃ k, (barParts d t).map escapesEnd = List.replicate k true ++ [escapesEnd t] := by
  have hfirst (d : Int) (t : Text) := List.exists_cons_of_ne_nil (barParts_ne_nil d t)
  induction t using unescaped.induct generalizing d with
  | case1 => exact ⟨0, by rw [barParts_nil]; rfl⟩
  | case2 => exact ⟨0, by rw [barParts.eq_def]; rfl⟩
  | case3 e t ih =>
    obtain ⟨p, ps, hparts⟩ := hfirst d t
    obtain ⟨k, hk⟩ := ih d
    refine ⟨k, ?_⟩
    rw [barParts_escape]
    rw [hparts] at hk ⊢
    exact hk
  | case4 c t hc ih =>
    rw [barParts_cons hc, escapesEnd_cons hc]
    split
    · obtain ⟨k, hk⟩ := ih d
      exact ⟨k + 1, by rw [List.map_cons, hk]; rfl⟩
    · obtain ⟨p, ps, hparts⟩ := hfirst (d + depthChange c) t
      obtain ⟨k, hk⟩ := ih (d + depthChange c)
      refine ⟨k, ?_⟩
      rw [hparts] at hk ⊢
      rw [pushFirst, List.map_cons, escapesEnd_cons hc]
      exact hk

/-- A part stands in the text at its offset. If it ends within an escape, the text ends with it. -/
theorem exists_of_mem_splitBars {t p : Text} {i : Nat} (h : (i, p) ∈ t.splitBars) :
    ∃ a b, t = a ++ p ++ b ∧ a.width = i ∧
      (escapesEnd p = false → b = [] ∧ escapesEnd t = false) := by
  obtain ⟨k, hk⟩ := map_escapesEnd_barParts 0 t
  have hbar : '|'.utf8Size = 1 := rfl
  have hplaced {parts : List Text} {start k : Nat}
      (hk : parts.map escapesEnd = List.replicate k true ++ [escapesEnd t])
      (h : (i, p) ∈ placed start parts) : ∃ a b, join ['|'] parts = a ++ p ++ b ∧
        start + a.width = i ∧ (escapesEnd p = false → b = [] ∧ escapesEnd t = false) := by
    induction parts generalizing start k with
    | nil => cases h
    | cons q qs ih =>
      rw [placed, List.mem_cons] at h
      cases k with
      | zero =>
        obtain ⟨hq, hqs⟩ := List.cons.inj hk
        obtain rfl := List.map_eq_nil_iff.1 hqs
        obtain ⟨rfl, rfl⟩ := Prod.mk.inj (h.resolve_right List.not_mem_nil)
        exact ⟨[], [], by simp [join], rfl, fun hp => ⟨rfl, hq.symm.trans hp⟩⟩
      | succ k =>
        obtain ⟨hq, hqs⟩ := List.cons.inj hk
        obtain ⟨r, rs, rfl⟩ : ∃ r rs, qs = r :: rs := by
          refine List.exists_cons_of_ne_nil ?_
          rintro rfl
          simp at hqs
        rcases h with h | h
        · obtain ⟨rfl, rfl⟩ := Prod.mk.inj h
          refine ⟨[], '|' :: join ['|'] (r :: rs), by simp [join], rfl, fun hp => ?_⟩
          rw [hp] at hq
          cases hq
        · obtain ⟨a, b, hjoin, hi, hlast⟩ := ih hqs h
          refine ⟨q ++ '|' :: a, b, by simp [join, hjoin], ?_, hlast⟩
          rw [width_append, width_cons, hbar]
          omega
  obtain ⟨a, b, hjoin, hi, hlast⟩ := hplaced hk h
  exact ⟨a, b, (join_barParts 0 t).symm.trans hjoin, by omega, hlast⟩

end Phrasebook.Text
