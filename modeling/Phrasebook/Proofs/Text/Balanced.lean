import Phrasebook.Text.Brackets
import Mathlib.Algebra.Ring.Int.Defs
import Mathlib.Data.List.Infix

/-!
Texts that the scans for brackets pass over. Such a text leaves every depth as it was, and none of
its bars is an outer one once the scan is deep enough. A text whose brackets of each kind are
balanced is passed over by both scans, also where the kinds cross.
-/

namespace Phrasebook.Text

/-- The characters that do not belong to an escape. -/
def unescaped : Text → Text
  | [] => []
  | c :: t =>
    if c = '\\' then
      match t with
      | [] => []
      | _ :: t => unescaped t
    else c :: unescaped t

/-- Whether a character follows every backslash that begins an escape. -/
def escapesEnd : Text → Bool
  | [] => true
  | c :: t =>
    if c = '\\' then
      match t with
      | [] => false
      | _ :: t => escapesEnd t
    else escapesEnd t

theorem unescaped_cons {c : Char} (hc : c ≠ '\\') (t : Text) :
    unescaped (c :: t) = c :: unescaped t := by
  rw [unescaped.eq_def]
  simp [hc]

theorem escapesEnd_cons {c : Char} (hc : c ≠ '\\') (t : Text) :
    escapesEnd (c :: t) = escapesEnd t := by
  rw [escapesEnd.eq_def]
  simp [hc]

/-- No beginning of the text closes more brackets than it opens, and all of it closes as many; a
backslash and the character after it do not count. -/
structure Balanced (opener closer : Char) (t : Text) : Prop where
  opened : ∀ p, p <+: unescaped t → p.count closer ≤ p.count opener
  closed : (unescaped t).count closer = (unescaped t).count opener

/-- The beginnings of a text are finitely many. -/
theorem Balanced.of_inits {opener closer : Char} {t : Text}
    (ho : ∀ p ∈ (unescaped t).inits, p.count closer ≤ p.count opener)
    (hc : (unescaped t).count closer = (unescaped t).count opener) : Balanced opener closer t :=
  ⟨fun p hp => ho p ((List.mem_inits p _).2 hp), hc⟩

def bracketPairs : List (Char × Char) := [('(', ')'), ('[', ']'), ('<', '>')]

def isScanned (c : Char) : Bool := c == '\\' || c == '|' || depthChange c != 0

theorem isScanned_eq_false {c : Char} :
    isScanned c = false ↔ c ≠ '\\' ∧ c ≠ '|' ∧ depthChange c = 0 := by
  simp [isScanned, and_assoc]

/-- The sum of the depth changes of the characters of a text. -/
def depthOf (t : Text) : Int := (t.map depthChange).sum

@[simp] theorem depthOf_nil : depthOf [] = 0 := rfl

@[simp] theorem depthOf_cons (c : Char) (t : Text) :
    depthOf (c :: t) = depthChange c + depthOf t := by
  simp [depthOf]

theorem depthOf_eq (t : Text) :
    depthOf t = ((t.count '(' : Int) - t.count ')') + ((t.count '[' : Int) - t.count ']') +
      ((t.count '<' : Int) - t.count '>') := by
  induction t with
  | nil => simp
  | cons c t ih =>
    simp only [depthOf_cons, ih, List.count_cons, depthChange, beq_iff_eq]
    split_ifs <;> simp_all <;> omega

def prepend (t : Text) (parts : List Text) : List Text := t.foldr pushFirst parts

@[simp] theorem prepend_nil (parts : List Text) : prepend [] parts = parts := rfl

@[simp] theorem prepend_cons (c : Char) (t : Text) (parts : List Text) :
    prepend (c :: t) parts = pushFirst c (prepend t parts) := rfl

theorem prepend_append (s t : Text) (parts : List Text) :
    prepend (s ++ t) parts = prepend s (prepend t parts) := by
  simp [prepend]

theorem prepend_first (t p : Text) (ps : List Text) : prepend t (p :: ps) = (t ++ p) :: ps := by
  induction t with
  | nil => rfl
  | cons c t ih => simp [ih, pushFirst]

/-! ## The scans, one step at a time -/

@[simp] theorem closingIn?_nil (opener closer : Char) (n : Nat) :
    closingIn? opener closer n [] = none := by
  rw [closingIn?.eq_def]

@[simp] theorem closingIn?_escape (opener closer c : Char) (n : Nat) (t : Text) :
    closingIn? opener closer n ('\\' :: c :: t) =
      (closingIn? opener closer n t).map ('\\'.utf8Size + c.utf8Size + ·) := by
  rw [closingIn?.eq_def]
  rfl

theorem closingIn?_opener {opener : Char} (ho : opener ≠ '\\') (closer : Char) (n : Nat) (t : Text) :
    closingIn? opener closer n (opener :: t) =
      (closingIn? opener closer (n + 1) t).map (opener.utf8Size + ·) := by
  rw [closingIn?.eq_def]
  simp [ho]

theorem closingIn?_cons {c : Char} (hc : c ≠ '\\') (opener closer : Char) (n : Nat) (t : Text) :
    closingIn? opener closer (n + 1) (c :: t) =
      if c = opener then (closingIn? opener closer (n + 2) t).map (c.utf8Size + ·)
      else if c = closer then
        if n = 0 then some 0 else (closingIn? opener closer n t).map (c.utf8Size + ·)
      else (closingIn? opener closer (n + 1) t).map (c.utf8Size + ·) := by
  rw [closingIn?.eq_def]
  cases n <;> simp [hc]

@[simp] theorem barParts_nil (d : Int) : barParts d [] = [[]] := by
  rw [barParts.eq_def]

@[simp] theorem barParts_escape (c : Char) (d : Int) (t : Text) :
    barParts d ('\\' :: c :: t) = pushFirst '\\' (pushFirst c (barParts d t)) := by
  rw [barParts.eq_def]
  rfl

theorem barParts_cons {c : Char} (hc : c ≠ '\\') (d : Int) (t : Text) :
    barParts d (c :: t) =
      if c = '|' ∧ d = 0 then [] :: barParts d t
      else pushFirst c (barParts (d + depthChange c) t) := by
  rw [barParts.eq_def]
  simp [hc]

/-! ## Balanced texts -/

theorem closingIn?_append {opener closer : Char} (hne : opener ≠ closer) {t : Text}
    (he : escapesEnd t = true) (rest : Text) (n : Nat)
    (ho : ∀ p, p <+: unescaped t → p.count closer ≤ n + p.count opener) :
    closingIn? opener closer (n + 1) (t ++ rest) =
      (closingIn? opener closer
        (n + (unescaped t).count opener - (unescaped t).count closer + 1) rest).map
        (t.width + ·) := by
  induction t using unescaped.induct generalizing n with
  | case1 => simp [unescaped]
  | case2 => simp [escapesEnd] at he
  | case3 e t ih =>
    have ih := ih (by simpa [escapesEnd] using he) n (by simpa [unescaped] using ho)
    simp [unescaped, ih, Function.comp_def, Nat.add_assoc]
  | case4 c t hc ih =>
    rw [unescaped_cons hc] at ho ⊢
    rw [escapesEnd_cons hc] at he
    have hp (p : Text) (h : p <+: unescaped t) :
        (c :: p).count closer ≤ n + (c :: p).count opener :=
      ho _ (List.cons_prefix_cons.2 ⟨rfl, h⟩)
    rw [List.cons_append, closingIn?_cons hc]
    by_cases hco : c = opener
    · subst hco
      have ih := ih he (n + 1) fun p h => by
        have := hp p h
        simp only [List.count_cons, beq_self_eq_true, beq_iff_eq, hne, if_true, if_false] at this
        omega
      simp only [if_true, ih, Option.map_map, Function.comp_def, width_cons, List.count_cons,
        beq_self_eq_true, beq_iff_eq, hne, if_false, Nat.add_assoc]
      congr 3
      omega
    · by_cases hcc : c = closer
      · subst hcc
        obtain ⟨m, rfl⟩ : ∃ m, n = m + 1 := by
          have := hp [] List.nil_prefix
          simp only [List.count_cons, List.count_nil, beq_self_eq_true, beq_iff_eq, hco,
            if_true, if_false] at this
          exact ⟨n - 1, by omega⟩
        have ih := ih he m fun p h => by
          have := hp p h
          simp only [List.count_cons, beq_self_eq_true, beq_iff_eq, hco, if_true, if_false] at this
          omega
        simp only [hco, if_false, if_true, Nat.succ_ne_zero, ih, Option.map_map,
          Function.comp_def, width_cons, List.count_cons, beq_self_eq_true, beq_iff_eq,
          Nat.add_assoc]
        congr 3
        omega
      · have ih := ih he n fun p h => by
          have := hp p h
          simpa only [List.count_cons, beq_iff_eq, hco, hcc, if_false, Nat.add_zero] using this
        simp only [hco, hcc, if_false, ih, Option.map_map, Function.comp_def, width_cons,
          List.count_cons, beq_iff_eq, Nat.add_zero, Nat.add_assoc]

theorem barParts_append {t : Text} (he : escapesEnd t = true) (rest : Text) (d : Int)
    (ho : ∀ p, p <+: unescaped t → 1 ≤ d + depthOf p) :
    barParts d (t ++ rest) = prepend t (barParts (d + depthOf (unescaped t)) rest) := by
  induction t using unescaped.induct generalizing d with
  | case1 => simp [unescaped]
  | case2 => simp [escapesEnd] at he
  | case3 e t ih =>
    have ih := ih (by simpa [escapesEnd] using he) d (by simpa [unescaped] using ho)
    simp [unescaped, ih]
  | case4 c t hc ih =>
    rw [unescaped_cons hc] at ho ⊢
    rw [escapesEnd_cons hc] at he
    have hd : ¬ d = 0 := by
      have := ho [] List.nil_prefix
      simp only [depthOf_nil] at this
      omega
    have ih := ih he (d + depthChange c) fun p h => by
      have := ho _ (List.cons_prefix_cons.2 ⟨rfl, h⟩)
      simp only [depthOf_cons] at this
      omega
    simp [barParts_cons hc, hd, ih, Int.add_assoc]

/-! ## Sealed texts -/

/-- Both scans pass over the text; its bars count from depth `d` on as inner ones. -/
structure Sealed (d : Int) (t : Text) : Prop where
  closing : ∀ pair ∈ bracketPairs, ∀ n rest,
    closingIn? pair.1 pair.2 (n + 1) (t ++ rest) =
      (closingIn? pair.1 pair.2 (n + 1) rest).map (t.width + ·)
  bars : ∀ e, d ≤ e → ∀ rest, barParts e (t ++ rest) = prepend t (barParts e rest)

namespace Sealed

variable {d : Int} {s t : Text}

theorem mono {e : Int} (h : Sealed d t) (hde : d ≤ e) : Sealed e t :=
  ⟨h.closing, fun f hf => h.bars f (by omega)⟩

theorem nil : Sealed d [] := ⟨fun pair _ n rest => by simp, fun e _ rest => rfl⟩

theorem append (hs : Sealed d s) (ht : Sealed d t) : Sealed d (s ++ t) where
  closing pair hp n rest := by
    rw [List.append_assoc, hs.closing pair hp, ht.closing pair hp]
    simp [Function.comp_def, Nat.add_assoc]
  bars e he rest := by rw [List.append_assoc, hs.bars e he, ht.bars e he, prepend_append]

/-- A backslash and the character after it. -/
theorem escape (c : Char) : Sealed d ['\\', c] where
  closing pair _ n rest := by simp [Nat.add_assoc]
  bars e _ rest := by simp

/-- A character that neither scan minds. -/
theorem plain {c : Char} (h : isScanned c = false) : Sealed d [c] where
  closing pair hp n rest := by
    obtain ⟨hs, -, hc⟩ := isScanned_eq_false.1 h
    have hne : c ≠ pair.1 ∧ c ≠ pair.2 := by
      simp only [bracketPairs, List.mem_cons, List.not_mem_nil, or_false] at hp
      rcases hp with rfl | rfl | rfl <;> constructor <;> rintro rfl <;> simp [depthChange] at hc
    simp [closingIn?_cons hs, hne.1, hne.2]
  bars e _ rest := by
    obtain ⟨hs, hb, hc⟩ := isScanned_eq_false.1 h
    simp [barParts_cons hs, hb, hc]

theorem of_plain (h : ∀ c ∈ t, isScanned c = false) : Sealed d t := by
  induction t with
  | nil => exact nil
  | cons c t ih =>
    have hc : Sealed d [c] := plain (h c (by simp))
    exact hc.append (ih fun e he => h e (by simp [he]))

/-- A bar inside brackets. -/
theorem bar (hd : 1 ≤ d) : Sealed d ['|'] where
  closing pair hp n rest := by
    simp only [bracketPairs, List.mem_cons, List.not_mem_nil, or_false] at hp
    rcases hp with rfl | rfl | rfl <;> simp [closingIn?_cons]
  bars e he rest := by
    have : ¬ e = 0 := by omega
    simp [barParts_cons, this, depthChange]

/-- Brackets around a text whose bars they keep inside. -/
theorem bracket {opener closer : Char} (hp : (opener, closer) ∈ bracketPairs) (h : Sealed 1 t) :
    Sealed 0 (opener :: t ++ [closer]) where
  closing pair hq n rest := by
    have h (m : Nat) := h.closing pair hq m (closer :: rest)
    simp only [bracketPairs, List.mem_cons, List.not_mem_nil, or_false, Prod.mk.injEq] at hp hq
    rcases hp with ⟨rfl, rfl⟩ | ⟨rfl, rfl⟩ | ⟨rfl, rfl⟩ <;> rcases hq with rfl | rfl | rfl <;>
      simp [closingIn?_cons, h, Function.comp_def, Nat.add_assoc]
  bars e he rest := by
    have h := h.bars (e + 1) (by omega) (closer :: rest)
    simp only [bracketPairs, List.mem_cons, List.not_mem_nil, or_false, Prod.mk.injEq] at hp
    rcases hp with ⟨rfl, rfl⟩ | ⟨rfl, rfl⟩ | ⟨rfl, rfl⟩ <;>
      simp [barParts_cons, depthChange, h, prepend_append]

/-- A text with every kind of brackets balanced, at any depth inside brackets. -/
theorem of_balanced (he : escapesEnd t = true)
    (hb : ∀ pair ∈ bracketPairs, Balanced pair.1 pair.2 t) : Sealed 1 t where
  closing pair hp n rest := by
    have hne : pair.1 ≠ pair.2 := by
      simp only [bracketPairs, List.mem_cons, List.not_mem_nil, or_false] at hp
      rcases hp with rfl | rfl | rfl <;> decide
    rw [closingIn?_append hne he rest n fun p h => by have := (hb pair hp).opened p h; omega,
      (hb pair hp).closed, Nat.add_sub_cancel]
  bars e h1 rest := by
    have hround := hb ('(', ')') (by simp [bracketPairs])
    have hsquare := hb ('[', ']') (by simp [bracketPairs])
    have hangle := hb ('<', '>') (by simp [bracketPairs])
    have hzero : depthOf (unescaped t) = 0 := by
      have h1 := hround.closed
      have h2 := hsquare.closed
      have h3 := hangle.closed
      simp only at h1 h2 h3
      rw [depthOf_eq]
      omega
    rw [barParts_append he rest e fun p h => by
      have h1 := hround.opened p h
      have h2 := hsquare.opened p h
      have h3 := hangle.opened p h
      simp only at h1 h2 h3
      rw [depthOf_eq]
      omega, hzero, Int.add_zero]

end Sealed

/-- A sealed text has no outer bar. -/
theorem splitBars_of_sealed {t : Text} (h : Sealed 0 t) : splitBars t = [(0, t)] := by
  have := h.bars 0 (by omega) []
  rw [List.append_nil] at this
  simp [splitBars, this, prepend_first, placed]

/-- A sealed text ends in front of a bar. -/
theorem barParts_of_sealed {t : Text} (h : Sealed 0 t) (rest : Text) :
    barParts 0 (t ++ '|' :: rest) = t :: barParts 0 rest := by
  rw [h.bars 0 (by omega), barParts_cons (by decide)]
  simp [prepend_first]

end Phrasebook.Text
