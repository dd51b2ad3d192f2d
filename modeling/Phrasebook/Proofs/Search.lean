import Phrasebook.Search
import Mathlib.Data.List.Forall2

/-!
How to reason about searches. `Finds` says what a search may find in some session, `Faultless` that
it ends in no fault in any, and `InStep` that two searches end alike from related sessions and leave
related sessions behind. There is one rule for each way of putting searches together.
-/

namespace Phrasebook

variable {α β γ δ : Type}

/-- Two outcomes of the same sort, with related things found. -/
inductive Outcome.Agrees (R : α → β → Prop) : Outcome α → Outcome β → Prop where
  | found {a : α} {b : β} (h : R a b) : Agrees R (.found a) (.found b)
  | missed : Agrees R .missed .missed
  | fault (e : Fault) : Agrees R (.fault e) (.fault e)

theorem Outcome.Agrees.mono {R Q : α → β → Prop} (hRQ : ∀ a b, R a b → Q a b) {x : Outcome α}
    {y : Outcome β} (h : x.Agrees R y) : x.Agrees Q y := by
  cases h with
  | found h => exact .found (hRQ _ _ h)
  | missed => exact .missed
  | fault e => exact .fault e

theorem Outcome.Agrees.map_toOption {R : α → β → Prop} {x : Outcome α} {y : Outcome β}
    (h : x.Agrees R y) {f : α → γ} {g : β → γ} (hfg : ∀ a b, R a b → f a = g b) :
    x.toOption.map f = y.toOption.map g := by
  cases h with
  | found h => exact congrArg some (hfg _ _ h)
  | missed => rfl
  | fault e => rfl

theorem Outcome.Agrees.isSome_toOption {R : α → β → Prop} {x : Outcome α} {y : Outcome β}
    (h : x.Agrees R y) : x.toOption.isSome = y.toOption.isSome := by
  cases h <;> rfl

theorem Outcome.Agrees.missed_iff {R : α → β → Prop} {x : Outcome α} {y : Outcome β}
    (h : x.Agrees R y) : x = .missed ↔ y = .missed := by
  cases h <;> simp

theorem Outcome.Agrees.found_iff {R : α → β → Prop} {x : Outcome α} {y : Outcome β}
    (h : x.Agrees R y) : (∃ a, x = .found a) ↔ ∃ b, y = .found b := by
  cases h <;> simp

theorem Outcome.agrees_eq {x y : Outcome α} (h : x.Agrees Eq y) : x = y := by
  cases h with
  | found h => rw [h]
  | missed => rfl
  | fault e => rfl

namespace Search

/-! ## What is found -/

/-- What is found in a session can be read off what is known of it there. -/
theorem exists_found {x : Search α} {s : Session} {f : α → β} {b : β}
    (h : (x s).1.toOption.map f = some b) : ∃ a s', x s = (.found a, s') ∧ f a = b := by
  rcases hx : x s with ⟨o, s'⟩
  rw [hx] at h
  obtain ⟨a, ha, hb⟩ := Option.map_eq_some_iff.1 h
  cases o with
  | found c =>
    cases ha
    exact ⟨a, s', rfl, hb⟩
  | missed => cases ha
  | fault e => cases ha

theorem bind_of_found {x : Search α} {f : α → Search β} {s s₁ : Session} {a : α}
    (h : x s = (.found a, s₁)) : (x >>= f) s = f a s₁ := by
  change Search.bind x f s = _
  simp only [Search.bind, h]

theorem bind_of_fault {x : Search α} {f : α → Search β} {s : Session} {e : Fault}
    (h : (x s).1 = .fault e) : ((x >>= f) s).1 = .fault e := by
  change (Search.bind x f s).1 = _
  unfold Search.bind
  split <;> simp_all

theorem orElse_of_missed {x y : Search α} {s s₁ : Session} (h : x s = (.missed, s₁)) :
    (x <|> y) s = y s₁ := by
  change Search.orElse x (fun _ => y) s = _
  simp only [Search.orElse, h]

theorem orElse_of_fault {x y : Search α} {s : Session} {e : Fault} (h : (x s).1 = .fault e) :
    ((x <|> y) s).1 = .fault e := by
  change (Search.orElse x (fun _ => y) s).1 = _
  unfold Search.orElse
  split
  · simp_all
  · exact h

/-- One search after another finds something only if both do, each in the session that it meets. -/
theorem exists_of_bind {x : Search α} {f : α → Search β} {b : β} {s s' : Session}
    (h : (x >>= f) s = (.found b, s')) : ∃ a s₁, x s = (.found a, s₁) ∧ f a s₁ = (.found b, s') := by
  change Search.bind x f s = _ at h
  unfold Search.bind at h
  split at h
  · rename_i a s₁ hx
    exact ⟨a, s₁, hx, h⟩
  · cases h
  · cases h

theorem found_or_of_orElse {x y : Search α} {a : α} {s s' : Session}
    (h : (x <|> y) s = (.found a, s')) :
    x s = (.found a, s') ∨ ∃ s₁, x s = (.missed, s₁) ∧ y s₁ = (.found a, s') := by
  change Search.orElse x (fun _ => y) s = _ at h
  unfold Search.orElse at h
  split at h
  · rename_i s₁ hx
    exact Or.inr ⟨s₁, hx, h⟩
  · exact Or.inl h

theorem ofOption_eq_found {o : Option α} {a : α} {s s' : Session}
    (h : Search.ofOption o s = (.found a, s')) : o = some a ∧ s' = s := by
  cases o with
  | none => cases h
  | some b =>
    cases h
    exact ⟨rfl, rfl⟩

theorem cut_eq_found {o : Option α} {a : α} {s s' : Session} (h : Search.cut o s = (.found a, s')) :
    o = some a ∧ s' = s := by
  cases o with
  | none => cases h
  | some b =>
    cases h
    exact ⟨rfl, rfl⟩

/-- What the first of a list finds is found behind misses only, each of which may leave its traces. -/
theorem exists_of_first {f : α → Search β} {l : List α} {b : β} {s s' : Session}
    (h : Search.first f l s = (.found b, s')) : ∃ before a after t, l = before ++ a :: after ∧
      Search.first f before s = (.missed, t) ∧ f a t = (.found b, s') := by
  induction l generalizing s with
  | nil => cases h
  | cons a l ih =>
    rcases found_or_of_orElse h with h | ⟨s₁, hmissed, h⟩
    · exact ⟨[], a, l, s, rfl, rfl, h⟩
    · obtain ⟨before, a', after, t, rfl, hbefore, h⟩ := ih h
      exact ⟨a :: before, a', after, t, rfl, (orElse_of_missed hmissed).trans hbefore, h⟩

/-- In some session the search finds `a`. -/
def Finds (x : Search α) (a : α) : Prop := ∃ s s', x s = (.found a, s')

theorem Finds.pure {a b : α} (h : Finds (Pure.pure a) b) : b = a := by
  obtain ⟨s, s', h⟩ := h
  cases h
  rfl

theorem not_finds_failure (a : α) : ¬ Finds failure a := by
  rintro ⟨s, s', h⟩
  cases h

theorem Finds.bind {x : Search α} {f : α → Search β} {b : β} (h : Finds (x >>= f) b) :
    ∃ a, Finds x a ∧ Finds (f a) b := by
  obtain ⟨s, s', h⟩ := h
  obtain ⟨a, s₁, hx, hf⟩ := exists_of_bind h
  exact ⟨a, ⟨s, s₁, hx⟩, ⟨s₁, s', hf⟩⟩

theorem Finds.orElse {x y : Search α} {a : α} (h : Finds (x <|> y) a) : Finds x a ∨ Finds y a := by
  obtain ⟨s, s', h⟩ := h
  rcases found_or_of_orElse h with h | ⟨s₁, -, h⟩
  · exact Or.inl ⟨s, s', h⟩
  · exact Or.inr ⟨s₁, s', h⟩

theorem Finds.ofOption {o : Option α} {a : α} (h : Finds (Search.ofOption o) a) : o = some a := by
  obtain ⟨s, s', h⟩ := h
  exact (ofOption_eq_found h).1

theorem Finds.cut {o : Option α} {a : α} (h : Finds (Search.cut o) a) : o = some a := by
  obtain ⟨s, s', h⟩ := h
  exact (cut_eq_found h).1

theorem Finds.first {f : α → Search β} {l : List α} {b : β} (h : Finds (Search.first f l) b) :
    ∃ a ∈ l, Finds (f a) b := by
  obtain ⟨s, s', h⟩ := h
  obtain ⟨before, a, after, t, rfl, -, h⟩ := exists_of_first h
  exact ⟨a, List.mem_append_cons_self, t, s', h⟩

theorem Finds.every {f : α → Search β} {l : List α} {bs : List β} (h : Finds (Search.every f l) bs) :
    List.Forall₂ (fun a b => Finds (f a) b) l bs := by
  induction l generalizing bs with
  | nil =>
    rw [Finds.pure h]
    exact .nil
  | cons a l ih =>
    obtain ⟨b, hb, h⟩ := h.bind
    obtain ⟨bs', hbs, h⟩ := h.bind
    rw [Finds.pure h]
    exact .cons hb (ih hbs)

/-! ## Freedom from faults -/

/-- In no session the search ends in a fault. -/
def Faultless (x : Search α) : Prop := ∀ s e, (x s).1 ≠ .fault e

theorem Faultless.pure (a : α) : Faultless (Pure.pure a) := by
  intro s e h
  cases h

theorem Faultless.failure : Faultless (failure : Search α) := by
  intro s e h
  cases h

theorem Faultless.failure_bind (f : α → Search β) : Faultless (Alternative.failure >>= f) := .failure

theorem Faultless.change (f : Session → Session) : Faultless (Search.change f) := by
  intro s e h
  cases h

theorem Faultless.session : Faultless Search.session := by
  intro s e h
  cases h

theorem Faultless.bind {x : Search α} {f : α → Search β} (hx : Faultless x)
    (hf : ∀ a, Finds x a → Faultless (f a)) : Faultless (x >>= f) := by
  intro s e h
  change (Search.bind x f s).1 = _ at h
  unfold Search.bind at h
  split at h
  · rename_i a s₁ hxs
    exact hf a ⟨s, s₁, hxs⟩ s₁ e h
  · cases h
  · rename_i e' s₁ hxs
    exact hx s e' (by rw [hxs])

theorem Faultless.orElse {x y : Search α} (hx : Faultless x) (hy : Faultless y) :
    Faultless (x <|> y) := by
  intro s e h
  change (Search.orElse x (fun _ => y) s).1 = _ at h
  unfold Search.orElse at h
  split at h
  · exact hy _ e h
  · exact hx s e h

theorem Faultless.ofOption (o : Option α) : Faultless (Search.ofOption o) := by
  cases o with
  | none => exact .failure
  | some a => exact .pure a

theorem Faultless.cut {o : Option α} {a : α} (h : o = some a) : Faultless (Search.cut o) := by
  rw [h]
  exact .pure a

theorem Faultless.first {f : α → Search β} {l : List α} (h : ∀ a ∈ l, Faultless (f a)) :
    Faultless (Search.first f l) := by
  induction l with
  | nil => exact .failure
  | cons a l ih =>
    exact .orElse (h a List.mem_cons_self) (ih fun a' ha' => h a' (List.mem_cons_of_mem a ha'))

theorem Faultless.every {f : α → Search β} {l : List α} (h : ∀ a ∈ l, Faultless (f a)) :
    Faultless (Search.every f l) := by
  induction l with
  | nil => exact .pure []
  | cons a l ih =>
    refine .bind (h a List.mem_cons_self) fun b _ => ?_
    exact .bind (ih fun a' ha' => h a' (List.mem_cons_of_mem a ha')) fun bs _ => .pure _

/-! ## Searches in step -/

/-- From related sessions the searches end alike, with related things found, and leave related
sessions behind. -/
def InStep (I : Session → Session → Prop) (R : α → β → Prop) (x : Search α) (y : Search β) : Prop :=
  ∀ s t, I s t → (x s).1.Agrees R (y t).1 ∧ I (x s).2 (y t).2

namespace InStep

variable {I : Session → Session → Prop} {R : α → β → Prop}

theorem mono {Q : α → β → Prop} (hRQ : ∀ a b, R a b → Q a b) {x : Search α} {y : Search β}
    (h : InStep I R x y) : InStep I Q x y := fun s t hst =>
  ⟨(h s t hst).1.mono hRQ, (h s t hst).2⟩

/-- In step from equal sessions with equal things found, the searches are the same. -/
theorem eq {x y : Search α} (h : InStep Eq Eq x y) : x = y := by
  funext s
  obtain ⟨h₁, h₂⟩ := h s s rfl
  exact Prod.ext (Outcome.agrees_eq h₁) h₂

theorem of_eq {x y : Search α} (h : x = y) : InStep Eq Eq x y := by
  rintro s t rfl
  rw [h]
  refine ⟨?_, rfl⟩
  cases (y s).1 with
  | found a => exact .found rfl
  | missed => exact .missed
  | fault e => exact .fault e

theorem pure {a : α} {b : β} (h : R a b) : InStep I R (Pure.pure a) (Pure.pure b) :=
  fun _ _ hst => ⟨.found h, hst⟩

theorem failure : InStep I R failure failure := fun _ _ hst => ⟨.missed, hst⟩

theorem failure_bind (f : γ → Search α) (g : δ → Search β) :
    InStep I R (Alternative.failure >>= f) (Alternative.failure >>= g) :=
  fun _ _ hst => ⟨.missed, hst⟩

theorem fault (e : Fault) : InStep I R (Search.fault e) (Search.fault e) :=
  fun _ _ hst => ⟨.fault e, hst⟩

theorem change {f g : Session → Session} (h : ∀ s t, I s t → I (f s) (g t)) :
    InStep I (fun _ _ => True) (Search.change f) (Search.change g) :=
  fun s t hst => ⟨.found trivial, h s t hst⟩

theorem session : InStep I I Search.session Search.session := fun _ _ hst => ⟨.found hst, hst⟩

theorem bind {Q : γ → δ → Prop} {x : Search α} {y : Search β} {f : α → Search γ}
    {g : β → Search δ} (hxy : InStep I R x y) (hfg : ∀ a b, R a b → InStep I Q (f a) (g b)) :
    InStep I Q (x >>= f) (y >>= g) := by
  intro s t hst
  obtain ⟨hout, hses⟩ := hxy s t hst
  change (Search.bind x f s).1.Agrees Q (Search.bind y g t).1 ∧
    I (Search.bind x f s).2 (Search.bind y g t).2
  unfold Search.bind
  rcases hx : x s with ⟨o, s'⟩
  rcases hy : y t with ⟨o', t'⟩
  rw [hx, hy] at hout hses
  cases hout with
  | found hab => exact hfg _ _ hab s' t' hses
  | missed => exact ⟨.missed, hses⟩
  | fault e => exact ⟨.fault e, hses⟩

theorem orElse {x₁ x₂ : Search α} {y₁ y₂ : Search β} (h₁ : InStep I R x₁ y₁)
    (h₂ : InStep I R x₂ y₂) : InStep I R (x₁ <|> x₂) (y₁ <|> y₂) := by
  intro s t hst
  obtain ⟨hout, hses⟩ := h₁ s t hst
  change (Search.orElse x₁ (fun _ => x₂) s).1.Agrees R (Search.orElse y₁ (fun _ => y₂) t).1 ∧
    I (Search.orElse x₁ (fun _ => x₂) s).2 (Search.orElse y₁ (fun _ => y₂) t).2
  unfold Search.orElse
  rcases hx : x₁ s with ⟨o, s'⟩
  rcases hy : y₁ t with ⟨o', t'⟩
  rw [hx, hy] at hout hses
  cases hout with
  | found hab => exact ⟨.found hab, hses⟩
  | missed => exact h₂ s' t' hses
  | fault e => exact ⟨.fault e, hses⟩

theorem ofOption (o : Option α) :
    InStep I (fun a b => a = b ∧ o = some a) (Search.ofOption o) (Search.ofOption o) := by
  cases o with
  | none => exact failure
  | some a => exact pure ⟨rfl, rfl⟩

theorem ofOption_rel {o : Option α} {p : Option β} (h : Option.Rel R o p) :
    InStep I R (Search.ofOption o) (Search.ofOption p) := by
  cases h with
  | some h => exact pure h
  | none => exact failure

theorem cut (o : Option α) :
    InStep I (fun a b => a = b ∧ o = some a) (Search.cut o) (Search.cut o) := by
  cases o with
  | none => exact fault .noPlace
  | some a => exact pure ⟨rfl, rfl⟩

theorem first {f : γ → Search α} {g : γ → Search β} {l : List γ}
    (h : ∀ c ∈ l, InStep I R (f c) (g c)) : InStep I R (Search.first f l) (Search.first g l) := by
  induction l with
  | nil => exact failure
  | cons c l ih =>
    exact orElse (h c List.mem_cons_self) (ih fun c' hc' => h c' (List.mem_cons_of_mem c hc'))

theorem every {f : γ → Search α} {g : γ → Search β} {l : List γ}
    (h : ∀ c ∈ l, InStep I R (f c) (g c)) :
    InStep I (List.Forall₂ R) (Search.every f l) (Search.every g l) := by
  induction l with
  | nil => exact pure .nil
  | cons c l ih =>
    refine bind (h c List.mem_cons_self) fun a b hab => ?_
    refine bind (ih fun c' hc' => h c' (List.mem_cons_of_mem c hc')) fun as bs habs => ?_
    exact pure (.cons hab habs)

end InStep

theorem pure_bind (a : α) (f : α → Search β) : (Pure.pure a >>= f) = f a := rfl

theorem bind_assoc (x : Search α) (f : α → Search β) (g : β → Search γ) :
    (x >>= f) >>= g = x >>= fun a => f a >>= g := by
  funext s
  change Search.bind (Search.bind x f) g s = Search.bind x (fun a => Search.bind (f a) g) s
  simp only [Search.bind]
  rcases x s with ⟨o, s'⟩
  cases o <;> rfl

theorem bind_pure (x : Search α) : x >>= Pure.pure = x := by
  funext s
  change Search.bind x Pure.pure s = x s
  rw [Search.bind]
  rcases x s with ⟨o, s'⟩
  cases o <;> rfl

theorem ofOption_some_bind (a : α) (f : α → Search β) : (ofOption (some a) >>= f) = f a := rfl

theorem cut_some_bind (a : α) (f : α → Search β) : (cut (some a) >>= f) = f a := rfl

theorem ofOption_some_orElse (a : α) (y : Search α) : (ofOption (some a) <|> y) = Pure.pure a := rfl

theorem orElse_failure (x : Search α) : (x <|> failure) = x := by
  funext s
  change Search.orElse x (fun _ => failure) s = x s
  unfold Search.orElse
  split
  · rename_i hx
    rw [hx]
    rfl
  · rfl

theorem every_congr {f g : α → Search β} {l : List α} (h : ∀ a ∈ l, f a = g a) :
    every f l = every g l := by
  induction l with
  | nil => rfl
  | cons a l ih =>
    rw [every, every, h a List.mem_cons_self, ih fun a' ha' => h a' (List.mem_cons_of_mem a ha')]

theorem every_map (g : γ → α) (f : α → Search β) (l : List γ) :
    Search.every f (l.map g) = Search.every (fun c => f (g c)) l := by
  induction l with
  | nil => rfl
  | cons c l ih => rw [List.map_cons, Search.every, Search.every, ih]

theorem first_congr {f g : α → Search β} {l : List α} (h : ∀ a ∈ l, f a = g a) :
    first f l = first g l := by
  induction l with
  | nil => rfl
  | cons a l ih =>
    rw [first, first, h a List.mem_cons_self, ih fun a' ha' => h a' (List.mem_cons_of_mem a ha')]

/-! ## Searches that end alike in any two sessions -/

/-- In any two sessions the searches end alike, with related things found. -/
abbrev EndAlike (R : α → β → Prop) : Search α → Search β → Prop := InStep (fun _ _ => True) R

def Succeeds (x : Search α) : Prop := ∀ s, ∃ a, (x s).1 = .found a

def Misses (x : Search α) : Prop := ∀ s, (x s).1 = .missed

theorem Succeeds.orElse_left {x : Search α} (h : Succeeds x) (y : Search α) :
    Succeeds (x <|> y) := by
  intro s
  obtain ⟨a, ha⟩ := h s
  refine ⟨a, ?_⟩
  change (Search.orElse x (fun _ => y) s).1 = _
  unfold Search.orElse
  split
  · rename_i hx
    rw [hx] at ha
    cases ha
  · exact ha

theorem Succeeds.orElse_right {x y : Search α} (hx : Faultless x) (h : Succeeds y) :
    Succeeds (x <|> y) := by
  intro s
  change ∃ a, (Search.orElse x (fun _ => y) s).1 = _
  unfold Search.orElse
  rcases hxs : x s with ⟨o, s₁⟩
  cases o with
  | found a => exact ⟨a, rfl⟩
  | missed => exact h s₁
  | fault e => exact absurd (by rw [hxs]) (hx s e)

theorem Succeeds.first {f : α → Search β} {l : List α} (hf : ∀ a ∈ l, Faultless (f a)) {a : α}
    (ha : a ∈ l) (h : Succeeds (f a)) : Succeeds (Search.first f l) := by
  induction l with
  | nil => cases ha
  | cons a' l ih =>
    rcases List.mem_cons.1 ha with rfl | ha
    · exact h.orElse_left _
    · have hl := ih (fun c hc => hf c (List.mem_cons_of_mem a' hc)) ha
      exact .orElse_right (hf a' List.mem_cons_self) hl

theorem Misses.orElse {x y : Search α} (hx : Misses x) (hy : Misses y) : Misses (x <|> y) := by
  intro s
  change (Search.orElse x (fun _ => y) s).1 = _
  unfold Search.orElse
  split
  · exact hy _
  · exact hx s

/-- Another way that misses does not change the answer. -/
theorem Misses.orElse_fst {y : Search α} (hy : Misses y) (x : Search α) (s : Session) :
    ((x <|> y) s).1 = (x s).1 := by
  change (Search.orElse x (fun _ => y) s).1 = _
  unfold Search.orElse
  split
  · rename_i hmissed
    rw [hmissed]
    exact hy _
  · rfl

theorem Misses.orElse_eq_found {y : Search α} (hy : Misses y) {x : Search α} {s s' : Session} {a : α} :
    (x <|> y) s = (.found a, s') ↔ x s = (.found a, s') := by
  change Search.orElse x (fun _ => y) s = _ ↔ _
  unfold Search.orElse
  split
  · rename_i t hmissed
    have hy : (y t).1 = .missed := hy t
    constructor
    · intro hfound
      cases hy.symm.trans (congrArg Prod.fst hfound)
    · intro hfound
      rw [hfound] at hmissed
      cases hmissed
  · rfl

theorem Misses.first {f : α → Search β} {l : List α} (h : ∀ a ∈ l, Misses (f a)) :
    Misses (Search.first f l) := by
  induction l with
  | nil => exact fun _ => rfl
  | cons a l ih =>
    exact .orElse (h a List.mem_cons_self) (ih fun a' ha' => h a' (List.mem_cons_of_mem a ha'))

theorem EndAlike.of_succeeds {x : Search α} {y : Search β} (hx : Succeeds x) (hy : Succeeds y) :
    EndAlike (fun _ _ => True) x y := by
  intro s t _
  obtain ⟨a, ha⟩ := hx s
  obtain ⟨b, hb⟩ := hy t
  rw [ha, hb]
  exact ⟨.found trivial, trivial⟩

theorem EndAlike.of_misses {R : α → β → Prop} {x : Search α} {y : Search β} (hx : Misses x)
    (hy : Misses y) : EndAlike R x y := by
  intro s t _
  rw [hx s, hy t]
  exact ⟨.missed, trivial⟩

theorem EndAlike.finds {R : α → β → Prop} {x : Search α} {y : Search β} (h : EndAlike R x y) {a : α}
    {b : β} (ha : Finds x a) (hb : Finds y b) : R a b := by
  obtain ⟨s, s', hx⟩ := ha
  obtain ⟨t, t', hy⟩ := hb
  have hout := (h s t trivial).1
  rw [hx, hy] at hout
  cases hout with
  | found hab => exact hab

/-- If something is found alike, how the things found are related can be shown apart. -/
theorem EndAlike.of_finds {R : α → β → Prop} {x : Search α} {y : Search β}
    (h : EndAlike (fun _ _ => True) x y) (hR : ∀ a b, Finds x a → Finds y b → R a b) :
    EndAlike R x y := by
  intro s t _
  obtain ⟨hout, -⟩ := h s t trivial
  refine ⟨?_, trivial⟩
  rcases hx : x s with ⟨o, s'⟩
  rcases hy : y t with ⟨o', t'⟩
  rw [hx, hy] at hout
  cases hout with
  | found _ => exact .found (hR _ _ ⟨s, s', hx⟩ ⟨t, t', hy⟩)
  | missed => exact .missed
  | fault e => exact .fault e

/-- Two searches that end alike in any two sessions each end in one way only. -/
theorem EndAlike.succeeds_or_misses {R : α → β → Prop} {x : Search α} {y : Search β}
    (hx : Faultless x) (h : EndAlike R x y) : (Succeeds x ∧ Succeeds y) ∨ (Misses x ∧ Misses y) := by
  by_cases hmiss : Misses x
  · exact Or.inr ⟨hmiss, fun t => (h t t trivial).1.missed_iff.1 (hmiss t)⟩
  · obtain ⟨s₀, hs₀⟩ := not_forall.1 hmiss
    have hfound : ∃ a, (x s₀).1 = .found a := by
      cases hxs : (x s₀).1 with
      | found a => exact ⟨a, rfl⟩
      | missed => exact absurd hxs hs₀
      | fault e => exact absurd hxs (hx s₀ e)
    -- what is found once is met with something found in every session of the other search
    have hy : Succeeds y := fun t => (h s₀ t trivial).1.found_iff.1 hfound
    exact Or.inl ⟨fun s => (h s s₀ trivial).1.found_iff.2 (hy s₀), hy⟩

/-- Whether anything is found does not depend on the order in which ways are tried, if they end
alike in all sessions. -/
theorem EndAlike.first {f : γ → Search α} {g : γ → Search β} {l l' : List γ}
    (hmem : ∀ c, c ∈ l ↔ c ∈ l') (hf : ∀ c ∈ l, Faultless (f c)) (hg : ∀ c ∈ l, Faultless (g c))
    (h : ∀ c ∈ l, EndAlike (fun _ _ => True) (f c) (g c)) :
    EndAlike (fun _ _ => True) (Search.first f l) (Search.first g l') := by
  by_cases hsome : ∃ c ∈ l, Succeeds (f c)
  · obtain ⟨c, hc, hfc⟩ := hsome
    have hgc : Succeeds (g c) := by
      rcases (h c hc).succeeds_or_misses (hf c hc) with ⟨_, hgc⟩ | ⟨hfc', _⟩
      · exact hgc
      · intro s
        obtain ⟨a, ha⟩ := hfc s
        rw [hfc' s] at ha
        cases ha
    have hg' : ∀ c ∈ l', Faultless (g c) := fun c hc => hg c ((hmem c).2 hc)
    exact .of_succeeds (.first hf hc hfc) (.first hg' ((hmem c).1 hc) hgc)
  · have hboth : ∀ c ∈ l, Misses (f c) ∧ Misses (g c) := by
      intro c hc
      rcases (h c hc).succeeds_or_misses (hf c hc) with ⟨hfc, _⟩ | hmiss
      · exact absurd ⟨c, hc, hfc⟩ hsome
      · exact hmiss
    exact .of_misses (.first fun c hc => (hboth c hc).1)
      (.first fun c hc => (hboth c ((hmem c).2 hc)).2)

/-- In whatever order ways are tried, the same is found, if each of them finds one thing only and no two
find different things. -/
theorem EndAlike.first_eq {f : γ → Search α} {l l' : List γ} (hmem : ∀ c, c ∈ l ↔ c ∈ l')
    (hf : ∀ c ∈ l, Faultless (f c)) (h : ∀ c ∈ l, EndAlike Eq (f c) (f c))
    (hone : ∀ c ∈ l, ∀ d ∈ l, c ≠ d → ∀ a b, Finds (f c) a → Finds (f d) b → a = b) :
    EndAlike Eq (Search.first f l) (Search.first f l') := by
  refine .of_finds (.first hmem hf hf fun c hc => (h c hc).mono fun _ _ _ => trivial) ?_
  intro a b ha hb
  obtain ⟨c, hc, ha⟩ := ha.first
  obtain ⟨d, hd, hb⟩ := hb.first
  by_cases hcd : c = d
  · subst hcd
    exact (h c hc).finds ha hb
  · exact hone c hc d ((hmem d).2 hd) hcd a b ha hb

theorem Succeeds.pure (a : α) : Succeeds (Pure.pure a) := fun _ => ⟨a, rfl⟩

theorem Succeeds.bind {x : Search α} {f : α → Search β} (hx : Succeeds x) (hf : ∀ a, Succeeds (f a)) :
    Succeeds (x >>= f) := by
  intro s
  obtain ⟨a, ha⟩ := hx s
  change ∃ b, (Search.bind x f s).1 = _
  unfold Search.bind
  rcases hxs : x s with ⟨o, s'⟩
  rw [hxs] at ha
  cases ha
  exact hf a s'

theorem Succeeds.every {f : α → Search β} {l : List α} (h : ∀ a ∈ l, Succeeds (f a)) :
    Succeeds (Search.every f l) := by
  induction l with
  | nil => exact .pure []
  | cons a l ih =>
    refine .bind (h a List.mem_cons_self) fun b => ?_
    exact .bind (ih fun a' ha' => h a' (List.mem_cons_of_mem a ha')) fun bs => .pure _

theorem Succeeds.optional {x : Search α} (h : Faultless x) : Succeeds (Search.optional x) :=
  .orElse_right (.bind h fun a _ => .pure (some a)) (.pure none)

theorem InStep.optional {I : Session → Session → Prop} {R : α → β → Prop} {x : Search α} {y : Search β}
    (h : InStep I R x y) : InStep I (Option.Rel R) (Search.optional x) (Search.optional y) :=
  .orElse (h.bind fun _ _ hab => .pure (.some hab)) (.pure .none)

/-! ## What is found in every session -/

/-- In every session something is found that has the property. -/
def Yields (P : α → Prop) (x : Search α) : Prop := ∀ s, ∃ a, (x s).1 = .found a ∧ P a

theorem Yields.pure {P : α → Prop} {a : α} (h : P a) : Yields P (Pure.pure a) := fun _ => ⟨a, rfl, h⟩

theorem Yields.change (f : Session → Session) : Yields (fun _ => True) (Search.change f) :=
  fun _ => ⟨(), rfl, trivial⟩

theorem Yields.session : Yields (fun _ => True) Search.session := fun s => ⟨s, rfl, trivial⟩

theorem Yields.mono {P Q : α → Prop} {x : Search α} (h : Yields P x) (hPQ : ∀ a, P a → Q a) :
    Yields Q x := by
  intro s
  obtain ⟨a, ha, hP⟩ := h s
  exact ⟨a, ha, hPQ a hP⟩

theorem Yields.bind {P : α → Prop} {Q : β → Prop} {x : Search α} {f : α → Search β} (hx : Yields P x)
    (hf : ∀ a, P a → Yields Q (f a)) : Yields Q (x >>= f) := by
  intro s
  obtain ⟨a, ha, hP⟩ := hx s
  change ∃ b, (Search.bind x f s).1 = _ ∧ Q b
  unfold Search.bind
  rcases hxs : x s with ⟨o, s'⟩
  rw [hxs] at ha
  cases ha
  exact hf a hP s'

theorem Yields.ofOption {P : α → Prop} {o : Option α} {a : α} (ho : o = some a) (h : P a) :
    Yields P (Search.ofOption o) := by
  rw [ho]
  exact .pure h

theorem Yields.cut {P : α → Prop} {o : Option α} {a : α} (ho : o = some a) (h : P a) :
    Yields P (Search.cut o) := by
  rw [ho]
  exact .pure h

theorem Yields.orElse_left {P : α → Prop} {x : Search α} (h : Yields P x) (y : Search α) :
    Yields P (x <|> y) := by
  intro s
  obtain ⟨a, ha, hP⟩ := h s
  refine ⟨a, ?_, hP⟩
  change (Search.orElse x (fun _ => y) s).1 = _
  unfold Search.orElse
  split
  · rename_i hx
    rw [hx] at ha
    cases ha
  · exact ha

theorem Misses.orElse_yields {P : α → Prop} {x y : Search α} (hx : Misses x) (hy : Yields P y) :
    Yields P (x <|> y) := by
  intro s
  obtain ⟨a, ha, hP⟩ := hy (x s).2
  refine ⟨a, ?_, hP⟩
  have hmissed := hx s
  change (Search.orElse x (fun _ => y) s).1 = _
  unfold Search.orElse
  rcases hxs : x s with ⟨o, s'⟩
  rw [hxs] at hmissed ha
  cases hmissed
  exact ha

/-- The first that finds something is found, whatever stands after it. -/
theorem Yields.first {P : β → Prop} {f : α → Search β} {l m : List α} {a : α}
    (hl : ∀ b ∈ l, Misses (f b)) (h : Yields P (f a)) : Yields P (Search.first f (l ++ a :: m)) := by
  induction l with
  | nil => exact h.orElse_left _
  | cons b l ih =>
    exact (hl b List.mem_cons_self).orElse_yields (ih fun c hc => hl c (List.mem_cons_of_mem b hc))

/-- The one among several that finds something is found, wherever it stands. -/
theorem Yields.first_of_mem {P : β → Prop} {f : α → Search β} {l : List α} {a : α} (ha : a ∈ l)
    (hl : ∀ b, b ≠ a → Misses (f b)) (h : Yields P (f a)) : Yields P (Search.first f l) := by
  obtain ⟨front, back, rfl, hfront⟩ := List.eq_append_cons_of_mem ha
  refine .first (fun b hb => hl b ?_) h
  rintro rfl
  exact hfront hb

/-- Each search of a row finds something that has the property. -/
theorem Yields.every {P : α → β → Prop} {f : α → Search β} {l : List α} (h : ∀ a ∈ l, Yields (P a) (f a)) :
    Yields (fun bs => List.Forall₂ P l bs) (Search.every f l) := by
  induction l with
  | nil => exact .pure .nil
  | cons a l ih =>
    refine (h a List.mem_cons_self).bind fun b hb => ?_
    refine (ih fun c hc => h c (List.mem_cons_of_mem a hc)).bind fun bs hbs => ?_
    exact .pure (.cons hb hbs)

theorem Misses.failure : Misses (failure : Search α) := fun _ => rfl

theorem Misses.bind {x : Search α} (h : Misses x) (f : α → Search β) : Misses (x >>= f) := by
  intro s
  have hmissed := h s
  change (Search.bind x f s).1 = _
  unfold Search.bind
  rcases hxs : x s with ⟨o, s'⟩
  rw [hxs] at hmissed
  cases hmissed
  rfl

theorem Misses.of_bind {x : Search α} {f : α → Search β} (hx : Faultless x) (hf : ∀ a, Misses (f a)) :
    Misses (x >>= f) := by
  intro s
  change (Search.bind x f s).1 = _
  unfold Search.bind
  rcases hxs : x s with ⟨o, s'⟩
  cases o with
  | found a => exact hf a s'
  | missed => rfl
  | fault e => exact absurd (by rw [hxs]) (hx s e)

theorem Misses.ofOption {o : Option α} (h : o = none) : Misses (Search.ofOption o) := by
  rw [h]
  exact .failure

theorem Misses.of_not_finds {x : Search α} (hx : Faultless x) (h : ∀ a, ¬ Finds x a) : Misses x := by
  intro s
  rcases hxs : x s with ⟨o, s'⟩
  cases o with
  | found a => exact absurd ⟨s, s', hxs⟩ (h a)
  | missed => rfl
  | fault e => exact absurd (by rw [hxs]) (hx s e)

/-! ## Searches that leave the session alone -/

/-- However the search ends, the session is as it was. -/
def Quiet (x : Search α) : Prop := ∀ s, (x s).2 = s

theorem Quiet.pure (a : α) : Quiet (Pure.pure a) := fun _ => rfl

theorem Quiet.failure : Quiet (failure : Search α) := fun _ => rfl

theorem Quiet.fault (e : Fault) : Quiet (Search.fault e : Search α) := fun _ => rfl

theorem Quiet.ofOption (o : Option α) : Quiet (Search.ofOption o) := by
  cases o with
  | none => exact .failure
  | some a => exact .pure a

theorem Quiet.bind {x : Search α} {f : α → Search β} (hx : Quiet x) (hf : ∀ a, Quiet (f a)) :
    Quiet (x >>= f) := by
  intro s
  have hs := hx s
  change (Search.bind x f s).2 = s
  unfold Search.bind
  rcases hxs : x s with ⟨o, s'⟩
  rw [hxs] at hs
  cases o with
  | found a => exact (hf a s').trans hs
  | missed => exact hs
  | fault e => exact hs

theorem Quiet.orElse {x y : Search α} (hx : Quiet x) (hy : Quiet y) : Quiet (x <|> y) := by
  intro s
  have hs := hx s
  change (Search.orElse x (fun _ => y) s).2 = s
  unfold Search.orElse
  rcases hxs : x s with ⟨o, s'⟩
  rw [hxs] at hs
  cases o with
  | found a => exact hs
  | missed => exact (hy s').trans hs
  | fault e => exact hs

theorem Quiet.every {f : α → Search β} {l : List α} (h : ∀ a ∈ l, Quiet (f a)) :
    Quiet (Search.every f l) := by
  induction l with
  | nil => exact .pure []
  | cons a l ih =>
    refine .bind (h a List.mem_cons_self) fun b => ?_
    exact .bind (ih fun a' ha' => h a' (List.mem_cons_of_mem a ha')) fun bs => .pure _

end Search

end Phrasebook
