import Phrasebook.Matching.Greedy
import Phrasebook.Proofs.Search

/-!
What a run asks a resolver for, and what it is told. A resolver leaves no trace of its own in a run. But a
fault ends every run, so a question of a run shows when the resolver faults at this question alone. With
`AsksIn` the findings of a run can be traced back to answers that were given in the run itself.
-/

namespace Phrasebook

/-- A text to be resolved: for what, and inside which attempts. -/
structure Activation where
  text : Text
  expected : SlotType
  accepts : Acceptance
  enclosing : List Frame

namespace Resolver

def answer (r : Resolver) (q : Activation) : Search Expression :=
  r q.text q.expected q.accepts q.enclosing

open Classical in
/-- The resolver that faults where it is asked for one activation in one session. -/
noncomputable def faultingAt (r : Resolver) (q : Activation) (t : Session) : Resolver :=
  fun text expected accepts enclosing s =>
    if (⟨text, expected, accepts, enclosing⟩ : Activation) = q ∧ s = t then (.fault .tooDeep, s)
    else r text expected accepts enclosing s

theorem answer_faultingAt_self (r : Resolver) (q : Activation) (t : Session) :
    ((r.faultingAt q t).answer q t).1 = .fault .tooDeep := by
  simp [answer, faultingAt]

theorem answer_faultingAt_of_ne (r : Resolver) {q q' : Activation} {t s : Session}
    (h : ¬ (q' = q ∧ s = t)) : (r.faultingAt q t).answer q' s = r.answer q' s := if_neg h

/-- Among the questions in `asked` is one for the activation that is answered with the expression. -/
def Answers (r : Resolver) (asked : Activation → Session → Prop) (q : Activation) (e : Expression) : Prop :=
  ∃ t t', asked q t ∧ r.answer q t = (.found e, t')

theorem Answers.finds {r : Resolver} {asked : Activation → Session → Prop} {q : Activation} {e : Expression}
    (h : r.Answers asked q e) : (r.answer q).Finds e := by
  obtain ⟨t, t', -, h⟩ := h
  exact ⟨t, t', h⟩

end Resolver

variable {α β : Type}

/-- In the run from `s` on, the resolver is asked for the activation in session `t`: if it faulted there,
the run would. -/
def AsksIn (run : Resolver → Search α) (r : Resolver) (s : Session) (q : Activation) (t : Session) : Prop :=
  (run (r.faultingAt q t) s).1 = .fault .tooDeep

/-- A fault of the resolver at one question ends the run, or the run does not come to the question. -/
def PassesFaults (run : Resolver → Search α) : Prop :=
  ∀ r q t s, run (r.faultingAt q t) s = run r s ∨ AsksIn run r s q t

namespace AsksIn

variable {r : Resolver} {s s₁ t : Session} {q : Activation}

theorem answer (r : Resolver) (q : Activation) (t : Session) : AsksIn (fun r => r.answer q) r t q t :=
  r.answer_faultingAt_self q t

theorem bind_left {x : Resolver → Search α} {f : Resolver → α → Search β} (h : AsksIn x r s q t) :
    AsksIn (fun r => x r >>= f r) r s q t :=
  Search.bind_of_fault h

theorem bind_right {x : Resolver → Search α} {f : Resolver → α → Search β} {a : α} (hx : PassesFaults x)
    (ha : x r s = (.found a, s₁)) (h : AsksIn (fun r => f r a) r s₁ q t) :
    AsksIn (fun r => x r >>= f r) r s q t := by
  rcases hx r q t s with hsame | hfault
  · exact (congrArg Prod.fst (Search.bind_of_found (hsame.trans ha))).trans h
  · exact hfault.bind_left

theorem orElse_left {x y : Resolver → Search α} (h : AsksIn x r s q t) :
    AsksIn (fun r => x r <|> y r) r s q t :=
  Search.orElse_of_fault h

theorem orElse_right {x y : Resolver → Search α} (hx : PassesFaults x) (hmissed : x r s = (.missed, s₁))
    (h : AsksIn y r s₁ q t) : AsksIn (fun r => x r <|> y r) r s q t := by
  rcases hx r q t s with hsame | hfault
  · exact (congrArg Prod.fst (Search.orElse_of_missed (hsame.trans hmissed))).trans h
  · exact hfault.orElse_left

end AsksIn

namespace PassesFaults

theorem const (x : Search α) : PassesFaults fun _ => x := fun _ _ _ _ => Or.inl rfl

theorem answer (q : Activation) : PassesFaults fun r => r.answer q := by
  intro r q' t s
  by_cases h : q = q' ∧ s = t
  · obtain ⟨rfl, rfl⟩ := h
    exact Or.inr (.answer r q s)
  · exact Or.inl (r.answer_faultingAt_of_ne h)

theorem bind {x : Resolver → Search α} {f : Resolver → α → Search β} (hx : PassesFaults x)
    (hf : ∀ a, PassesFaults fun r => f r a) : PassesFaults fun r => x r >>= f r := by
  intro r q t s
  rcases hx r q t s with hsame | hfault
  · change Search.bind _ _ s = Search.bind _ _ s ∨ (Search.bind _ _ s).1 = _
    unfold Search.bind
    rw [hsame]
    split
    · exact hf _ r q t _
    · exact Or.inl rfl
    · exact Or.inl rfl
  · exact Or.inr hfault.bind_left

theorem orElse {x y : Resolver → Search α} (hx : PassesFaults x) (hy : PassesFaults y) :
    PassesFaults fun r => x r <|> y r := by
  intro r q t s
  rcases hx r q t s with hsame | hfault
  · change Search.orElse _ _ s = Search.orElse _ _ s ∨ (Search.orElse _ _ s).1 = _
    unfold Search.orElse
    rw [hsame]
    split
    · exact hy r q t _
    · exact Or.inl rfl
  · exact Or.inr hfault.orElse_left

theorem first {f : Resolver → α → Search β} (hf : ∀ a, PassesFaults fun r => f r a) (l : List α) :
    PassesFaults fun r => Search.first (f r) l := by
  induction l with
  | nil => exact .const _
  | cons a l ih => exact .orElse (hf a) ih

end PassesFaults

namespace Matching

/-! ## Matches pass on faults -/

theorem resolveSlot_passesFaults (types : List SlotType) (accepts : Acceptance) (chain : List Frame)
    (candidate : Text) : PassesFaults fun r => resolveSlot r types accepts chain candidate := by
  unfold resolveSlot
  dsimp only
  split
  · exact .const _
  · exact .first (fun type => .answer ⟨candidate.trim, type, accepts, chain⟩) types

variable [RegexEngine]

/-- A slot up to one of its boundaries. -/
theorem upTo_passesFaults (types : List SlotType) (accepts : Acceptance) (a : Attempt) (start : Nat)
    (bound : Boundary) : PassesFaults fun r => (do
      let stop ← Search.ofOption (bound.place? a.source start)
      let candidate ← Search.cut (a.source.between? start stop)
      let e ← resolveSlot r types accepts a.chain candidate
      pure (stop, e) : Search (Nat × Expression)) := by
  refine .bind (.const _) fun stop => .bind (.const _) fun candidate => ?_
  exact .bind (resolveSlot_passesFaults types accepts a.chain candidate) fun e => .const _

theorem slotEnd_passesFaults (types : List SlotType) (accepts : Acceptance) (tail : Tail) (a : Attempt)
    (i : Nat) : PassesFaults fun r => slotEnd r types accepts tail a i := by
  refine .orElse (.first (upTo_passesFaults types accepts a _) _) (.bind (.const _) fun rest => ?_)
  split
  · refine .bind (.const _) fun close => .bind (.const _) fun inside => ?_
    exact .bind (resolveSlot_passesFaults types accepts a.chain inside) fun e => .const _
  · exact .const _

mutual

theorem node_passesFaults : ∀ (p : Pattern) (tail : Tail) (i : Nat) (a : Attempt),
    PassesFaults fun r => node r p tail i a
  | .literal _, _, _, _ => .const _
  | .sequence ps, tail, i, a => parts_passesFaults ps tail i a
  | .optional p, tail, i, a =>
    .orElse (.bind (node_passesFaults p tail i a.branch) fun _ => .const _) (.const _)
  | .choice bs, tail, i, a => branches_passesFaults bs tail i a
  | .regex _, _, _, _ => .const _
  | .slot types accepts _, tail, i, a =>
    .bind (slotEnd_passesFaults types accepts tail a i) fun _ => .const _

theorem parts_passesFaults : ∀ (ps : List Pattern) (tail : Tail) (i : Nat) (a : Attempt),
    PassesFaults fun r => parts r ps tail i a
  | [], _, _, _ => .const _
  | p :: ps, tail, i, a =>
    .bind (node_passesFaults p (ps :: tail) i a) fun (j, b) => parts_passesFaults ps tail j b

theorem branches_passesFaults : ∀ (bs : List (Int32 × Pattern)) (tail : Tail) (i : Nat) (a : Attempt),
    PassesFaults fun r => branches r bs tail i a
  | [], _, _, _ => .const _
  | (_, p) :: bs, tail, i, a =>
    .orElse (.bind (node_passesFaults p tail i a.branch) fun _ => .const _)
      (branches_passesFaults bs tail i a)

end

end Matching

/-! ## What is found, and the questions on the way -/

/-- In some session the run finds `a`, and there it asks no other questions than those in `asked`. -/
def FindsAsking (asked : Activation → Session → Prop) (run : Resolver → Search α) (r : Resolver) (a : α) :
    Prop :=
  ∃ s s', run r s = (.found a, s') ∧ ∀ q t, AsksIn run r s q t → asked q t

namespace FindsAsking

variable {asked : Activation → Session → Prop} {r : Resolver}

theorem finds {run : Resolver → Search α} {a : α} (h : FindsAsking asked run r a) : (run r).Finds a := by
  obtain ⟨s, s', h, -⟩ := h
  exact ⟨s, s', h⟩

theorem of_finds {run : Resolver → Search α} {a : α} (h : (run r).Finds a) :
    FindsAsking (fun _ _ => True) run r a := by
  obtain ⟨s, s', h⟩ := h
  exact ⟨s, s', h, fun _ _ _ => trivial⟩

theorem answer {q : Activation} {e : Expression} (h : FindsAsking asked (fun r => r.answer q) r e) :
    r.Answers asked q e := by
  obtain ⟨s, s', h, hasked⟩ := h
  exact ⟨s, s', hasked q s (.answer r q s), h⟩

theorem bind {x : Resolver → Search α} {f : Resolver → α → Search β} {b : β} (hx : PassesFaults x)
    (h : FindsAsking asked (fun r => x r >>= f r) r b) :
    ∃ a, FindsAsking asked x r a ∧ FindsAsking asked (fun r => f r a) r b := by
  obtain ⟨s, s', h, hasked⟩ := h
  obtain ⟨a, s₁, ha, hb⟩ := Search.exists_of_bind h
  exact ⟨a, ⟨s, s₁, ha, fun q t hq => hasked q t hq.bind_left⟩,
    ⟨s₁, s', hb, fun q t hq => hasked q t (hq.bind_right hx ha)⟩⟩

theorem orElse {x y : Resolver → Search α} {a : α} (hx : PassesFaults x)
    (h : FindsAsking asked (fun r => x r <|> y r) r a) :
    FindsAsking asked x r a ∨ FindsAsking asked y r a := by
  obtain ⟨s, s', h, hasked⟩ := h
  rcases Search.found_or_of_orElse h with ha | ⟨s₁, hmissed, ha⟩
  · exact Or.inl ⟨s, s', ha, fun q t hq => hasked q t hq.orElse_left⟩
  · exact Or.inr ⟨s₁, s', ha, fun q t hq => hasked q t (hq.orElse_right hx hmissed)⟩

theorem first {f : Resolver → α → Search β} {l : List α} {b : β} (hf : ∀ a, PassesFaults fun r => f r a)
    (h : FindsAsking asked (fun r => Search.first (f r) l) r b) :
    ∃ a ∈ l, FindsAsking asked (fun r => f r a) r b := by
  induction l with
  | nil => exact absurd h.finds (Search.not_finds_failure b)
  | cons a l ih =>
    rcases orElse (hf a) h with h | h
    · exact ⟨a, List.mem_cons_self, h⟩
    · obtain ⟨a', ha', h⟩ := ih h
      exact ⟨a', List.mem_cons_of_mem a ha', h⟩

end FindsAsking

end Phrasebook
