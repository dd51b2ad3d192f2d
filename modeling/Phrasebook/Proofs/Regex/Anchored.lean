import Phrasebook.Proofs.Regex.Matches
import Phrasebook.Proofs.Regex.Reading
import Phrasebook.Regex.Threads
import Mathlib.Tactic.IntervalCases

/-!
An anchored expression matches a text from end to end or not at all. Building an expression adds
states that lead to each other and to the state after the expression, never anywhere else. So the
only way to acceptance in an anchored program passes both tests of the ends of the text.
-/

namespace Phrasebook.Regex

theorem State.successors_decision (greedy : Bool) (round exit j : Nat) :
    j ∈ (decision greedy round exit).successors ↔ j = round ∨ j = exit := by
  unfold decision
  split
  · simp [successors]
  · simp [successors, or_comm]

theorem State.decision_ne_accept (greedy : Bool) (round exit : Nat) :
    decision greedy round exit ≠ .accept := by
  unfold decision
  split <;> simp

/-- From the states `p` come the states `q` by adding states with the entry `k` in front of the
state `next`. -/
structure Grown (next : Nat) (p : States) (k : Nat) (q : States) : Prop where
  size : p.size ≤ q.size
  old : ∀ i, i < p.size → q[i]? = p[i]?
  new : ∀ i st, p.size ≤ i → q[i]? = some st →
    st ≠ .accept ∧ ∀ j ∈ st.successors, j = next ∨ p.size ≤ j
  entry : k = next ∨ p.size ≤ k

namespace Grown

variable {next k l : Nat} {p q r : States}

theorem refl (next : Nat) (p : States) : Grown next p next p where
  size := le_rfl
  old _ _ := rfl
  new i st hi hst := by
    rw [Array.getElem?_eq_none hi] at hst
    cases hst
  entry := Or.inl rfl

/-- States added in front of what was added before. -/
theorem trans (h₁ : Grown next p k q) (h₂ : Grown k q l r) : Grown next p l r where
  size := h₁.size.trans h₂.size
  old i hi := (h₂.old i (hi.trans_le h₁.size)).trans (h₁.old i hi)
  new i st hi hst := by
    by_cases hq : i < q.size
    · rw [h₂.old i hq] at hst
      exact h₁.new i st hi hst
    · obtain ⟨hacc, hsucc⟩ := h₂.new i st (by omega) hst
      refine ⟨hacc, fun j hj => ?_⟩
      rcases hsucc j hj with rfl | hj
      · exact h₁.entry
      · exact Or.inr (h₁.size.trans hj)
  entry := by
    rcases h₂.entry with rfl | hl
    · exact h₁.entry
    · exact Or.inr (h₁.size.trans hl)

/-- States added beside what was added before. -/
theorem beside (h₁ : Grown next p k q) (h₂ : Grown next q l r) : Grown next p l r where
  size := h₁.size.trans h₂.size
  old i hi := (h₂.old i (hi.trans_le h₁.size)).trans (h₁.old i hi)
  new i st hi hst := by
    by_cases hq : i < q.size
    · rw [h₂.old i hq] at hst
      exact h₁.new i st hi hst
    · obtain ⟨hacc, hsucc⟩ := h₂.new i st (by omega) hst
      exact ⟨hacc, fun j hj => (hsucc j hj).imp_right h₁.size.trans⟩
  entry := h₂.entry.imp_right h₁.size.trans

/-- One more state, which leads to `next` or to what was added before. -/
theorem addTo (h : Grown next p k q) {st : State} (hacc : st ≠ .accept)
    (hst : ∀ j ∈ st.successors, j = next ∨ p.size ≤ j) :
    Grown next p (st.addTo q).1 (st.addTo q).2 where
  size := by simp only [State.addTo, Array.size_push]; have := h.size; omega
  old i hi := by
    have := h.size
    rw [State.addTo, Array.getElem?_push, if_neg (by omega)]
    exact h.old i hi
  new i s hi hs := by
    rw [State.addTo, Array.getElem?_push] at hs
    split at hs
    · cases hs
      exact ⟨hacc, hst⟩
    · exact h.new i s hi hs
  entry := Or.inr h.size

theorem addTo_self (st : State) (next : Nat) (p : States) (hacc : st ≠ .accept)
    (hst : ∀ j ∈ st.successors, j = next) : Grown next p (st.addTo p).1 (st.addTo p).2 :=
  (refl next p).addTo hacc fun j hj => Or.inl (hst j hj)

theorem times {build : Nat → States → Nat × States}
    (hb : ∀ next p, Grown next p (build next p).1 (build next p).2) (n next : Nat) (p : States) :
    Grown next p (Regex.times build n next p).1 (Regex.times build n next p).2 := by
  induction n generalizing next p with
  | zero => exact refl next p
  | succ n ih => exact (hb next p).trans (ih _ _)

/-- Optional rounds, each with a decision to go on to `next` instead. -/
theorem options {build : Nat → States → Nat × States}
    (hb : ∀ k q, Grown k q (build k q).1 (build k q).2) (greedy : Bool) (n : Nat)
    (h : Grown next p k q) :
    Grown next p
      (Regex.times (fun k q => (State.decision greedy (build k q).1 next).addTo (build k q).2) n k q).1
      (Regex.times (fun k q => (State.decision greedy (build k q).1 next).addTo (build k q).2) n k q).2 := by
  induction n generalizing k q with
  | zero => exact h
  | succ n ih =>
    have hround := h.trans (hb k q)
    refine ih (hround.addTo (State.decision_ne_accept _ _ _) fun j hj => ?_)
    rcases (State.successors_decision _ _ _ _).1 hj with rfl | rfl
    · exact hround.entry
    · exact Or.inl rfl

/-- A repetition is built around the state after a round, which is known before the round is built
and filled in afterwards. -/
theorem loop {round : Nat} (next : Nat) (greedy : Bool) (h : Grown p.size (p.push .accept) round q) :
    Grown next p round (q.setIfInBounds p.size (.decision greedy round next)) where
  size := by
    have := h.size
    simp only [Array.size_push, Array.size_setIfInBounds] at this ⊢
    omega
  old i hi := by
    rw [Array.getElem?_setIfInBounds, if_neg (by omega), h.old i (by simp; omega),
      Array.getElem?_push, if_neg (by omega)]
  new i st hi hst := by
    have hround : round = next ∨ p.size ≤ round := by
      rcases h.entry with rfl | hr
      · exact Or.inr le_rfl
      · rw [Array.size_push] at hr
        exact Or.inr (by omega)
    rw [Array.getElem?_setIfInBounds] at hst
    split at hst
    · split at hst
      · cases hst
        refine ⟨State.decision_ne_accept _ _ _, fun j hj => ?_⟩
        rcases (State.successors_decision _ _ _ _).1 hj with rfl | rfl
        · exact hround
        · exact Or.inl rfl
      · cases hst
    · obtain ⟨hacc, hsucc⟩ := h.new i st (by rw [Array.size_push]; omega) hst
      refine ⟨hacc, fun j hj => ?_⟩
      rcases hsucc j hj with rfl | hj
      · exact Or.inr le_rfl
      · rw [Array.size_push] at hj
        exact Or.inr (by omega)
  entry := by
    rcases h.entry with rfl | hr
    · exact Or.inr le_rfl
    · rw [Array.size_push] at hr
      exact Or.inr (by omega)

end Grown

theorem Node.build_grown (n : Node) (next : Nat) (p : States) :
    Grown next p (n.build next p).1 (n.build next p).2 := by
  induction n generalizing next p with
  | empty => exact .refl next p
  | set s => exact .addTo_self _ next p (by simp) (by simp [State.successors])
  | look l => exact .addTo_self _ next p (by simp) (by simp [State.successors])
  | seq a b iha ihb => exact (ihb next p).trans (iha _ _)
  | alt a b iha ihb =>
    have ha := iha next p
    have hb := ihb next (a.build next p).2
    refine (ha.beside hb).addTo (by simp) fun j hj => ?_
    simp only [State.successors, List.mem_cons, List.not_mem_nil, or_false] at hj
    rcases hj with rfl | rfl
    · exact ha.entry
    · exact (ha.beside hb).entry
  | group i a ih =>
    have hleave := Grown.addTo_self (.leave i next) next p (by simp) (by simp [State.successors])
    have ha := hleave.trans (ih _ _)
    exact ha.addTo (by simp) fun j hj => by
      rw [List.mem_singleton.1 hj]
      exact ha.entry
  | rounds a min max greedy ih =>
    cases max with
    | none =>
      have hloop := Grown.loop next greedy (ih p.size (p.push .accept))
      cases min with
      | zero =>
        rw [Node.build]
        dsimp only [State.addTo]
        split
        · exact { hloop with entry := Or.inr le_rfl }
        · refine hloop.addTo (State.decision_ne_accept _ _ _) fun j hj => ?_
          rcases (State.successors_decision _ _ _ _).1 hj with rfl | rfl
          · exact hloop.entry
          · exact Or.inl rfl
      | succ min => exact hloop.trans (.times ih min _ _)
    | some max =>
      exact (Grown.options ih greedy (max - min) (.refl next p)).trans (.times ih min _ _)

/-! ## Sequences -/

theorem Node.build_ofParts_cons (n : Node) (ns : List Node) (next : Nat) (p : States) :
    (ofParts (n :: ns)).build next p =
      n.build ((ofParts ns).build next p).1 ((ofParts ns).build next p).2 := by
  cases ns <;> rfl

theorem Node.build_ofParts_append (ms ns : List Node) (next : Nat) (p : States) :
    (ofParts (ms ++ ns)).build next p =
      (ofParts ms).build ((ofParts ns).build next p).1 ((ofParts ns).build next p).2 := by
  induction ms with
  | nil => rfl
  | cons m ms ih => rw [List.cons_append, build_ofParts_cons, ih, build_ofParts_cons]

/-- A program that begins with a test of the start of the text, and reaches acceptance, its first
state, only through a test of the end. -/
structure Anchored (p : Program) : Prop where
  first : p.states[0]? = some .accept
  accept : ∀ i : Nat, p.states[i]? = some .accept → i = 0
  toEnd : ∀ (i : Nat) (st : State), p.states[i]? = some st → 0 ∈ st.successors → st = .look .textEnd 0
  start : ∃ j, p.states[p.start]? = some (.look .textStart j)

/-- The states of such a program: the two that were there first, those of the parts, and the test of the
start. -/
theorem Grown.states_of_push {k : Nat} {q : States}
    (hg : Grown 1 #[.accept, .look .textEnd 0] k q) (i : Nat) (st : State)
    (hst : (q.push (.look .textStart k))[i]? = some st) :
    (i = 0 ∧ st = .accept) ∨ (i = 1 ∧ st = .look .textEnd 0) ∨
      (st ≠ .accept ∧ 0 ∉ st.successors) := by
  rw [Array.getElem?_push] at hst
  split at hst
  · cases hst
    refine Or.inr (Or.inr ⟨by simp, fun h => ?_⟩)
    have hk := hg.entry
    rw [← List.mem_singleton.1 h] at hk
    simp at hk
  · by_cases hi : i < 2
    · rw [hg.old i hi] at hst
      interval_cases i
      · cases hst
        exact Or.inl ⟨rfl, rfl⟩
      · cases hst
        exact Or.inr (Or.inl ⟨rfl, rfl⟩)
    · obtain ⟨hacc, hsucc⟩ := hg.new i st (Nat.le_of_not_lt hi) hst
      refine Or.inr (Or.inr ⟨hacc, fun h => ?_⟩)
      have := hsucc 0 h
      simp at this

theorem anchored_ofNode (ns : List Node) :
    Anchored (.ofNode (.ofParts (.look .textStart :: (ns ++ [.look .textEnd])))) := by
  have hg := (Node.ofParts ns).build_grown 1 #[.accept, .look .textEnd 0]
  have hp : Program.ofNode (.ofParts (.look .textStart :: (ns ++ [.look .textEnd]))) =
      ⟨((Node.ofParts ns).build 1 #[.accept, .look .textEnd 0]).2.push
        (.look .textStart ((Node.ofParts ns).build 1 #[.accept, .look .textEnd 0]).1),
        ((Node.ofParts ns).build 1 #[.accept, .look .textEnd 0]).2.size⟩ := by
    unfold Program.ofNode
    rw [Node.build_ofParts_cons, Node.build_ofParts_append]
    rfl
  rw [hp]
  generalize ((Node.ofParts ns).build 1 #[.accept, .look .textEnd 0]).1 = k at hg ⊢
  generalize ((Node.ofParts ns).build 1 #[.accept, .look .textEnd 0]).2 = q at hg ⊢
  have hsize : 2 ≤ q.size := hg.size
  have hstates := hg.states_of_push
  refine ⟨?_, fun i hi => ?_, fun i st hst h0 => ?_, k, ?_⟩
  · rw [Array.getElem?_push, if_neg (by omega), hg.old 0 (by simp)]
    rfl
  · rcases hstates i _ hi with ⟨h, -⟩ | ⟨-, h⟩ | ⟨h, -⟩
    · exact h
    · cases h
    · exact absurd rfl h
  · rcases hstates i _ hst with ⟨-, rfl⟩ | ⟨-, h⟩ | ⟨-, h⟩
    · cases h0
    · exact h
    · exact absurd h0 h
  · rw [Array.getElem?_push, if_pos rfl]

/-! ## Runs -/

/-- A thread that has left the first state has begun at the start of the text, and one that has come
to acceptance is at the end. -/
theorem Anchored.kept {p : Program} (h : Anchored p) (c : Cursor) :
    Kept p c fun here t =>
      (t.state = p.start ∧ t.origin = here ∨ t.origin.before = []) ∧
        (t.state = 0 → here.after = []) where
  begin here _ := by
    obtain ⟨j, hj⟩ := h.start
    refine ⟨Or.inl ⟨rfl, rfl⟩, fun h0 => ?_⟩
    dsimp only at h0
    rw [h0, h.first] at hj
    cases hj
  onward {here t st ts t'} ht hst hon ht' := by
    obtain ⟨hsucc, horigin⟩ := onward?_mem hon ht'
    constructor
    · rw [horigin]
      rcases ht.1 with ⟨hstart, hhere⟩ | hbefore
      · obtain ⟨j, hj⟩ := h.start
        rw [hstart, hj] at hst
        cases hst
        cases hon
        split at ht'
        · rename_i hholds
          rw [hhere]
          exact Or.inr (List.isEmpty_iff.1 hholds)
        · cases ht'
      · exact Or.inr hbefore
    · intro h0
      rw [h0] at hsucc
      rw [h.toEnd _ st hst hsucc] at hon
      cases hon
      split at ht'
      · rename_i hholds
        exact List.isEmpty_iff.1 hholds
      · cases ht'
  read {before after x t s j} ht hst _ := by
    constructor
    · rcases ht.1 with ⟨hstart, -⟩ | hbefore
      · obtain ⟨k, hk⟩ := h.start
        rw [hstart, hk] at hst
        cases hst
      · exact Or.inr hbefore
    · rintro rfl
      have := h.toEnd _ _ hst (List.mem_singleton_self 0)
      cases this

theorem Anchored.text_of_findFrom? {r : Machine} (h : Anchored r.program) {t : Text} {m : Match}
    {stop : Cursor} (hm : r.findFrom? (.start t) = some (m, stop)) : m.text = t := by
  obtain ⟨⟨thread, d⟩, hs, heq⟩ := Option.map_eq_some_iff.1 hm
  obtain ⟨rfl, rfl⟩ := Prod.mk.inj heq
  obtain ⟨⟨hrooted, hend⟩, hacc⟩ := (h.kept (.start t)).search hs
  obtain ⟨hlead, hforward⟩ := ((kept_leads r.program (.start t)).search hs).1
  have hzero : thread.state = 0 := h.accept _ (by simpa [Program.accepts] using hacc)
  have hbefore : thread.origin.before = [] := by
    rcases hrooted with ⟨hstart, -⟩ | hbefore
    · obtain ⟨j, hj⟩ := h.start
      rw [← hstart, hzero, h.first] at hj
      cases hj
    · exact hbefore
  have hafter : thread.origin.after = t := by
    have := hlead.whole_eq
    rwa [Cursor.whole, hbefore, Cursor.whole_start] at this
  simp [Thread.result, Cursor.textTo, hend hzero, hafter]

instance threads_anchoring : RegexEngine.Anchoring where
  find?_anchored {source search whole} hs hw {t m} h := by
    have hbody := body_of_anchored (threads_compile_eq_ok_iff.1 hw) (threads_compile_eq_ok_iff.1 hs)
    obtain ⟨c, hc, h⟩ := Option.bind_eq_some_iff.1 h
    obtain ⟨⟨m', stop⟩, hf, h⟩ := Option.bind_eq_some_iff.1 h
    cases h
    obtain rfl : c = .start t := by
      cases t <;> exact (Option.some.inj hc).symm
    refine Anchored.text_of_findFrom? ?_ hf
    rw [Machine.program_eq, hbody]
    exact anchored_ofNode _

end Phrasebook.Regex
