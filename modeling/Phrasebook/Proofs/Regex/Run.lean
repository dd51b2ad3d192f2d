import Phrasebook.Regex.Search
import Mathlib.Data.List.TakeDrop

/-!
What a search keeps. A property of threads that a beginning thread has, and that every step of a
thread keeps, holds of the thread that a search returns. The steps are those without a character,
and the reading of one.
-/

namespace Phrasebook.Regex

namespace Cursor

/-- The place `d` is reached from `c` by going forward. -/
def Leads (c d : Cursor) : Prop := ∃ u, c.after = u ++ d.after ∧ d.before = u.reverse ++ c.before

theorem Leads.refl (c : Cursor) : Leads c c := ⟨[], rfl, rfl⟩

theorem Leads.trans {a b c : Cursor} (h₁ : Leads a b) (h₂ : Leads b c) : Leads a c := by
  obtain ⟨u, hu, hu'⟩ := h₁
  obtain ⟨v, hv, hv'⟩ := h₂
  exact ⟨u ++ v, by rw [hu, hv, List.append_assoc], by rw [hv', hu', List.reverse_append, List.append_assoc]⟩

theorem leads_next (before after : Text) (x : Char) :
    Leads ⟨before, x :: after⟩ ⟨x :: before, after⟩ := ⟨[x], rfl, rfl⟩

end Cursor

/-- The states that may follow. -/
def State.successors : State → List Nat
  | accept => []
  | read _ j => [j]
  | look _ j => [j]
  | enter _ j => [j]
  | leave _ j => [j]
  | fork j k => [j, k]

/-- A step without a character leads to a successor and keeps where the thread began. -/
theorem onward?_mem {t t' : Thread} {here : Cursor} {st : State} {ts : List Thread}
    (hon : t.onward? here st = some ts) (ht' : t' ∈ ts) :
    t'.state ∈ st.successors ∧ t'.origin = t.origin := by
  cases st with
  | accept => cases hon
  | read s j => cases hon
  | look l j =>
    cases hon
    split at ht'
    · rw [List.mem_singleton.1 ht']
      exact ⟨List.mem_singleton_self j, rfl⟩
    · cases ht'
  | enter g j =>
    cases hon
    rw [List.mem_singleton.1 ht']
    exact ⟨List.mem_singleton_self j, rfl⟩
  | leave g j =>
    cases hon
    rw [List.mem_singleton.1 ht']
    exact ⟨List.mem_singleton_self j, rfl⟩
  | fork j k =>
    cases hon
    rcases List.mem_cons.1 ht' with rfl | ht'
    · exact ⟨List.mem_cons_self, rfl⟩
    · rw [List.mem_singleton.1 ht']
      exact ⟨List.mem_cons_of_mem j (List.mem_singleton_self k), rfl⟩

/-- A property of threads at places that holds of a thread beginning anywhere from `c` on, and that
is kept by every step. -/
structure Kept (p : Program) (c : Cursor) (P : Cursor → Thread → Prop) : Prop where
  begin : ∀ here, c.Leads here → P here { state := p.start, origin := here }
  onward : ∀ {here t st ts t'}, P here t → p.states[t.state]? = some st →
    t.onward? here st = some ts → t' ∈ ts → P here t'
  read : ∀ {before after x t s next}, P ⟨before, x :: after⟩ t →
    p.states[t.state]? = some (.read s next) → s.mem x = true →
    P ⟨x :: before, after⟩ { t with state := next }

namespace Kept

variable {p : Program} {c : Cursor} {P : Cursor → Thread → Prop}

theorem settle (h : Kept p c P) {here : Cursor} {ahead fuel : Nat} {waiting threads : List Thread}
    {entered : Array Nat} (hw : ∀ t ∈ waiting, P here t) (ht : ∀ t ∈ threads, P here t) :
    ∀ t ∈ (p.settle here ahead fuel waiting threads entered).threads, P here t := by
  induction fuel generalizing waiting threads entered with
  | zero => exact ht
  | succ fuel ih =>
    cases waiting with
    | nil => exact ht
    | cons t waiting =>
      obtain ⟨hwt, hw⟩ := List.forall_mem_cons.1 hw
      rw [Program.settle]
      split
      · exact ih hw ht
      · split
        · exact ih hw ht
        · exact ih hw (List.forall_mem_cons.2 ⟨hwt, ht⟩)
        · rename_i ts hts
          obtain ⟨st, hst, hon⟩ := Option.map_eq_some_iff.1 hts
          refine ih (fun t' ht' => ?_) ht
          rcases List.mem_append.1 ht' with ht' | ht'
          · exact h.onward hwt hst hon ht'
          · exact hw t' ht'

theorem enter (h : Kept p c P) {here : Cursor} {ahead : Nat} {f : Front} {t : Thread}
    (hf : ∀ t ∈ f.threads, P here t) (ht : P here t) :
    ∀ t' ∈ (p.enter here ahead f t).threads, P here t' := by
  unfold Program.enter
  exact h.settle (List.forall_mem_singleton.2 ht) hf

theorem begin_mem (h : Kept p c P) {here : Cursor} (hc : c.Leads here) {ahead : Nat} {f : Front}
    (hf : ∀ t ∈ f.threads, P here t) : ∀ t ∈ (p.begin here ahead f).threads, P here t := by
  unfold Program.begin
  exact h.enter hf (h.begin here hc)

theorem advance (h : Kept p c P) {before after : Text} {x : Char} {ahead : Nat} {f : Front}
    {t : Thread} (hf : ∀ t ∈ f.threads, P ⟨x :: before, after⟩ t) (ht : P ⟨before, x :: after⟩ t) :
    ∀ t' ∈ (p.advance x ⟨x :: before, after⟩ ahead f t).threads, P ⟨x :: before, after⟩ t' := by
  unfold Program.advance
  split
  · rename_i s j hst
    by_cases hx : s.mem x = true
    · rw [if_pos hx]
      exact h.enter hf (h.read ht hst hx)
    · rw [if_neg hx]
      exact hf
  · exact hf

theorem advanceAll (h : Kept p c P) {before after : Text} {x : Char} {ahead : Nat} {f : Front}
    {threads : List Thread} (hf : ∀ t ∈ f.threads, P ⟨x :: before, after⟩ t)
    (ht : ∀ t ∈ threads, P ⟨before, x :: after⟩ t) :
    ∀ t ∈ (threads.foldl (p.advance x ⟨x :: before, after⟩ ahead) f).threads,
      P ⟨x :: before, after⟩ t := by
  induction threads generalizing f with
  | nil => exact hf
  | cons t threads ih =>
    obtain ⟨ht, hts⟩ := List.forall_mem_cons.1 ht
    exact ih (h.advance hf ht) hts

/-- The first thread at a place that accepts is what has been found there, and what was found before
stays if there is none. -/
theorem found_here {here : Cursor} {threads : List Thread} {found : Option (Thread × Cursor)}
    (ht : ∀ t ∈ threads, P here t)
    (hfound : ∀ t d, found = some (t, d) → P d t ∧ p.accepts t = true) (t : Thread) (d : Cursor)
    (h : (match (threads.reverse.span (!p.accepts ·)).2 with
      | [] => found
      | t :: _ => some (t, here)) = some (t, d)) : P d t ∧ p.accepts t = true := by
  rw [List.span_eq_takeWhile_dropWhile] at h
  dsimp only at h
  split at h
  · exact hfound t d h
  · rename_i t' ts hdrop
    cases h
    have hmem : t ∈ threads.reverse := by
      refine (List.dropWhile_suffix (!p.accepts ·)).subset ?_
      rw [hdrop]
      exact List.mem_cons_self
    have hacc := List.head_dropWhile_not (!p.accepts ·) (by rw [hdrop]; simp)
    simp only [hdrop, List.head_cons, Bool.not_eq_false'] at hacc
    exact ⟨ht t (List.mem_reverse.1 hmem), hacc⟩

theorem run (h : Kept p c P) {before after : Text} (hc : c.Leads ⟨before, after⟩) {ahead : Nat}
    {f : Front} (hf : ∀ t ∈ f.threads, P ⟨before, after⟩ t) {found : Option (Thread × Cursor)}
    (hfound : ∀ t d, found = some (t, d) → P d t ∧ p.accepts t = true) {t : Thread} {d : Cursor}
    (hrun : p.run before after ahead f found = some (t, d)) : P d t ∧ p.accepts t = true := by
  induction after generalizing before ahead f found with
  | nil =>
    rw [Program.run] at hrun
    exact found_here hf hfound t d hrun
  | cons x after ih =>
    rw [Program.run] at hrun
    dsimp only at hrun
    have hnext : c.Leads ⟨x :: before, after⟩ := hc.trans (Cursor.leads_next before after x)
    have hread : ∀ t ∈ ((f.threads.reverse.span (!p.accepts ·)).1.foldl
        (p.advance x ⟨x :: before, after⟩ (ahead - 1)) ⟨[], f.entered⟩).threads,
        P ⟨x :: before, after⟩ t := by
      refine h.advanceAll (by simp) fun t ht => hf t ?_
      rw [List.span_eq_takeWhile_dropWhile] at ht
      exact List.mem_reverse.1 ((List.takeWhile_prefix _).subset ht)
    obtain ⟨now, hnow, hrun⟩ : ∃ now : Option (Thread × Cursor),
        (∀ t d, now = some (t, d) → P d t ∧ p.accepts t = true) ∧
        (if (f.threads.reverse.span (!p.accepts ·)).1.isEmpty && now.isSome then now
          else p.run (x :: before) after (ahead - 1)
            (if now.isSome then _ else p.begin ⟨x :: before, after⟩ (ahead - 1) _) now) =
          some (t, d) := ⟨_, found_here hf hfound, hrun⟩
    split at hrun
    · exact hnow t d hrun
    · refine ih hnext ?_ hnow hrun
      split
      · exact hread
      · exact h.begin_mem hnext hread

/-- What is kept holds of the thread that a search returns, and that thread accepts. -/
theorem search (h : Kept p c P) {t : Thread} {d : Cursor} (hs : p.search c = some (t, d)) :
    P d t ∧ p.accepts t = true := by
  unfold Program.search at hs
  exact h.run (Cursor.Leads.refl c) (h.begin_mem (Cursor.Leads.refl c) (by simp)) (by simp) hs

end Kept

end Phrasebook.Regex
