import Phrasebook.Proofs.Regex.Run
import Phrasebook.Proofs.Text.Place
import Phrasebook.Regex.Threads

/-!
A match stands in the text where it says it does: what stands between its start and its stop is its
text.
-/

namespace Phrasebook.Regex

namespace Cursor

/-- The text that the place is in. -/
def whole (c : Cursor) : Text := c.before.reverse ++ c.after

@[simp] theorem whole_start (t : Text) : (start t).whole = t := rfl

theorem whole_of_at? {t : Text} {i : Nat} {c : Cursor} (h : at? t i = some c) :
    c.whole = t ∧ c.offset = i := by
  obtain ⟨⟨a, b⟩, hcut, rfl⟩ := Option.map_eq_some_iff.1 h
  obtain ⟨rfl, rfl⟩ := Text.append_of_cut? hcut
  exact ⟨by simp [whole], Text.width_reverse a⟩

theorem Leads.whole_eq {c d : Cursor} (h : Leads c d) : d.whole = c.whole := by
  obtain ⟨u, hafter, hbefore⟩ := h
  simp [whole, hafter, hbefore]

theorem Leads.offset_le {c d : Cursor} (h : Leads c d) : c.offset ≤ d.offset := by
  obtain ⟨u, -, hbefore⟩ := h
  simp [offset, hbefore]

/-- From a place to a later one goes the text between them. -/
theorem Leads.between {c d : Cursor} (h : Leads c d) :
    c.whole.between? c.offset (c.offset + (c.textTo d).width) = some (c.textTo d) := by
  obtain ⟨u, hafter, -⟩ := h
  have htext : c.textTo d = u := by simp [textTo, hafter]
  rw [htext]
  refine Text.between?_eq_some_iff.2 ⟨c.before.reverse, d.after, ?_, Text.width_reverse _, rfl⟩
  rw [whole, hafter]

theorem whole_next? {c d : Cursor} (h : c.next? = some d) : d.whole = c.whole := by
  obtain ⟨before, after⟩ := c
  cases after with
  | nil => cases h
  | cons x after =>
    cases h
    exact (leads_next before after x).whole_eq

end Cursor

/-- A thread begins where the search has come to, and goes forward from there. -/
theorem kept_leads (p : Program) (c : Cursor) :
    Kept p c fun here t => c.Leads t.origin ∧ t.origin.Leads here where
  begin here hc := ⟨hc, .refl here⟩
  onward {here t st ts t'} ht _ hon hmem := by
    rw [(onward?_mem hon hmem).2]
    exact ht
  read {before after x t s j} ht _ _ := ⟨ht.1, ht.2.trans (Cursor.leads_next before after x)⟩

namespace Machine

theorem findFrom?_between {r : Machine} {c stop : Cursor} {m : Match}
    (h : r.findFrom? c = some (m, stop)) :
    c.whole.between? m.start m.stop = some m.text ∧ c.offset ≤ m.start ∧ stop.whole = c.whole := by
  obtain ⟨⟨t, d⟩, hs, heq⟩ := Option.map_eq_some_iff.1 h
  obtain ⟨rfl, rfl⟩ := Prod.mk.inj heq
  obtain ⟨hc, ht⟩ := ((kept_leads r.program c).search hs).1
  refine ⟨?_, hc.offset_le, (hc.trans ht).whole_eq⟩
  rw [← hc.whole_eq]
  exact ht.between

theorem findAllFrom_between {r : Machine} {t : Text} {m : Match} {fuel : Nat} {lastEnd : Option Nat}
    {c : Cursor} (hc : c.whole = t) (h : m ∈ r.findAllFrom fuel lastEnd c) :
    t.between? m.start m.stop = some m.text := by
  induction fuel generalizing lastEnd c with
  | zero => cases h
  | succ fuel ih =>
    rw [findAllFrom] at h
    split at h
    · cases h
    · rename_i m' stop hf
      obtain ⟨hbetween, -, hstop⟩ := findFrom?_between hf
      split at h
      · split at h
        · cases h
        · rename_i d hd
          exact ih ((Cursor.whole_next? hd).trans hc) h
      · rcases List.mem_cons.1 h with rfl | h
        · rw [← hc]
          exact hbetween
        · exact ih (hstop.trans hc) h

end Machine

instance threads_lawful : RegexEngine.Lawful where
  findAfter?_between {r t i m} h := by
    obtain ⟨c, hc, h⟩ := Option.bind_eq_some_iff.1 h
    obtain ⟨⟨m', stop⟩, hf, h⟩ := Option.bind_eq_some_iff.1 h
    cases h
    obtain ⟨rfl, rfl⟩ := Cursor.whole_of_at? hc
    obtain ⟨hbetween, hle, -⟩ := Machine.findFrom?_between hf
    exact ⟨hbetween, hle⟩
  findAll_between {_ t _} h := Machine.findAllFrom_between (Cursor.whole_start t) h

end Phrasebook.Regex
