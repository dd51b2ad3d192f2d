import Phrasebook.Text.Case
import Phrasebook.Proofs.Text.Place
import Mathlib.Data.List.Forall2

/-!
What agrees with a word agrees character by character in the lower case, and stands where it is said
to occur.
-/

namespace Phrasebook.Text

theorem lower_eq_of_sameLetter {c d : Char} (h : sameLetter c d = true) : lower c = lower d := by
  unfold sameLetter at h
  rcases Bool.or_eq_true_iff.1 h with h | h
  · rw [eq_of_beq h]
  · exact eq_of_beq h

theorem agreeing?_eq_some {word t : Text} {n : Nat} (h : agreeing? word t = some n) :
    ∃ u v, t = u ++ v ∧ width u = n ∧ List.Forall₂ (fun c w => lower c = lower w) u word := by
  induction word generalizing t n with
  | nil =>
    cases h
    exact ⟨[], t, rfl, rfl, .nil⟩
  | cons w ws ih =>
    cases t with
    | nil => cases h
    | cons c t =>
      rw [agreeing?] at h
      split at h
      · rename_i hc
        obtain ⟨m, hm, rfl⟩ := Option.map_eq_some_iff.1 h
        obtain ⟨u, v, rfl, rfl, huv⟩ := ih hm
        exact ⟨c :: u, v, rfl, rfl, .cons (lower_eq_of_sameLetter hc) huv⟩
      · cases h

theorem agreeing?_append (word t : Text) : agreeing? word (word ++ t) = some word.width := by
  induction word with
  | nil => rfl
  | cons w ws ih =>
    have hw : sameLetter w w = true := by simp [sameLetter]
    rw [List.cons_append, agreeing?, if_pos hw, ih]
    rfl

theorem occursAt?_between {t word : Text} {i stop : Nat} (h : t.occursAt? i word = some stop) :
    ∃ u, t.between? i stop = some u ∧ List.Forall₂ (fun c w => lower c = lower w) u word := by
  obtain ⟨rest, hrest, h⟩ := Option.bind_eq_some_iff.1 h
  obtain ⟨n, hn, h⟩ := Option.bind_eq_some_iff.1 h
  cases h
  obtain ⟨u, v, rfl, rfl, huv⟩ := agreeing?_eq_some hn
  exact ⟨u, between?_of_after? hrest, huv⟩

end Phrasebook.Text
