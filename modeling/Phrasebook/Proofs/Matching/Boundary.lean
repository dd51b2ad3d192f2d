import Phrasebook.Matching.Boundary
import Phrasebook.Proofs.Text.Place

/-!
A boundary is a place at or after the one from which it is searched for, so what a slot may hold can
always be cut out of the text.
-/

namespace Phrasebook

namespace Text

theorem IsPlace.cons {t : Text} {n : Nat} (c : Char) (h : t.IsPlace n) :
    IsPlace (c :: t) (c.utf8Size + n) := by
  obtain ⟨a, b, rfl, rfl⟩ := h
  exact ⟨c :: a, b, rfl, rfl⟩

theorem spacedOccurrence?_isPlace {word t : Text} {before after : Bool} {previous : Option Char}
    {n : Nat} (h : spacedOccurrence? word before after previous t = some n) : t.IsPlace n := by
  induction t generalizing previous n with
  | nil => cases h
  | cons c t ih =>
    rw [spacedOccurrence?] at h
    split at h
    · cases h
      exact isPlace_zero _
    · obtain ⟨m, hm, rfl⟩ := Option.map_eq_some_iff.1 h
      exact (ih hm).cons c

theorem firstBlank?_isPlace {t : Text} {n : Nat} (h : firstBlank? t = some n) : t.IsPlace n := by
  induction t generalizing n with
  | nil => cases h
  | cons c t ih =>
    rw [firstBlank?] at h
    split at h
    · cases h
      exact isPlace_zero _
    · obtain ⟨m, hm, rfl⟩ := Option.map_eq_some_iff.1 h
      exact (ih hm).cons c

/-- A place in what follows a place is a later place. -/
theorem between?_of_isPlace {t rest : Text} {i n : Nat} (ht : t.after? i = some rest)
    (h : rest.IsPlace n) : ∃ u, t.between? i (i + n) = some u := by
  obtain ⟨u, b, rfl, rfl⟩ := h
  exact ⟨u, between?_of_after? ht⟩

end Text

theorem Boundary.place?_between [RegexEngine] [RegexEngine.Lawful] {b : Boundary} {t : Text}
    {start stop : Nat} (hs : t.IsPlace start) (h : b.place? t start = some stop) :
    ∃ u, t.between? start stop = some u := by
  cases b with
  | word w before after =>
    obtain ⟨⟨front, rest⟩, hcut, h⟩ := Option.bind_eq_some_iff.1 h
    obtain ⟨n, hn, h⟩ := Option.bind_eq_some_iff.1 h
    cases h
    have hrest : t.after? start = some rest := by rw [Text.after?, hcut]; rfl
    exact Text.between?_of_isPlace hrest (Text.spacedOccurrence?_isPlace hn)
  | regex g =>
    obtain ⟨rest, hrest, h⟩ := Option.bind_eq_some_iff.1 h
    obtain ⟨m, hm, h⟩ := Option.bind_eq_some_iff.1 h
    cases h
    have hplace := Text.isPlace_left (RegexEngine.Lawful.findAll_between (List.mem_of_find?_eq_some hm))
    exact Text.between?_of_isPlace hrest hplace
  | blank =>
    obtain ⟨rest, hrest, h⟩ := Option.bind_eq_some_iff.1 h
    obtain ⟨n, hn, h⟩ := Option.bind_eq_some_iff.1 h
    cases h
    exact Text.between?_of_isPlace hrest (Text.firstBlank?_isPlace hn)
  | textEnd =>
    cases h
    exact hs.between (Text.isPlace_width t) hs.le_width

end Phrasebook
