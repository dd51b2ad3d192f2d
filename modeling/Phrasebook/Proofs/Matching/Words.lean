import Phrasebook.Proofs.Matching.InStep
import Phrasebook.Proofs.Matching.Sound

/-!
Patterns that cannot match. Where every way through a pattern passes a word with a character that
agrees with none of a text, nothing is found in the text, however what stands in slots is resolved.
-/

namespace Phrasebook

variable [RegexEngine]

namespace Pattern

mutual

/-- Whether every way through the pattern passes a word with such a character. -/
def insistsOn (p : Char → Bool) : Pattern → Bool
  | literal t => (Text.trim t).any p
  | sequence ps => insistsOnOne p ps
  | optional _ => false
  | choice bs => insistsOnEach p bs
  | regex _ => false
  | slot _ _ _ => false

def insistsOnOne (p : Char → Bool) : List Pattern → Bool
  | [] => false
  | q :: qs => insistsOn p q || insistsOnOne p qs

def insistsOnEach (p : Char → Bool) : List (Int32 × Pattern) → Bool
  | [] => true
  | (_, q) :: bs => insistsOn p q && insistsOnEach p bs

end

theorem insistsOn_of_mem {p : Char → Bool} {bs : List (Int32 × Pattern)} {b : Int32 × Pattern}
    (hb : b ∈ bs) (h : insistsOnEach p bs = true) : insistsOn p b.2 = true := by
  induction bs with
  | nil => cases hb
  | cons c bs ih =>
    rw [insistsOnEach, Bool.and_eq_true] at h
    rcases List.mem_cons.1 hb with rfl | hb
    · exact h.1
    · exact ih hb h.2

end Pattern

namespace Matching

open Search

variable {p : Char → Bool}

mutual

theorem Way.exists_literal : ∀ {q : Pattern} {items : List Item} {m : Int32}, Way q items m →
    q.insistsOn p = true → ∃ t, Item.literal t ∈ items ∧ (Text.trim t).any p = true
  | _, _, _, .literal t, h => ⟨t, List.mem_singleton_self _, h⟩
  | _, _, _, .regex _, h => by cases h
  | _, _, _, .slot _ _ _, h => by cases h
  | _, _, _, .sequence hs, h => hs.exists_literal h
  | _, _, _, .skipped _, h => by cases h
  | _, _, _, .taken _, h => by cases h
  | _, _, _, .branch hb hway, h => hway.exists_literal (Pattern.insistsOn_of_mem hb h)

theorem WayAll.exists_literal : ∀ {qs : List Pattern} {items : List Item} {m : Int32},
    WayAll qs items m → Pattern.insistsOnOne p qs = true →
      ∃ t, Item.literal t ∈ items ∧ (Text.trim t).any p = true
  | _, _, _, .nil, h => by cases h
  | _, _, _, .cons hq hqs, h => by
    rw [Pattern.insistsOnOne, Bool.or_eq_true] at h
    rcases h with h | h
    · obtain ⟨t, ht, hp⟩ := hq.exists_literal h
      exact ⟨t, List.mem_append_left _ ht, hp⟩
    · obtain ⟨t, ht, hp⟩ := hqs.exists_literal h
      exact ⟨t, List.mem_append_right _ ht, hp⟩

end

/-- A word on the way stands in the text. -/
theorem Covers.exists_segment {answers : Activation → Expression → Prop} {source : Text}
    {enclosing : List Frame} {i j : Nat} {items : List Item} {es : List Expression} {cs : List Captured}
    (h : Covers (Fills answers source enclosing) source i items j es cs) {t : Text}
    (ht : Item.literal t ∈ items) :
    ∃ segment, segment <:+: source ∧
      List.Forall₂ (fun c w => Text.lower c = Text.lower w) segment t.trim := by
  induction h with
  | done _ => cases ht
  | fill _ hs hf _ ih =>
    rcases List.mem_cons.1 ht with rfl | ht
    · cases hf with
      | literal h => exact ⟨_, Text.infix_of_between? hs, h⟩
    · exact ih ht

def foreign (alphabet : Text) (w : Char) : Bool := alphabet.all fun c => Text.lower c ≠ Text.lower w

theorem node_misses [RegexEngine.Lawful] {resolve : Resolver} (hr : resolve.Faultless) {q : Pattern}
    {alphabet source : Text} (h : q.insistsOn (foreign alphabet) = true) (hsource : source ⊆ alphabet)
    (enclosing : List Frame) : Misses (node resolve q [] 0 (.start source enclosing)) := by
  refine .of_not_finds (node_faultless hr q [] 0 _) fun ⟨stop, a⟩ hfinds => ?_
  obtain ⟨items, es, cs, m, hway, hcovers, -⟩ :=
    node_finds_sound resolve q [] 0 (.start source enclosing) stop a (Text.isPlace_zero source) hfinds
  obtain ⟨t, ht, hp⟩ := hway.exists_literal h
  obtain ⟨segment, hsegment, hagree⟩ := hcovers.exists_segment ht
  obtain ⟨w, hw, hforeign⟩ := List.any_eq_true.1 hp
  obtain ⟨n, hn, rfl⟩ := List.mem_iff_getElem.1 hw
  have hn' : n < segment.length := hagree.length_eq ▸ hn
  have hmem : segment[n] ∈ alphabet := hsource (hsegment.subset (List.getElem_mem hn'))
  have := List.all_eq_true.1 hforeign _ hmem
  simp only [decide_eq_true_eq] at this
  exact this (hagree.get hn' hn)

end Matching

end Phrasebook
