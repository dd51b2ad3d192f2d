import Phrasebook.Resolution
import Phrasebook.Standard
import Phrasebook.Proofs.Matching.Answers
import Phrasebook.Proofs.Matching.Boundary
import Phrasebook.Proofs.Regex.Anchored
import Phrasebook.Proofs.Regex.Matches
import Phrasebook.Proofs.Text.Case
import Phrasebook.Proofs.Text.Parentheses

/-!
What a match means. A pattern offers ways: an optional part is taken or left out, one branch of a
choice is taken. On a way stand literals, regular expressions and slots, and a match fills them one
after the other with segments of the text, with nothing but blanks in between. Greedy matching finds
only such matches, and adds to an attempt what the segments and the marks on the way contribute.
-/

namespace Phrasebook

theorem Findings.none_append (f : Findings) : Findings.none.append f = f := by
  simp [Findings.none, Findings.append]

theorem Attempt.merge_none (a : Attempt) : a.merge .none = a := by
  simp [Attempt.merge, Findings.append, Findings.none, Attempt.findings]

theorem Attempt.merge_merge (a : Attempt) (f g : Findings) :
    (a.merge f).merge g = a.merge (f.append g) := by
  simp [Attempt.merge, Attempt.findings, Findings.append, Int32.xor_assoc]

theorem Attempt.branch_merge_findings (a : Attempt) (f : Findings) :
    (a.branch.merge f).findings = f := by
  simp [Attempt.branch, Attempt.start, Attempt.merge, Attempt.findings, Findings.none_append]

section

variable [RegexEngine]

namespace Matching

/-- What a way through a pattern passes. -/
inductive Item where
  | literal (text : Text)
  | regex (part : RegexPart)
  | slot (types : List SlotType) (accepts : Acceptance)

mutual

/-- A way through a pattern: what it passes in order, and the marks on it joined. -/
inductive Way : Pattern → List Item → Int32 → Prop where
  | literal (t : Text) : Way (.literal t) [.literal t] 0
  | regex (g : RegexPart) : Way (.regex g) [.regex g] 0
  | slot (types : List SlotType) (accepts : Acceptance) (nullable : Bool) :
    Way (.slot types accepts nullable) [.slot types accepts] 0
  | sequence {ps : List Pattern} {items : List Item} {m : Int32} (h : WayAll ps items m) :
    Way (.sequence ps) items m
  | skipped (p : Pattern) : Way (.optional p) [] 0
  | taken {p : Pattern} {items : List Item} {m : Int32} (h : Way p items m) :
    Way (.optional p) items m
  | branch {bs : List (Int32 × Pattern)} {mark : Int32} {p : Pattern} {items : List Item}
    {m : Int32} (hb : (mark, p) ∈ bs) (h : Way p items m) : Way (.choice bs) items (m ^^^ mark)

inductive WayAll : List Pattern → List Item → Int32 → Prop where
  | nil : WayAll [] [] 0
  | cons {p : Pattern} {ps : List Pattern} {items others : List Item} {m n : Int32}
    (h : Way p items m) (hs : WayAll ps others n) : WayAll (p :: ps) (items ++ others) (m ^^^ n)

end

/-- The text that a slot hands on: its segment, or the inside of the parentheses around it, without
the blanks at the ends. -/
def Handed (segment text : Text) : Prop :=
  text ≠ [] ∧ (text = segment.trim ∨ ∃ inside, Text.unwrap? segment = some inside ∧ text = inside.trim)

section

variable (answers : Activation → Expression → Prop) (source : Text) (enclosing : List Frame)

/-- Segment `segment` at byte `k` fills what stands on the way and contributes expressions and
captures. What is handed to a slot is answered inside the attempts on the source and those around
them. -/
inductive Fills (k : Nat) (segment : Text) :
    Item → List Expression → List Captured → Prop where
  | literal {t : Text}
    (h : List.Forall₂ (fun c w => Text.lower c = Text.lower w) segment t.trim) :
    Fills k segment (.literal t) [] []
  | regex {g : RegexPart} {m : Regex.Match}
    (h : g.whole.find? segment = some m ∨
      g.search.findAfter? source k = some m ∧ m.start = k ∧ m.text = segment) :
    Fills k segment (.regex g) [] [m.toCaptured]
  | slot {types : List SlotType} {accepts : Acceptance} {type : SlotType} {text : Text}
    {frames : List Frame} {e : Expression} (htext : Handed segment text) (htype : type ∈ types)
    (hframes : ∀ f ∈ frames, f.source = source)
    (h : answers ⟨text, type, accepts, frames ++ enclosing⟩ e) :
    Fills k segment (.slot types accepts) [e] []

/-- A segment fills what stands on the way, and is all that is captured there. -/
structure FillsWhole (k : Nat) (segment : Text) (item : Item) (es : List Expression)
    (cs : List Captured) : Prop where
  fills : Fills answers source enclosing k segment item es cs
  captured : ∀ c ∈ cs, c.text = segment

end

section

variable (fills : Nat → Text → Item → List Expression → List Captured → Prop) (source : Text)

/-- From byte `i` to byte `j` stand segments for all that is on the way, in order and with blanks
around them. -/
inductive Covers : Nat → List Item → Nat → List Expression → List Captured → Prop where
  | done {i j : Nat} (h : source.BlankBetween i j) : Covers i [] j [] []
  | fill {i k l j : Nat} {segment : Text} {item : Item} {items : List Item}
    {es es' : List Expression} {cs cs' : List Captured} (hgap : source.BlankBetween i k)
    (hs : source.between? k l = some segment) (hf : fills k segment item es cs)
    (h : Covers l items j es' cs') : Covers i (item :: items) j (es ++ es') (cs ++ cs')

end

variable {answers : Activation → Expression → Prop} {source : Text} {enclosing : List Frame}

/-- What is answered inside an attempt on the same source is answered inside those around it. -/
theorem Fills.outer {f : Frame} (hf : f.source = source) {k : Nat} {segment : Text} {item : Item}
    {es : List Expression} {cs : List Captured}
    (h : Fills answers source (f :: enclosing) k segment item es cs) :
    Fills answers source enclosing k segment item es cs := by
  cases h with
  | literal h => exact .literal h
  | regex h => exact .regex h
  | @slot types accepts type text frames e htext htype hframes h =>
    have hframes' : ∀ g ∈ frames ++ [f], g.source = source := by
      intro g hg
      rcases List.mem_append.1 hg with hg | hg
      · exact hframes g hg
      · rw [List.mem_singleton.1 hg, hf]
    refine .slot htext htype hframes' ?_
    rw [List.append_assoc]
    exact h

theorem Fills.mono {answers' : Activation → Expression → Prop} (hmono : ∀ q e, answers q e → answers' q e)
    {k : Nat} {segment : Text} {item : Item} {es : List Expression} {cs : List Captured}
    (h : Fills answers source enclosing k segment item es cs) :
    Fills answers' source enclosing k segment item es cs := by
  cases h with
  | literal h => exact .literal h
  | regex h => exact .regex h
  | slot htext htype hframes h => exact .slot htext htype hframes (hmono _ _ h)

theorem Fills.whole [RegexEngine.Anchoring] {k : Nat} {segment : Text} {item : Item}
    {es : List Expression} {cs : List Captured}
    (h : Fills answers source enclosing k segment item es cs) :
    FillsWhole answers source enclosing k segment item es cs := by
  refine ⟨h, ?_⟩
  cases h with
  | literal _ => simp
  | @regex g m h =>
    have hm : m.text = segment := by
      rcases h with h | ⟨-, -, h⟩
      · exact RegexEngine.Anchoring.find?_anchored g.search_eq g.whole_eq h
      · exact h
    simpa using hm
  | slot _ _ _ _ => simp

namespace Covers

variable {fills fills' : Nat → Text → Item → List Expression → List Captured → Prop}
  {i j k : Nat} {items others : List Item} {es es' : List Expression} {cs cs' : List Captured}

theorem blank_left (hij : source.BlankBetween i j) (h : Covers fills source j items k es cs) :
    Covers fills source i items k es cs := by
  cases h with
  | done h => exact .done (hij.trans h)
  | fill hgap hs hf h => exact .fill (hij.trans hgap) hs hf h

theorem append (h₁ : Covers fills source i items j es cs) (h₂ : Covers fills source j others k es' cs') :
    Covers fills source i (items ++ others) k (es ++ es') (cs ++ cs') := by
  induction h₁ with
  | done h => exact h₂.blank_left h
  | fill hgap hs hf _ ih =>
    rw [List.append_assoc, List.append_assoc]
    exact .fill hgap hs hf (ih h₂)

theorem isPlace_right (h : Covers fills source i items j es cs) : source.IsPlace j := by
  induction h with
  | done h => exact h.isPlace_right
  | fill _ _ _ _ ih => exact ih

/-- One segment with blanks around it. -/
theorem single {l : Nat} {segment : Text} {item : Item} (hgap : source.BlankBetween i k)
    (hs : source.between? k l = some segment) (hf : fills k segment item es cs)
    (hend : source.BlankBetween l j) : Covers fills source i [item] j es cs := by
  have h := Covers.fill hgap hs hf (.done hend)
  rwa [List.append_nil, List.append_nil] at h

theorem mono (hmono : ∀ {k segment item es cs}, fills k segment item es cs → fills' k segment item es cs)
    (h : Covers fills source i items j es cs) : Covers fills' source i items j es cs := by
  induction h with
  | done h => exact .done h
  | fill hgap hs hf _ ih => exact .fill hgap hs (hmono hf) ih

end Covers

/-! ## Literals -/

theorem literalEnd_sound {t : Text} {i j : Nat} (hi : source.IsPlace i)
    (h : (literalEnd t source i).Finds j) :
    Covers (Fills answers source enclosing) source i [.literal t] j [] [] := by
  have hgap := Text.skipBlank_blank hi
  unfold literalEnd at h
  dsimp only at h
  split at h
  · rename_i hword
    obtain rfl := h.pure
    refine .single hgap (Text.between?_self hgap.isPlace_right) (.literal ?_)
      (.refl hgap.isPlace_right)
    rw [hword]
    exact .nil
  · obtain ⟨stop, hstop, h⟩ := h.bind
    obtain ⟨rest, hrest, h⟩ := h.bind
    obtain rfl := h.pure
    obtain ⟨u, hs, hagree⟩ := Text.occursAt?_between hstop.ofOption
    exact .single hgap hs (.literal hagree) (Text.blank_take_takeWhile hrest.cut _)

/-! ## Regular expressions -/

theorem regexEnd_sound [RegexEngine.Lawful] {g : RegexPart} {tail : Tail} {i j : Nat} {c : Captured}
    (hi : source.IsPlace i) (h : (regexEnd g tail source i).Finds (j, c)) :
    Covers (Fills answers source enclosing) source i [.regex g] j [] [c] := by
  have hgap := Text.skipBlank_blank hi
  unfold regexEnd at h
  dsimp only at h
  rcases h.orElse with h | h
  · obtain ⟨b, -, h⟩ := h.first
    obtain ⟨stop, hstop, h⟩ := h.bind
    obtain ⟨region, hregion, h⟩ := h.bind
    obtain ⟨m, hm, h⟩ := h.bind
    cases h.pure
    obtain ⟨rest, hrest, -⟩ := Text.after?_of_between? hregion.cut
    obtain ⟨blanks, hblanks, -⟩ := Text.trimEnd_append region
    have hs : source.between? (source.skipBlank i)
        (source.skipBlank i + region.trimEnd.width) = some region.trimEnd := by
      rw [hblanks, List.append_assoc] at hrest
      exact Text.between?_of_after? hrest
    exact .single hgap hs (.regex (Or.inl hm.ofOption)) (.refl (Text.isPlace_right hs))
  · obtain ⟨m, hm, h⟩ := h.bind
    have hm := hm.ofOption
    split at h
    · rename_i hstart
      cases h.pure
      have hs := (RegexEngine.Lawful.findAfter?_between hm).1
      rw [hstart] at hs
      exact .single hgap hs (.regex (Or.inr ⟨hm, hstart, rfl⟩)) (.refl (Text.isPlace_right hs))
    · exact absurd h (Search.not_finds_failure _)

/-! ## Slots -/

variable {asked : Activation → Session → Prop} {resolve : Resolver}

omit [RegexEngine] in
theorem resolveSlot_sound {types : List SlotType} {accepts : Acceptance} {chain : List Frame}
    {candidate : Text} {e : Expression}
    (h : FindsAsking asked (fun r => resolveSlot r types accepts chain candidate) resolve e) :
    candidate.trim ≠ [] ∧
      ∃ type ∈ types, resolve.Answers asked ⟨candidate.trim, type, accepts, chain⟩ e := by
  unfold resolveSlot at h
  dsimp only at h
  split at h
  · exact absurd h.finds (Search.not_finds_failure _)
  · rename_i hne
    obtain ⟨type, htype, h⟩ := h.first fun type => .answer ⟨candidate.trim, type, accepts, chain⟩
    exact ⟨hne, type, htype, FindsAsking.answer (q := ⟨candidate.trim, type, accepts, chain⟩) h⟩

theorem slotEnd_sound {types : List SlotType} {accepts : Acceptance} {tail : Tail} {a : Attempt}
    {i j : Nat} {e : Expression} [RegexEngine.Lawful] (hi : a.source.IsPlace i)
    (h : FindsAsking asked (fun r => slotEnd r types accepts tail a i) resolve (j, e)) :
    Covers (Fills (resolve.Answers asked) a.source a.enclosing) a.source i [.slot types accepts] j
      [e] [] := by
  have hgap := Text.skipBlank_blank hi
  have hframe : ∀ f ∈ [a.frame], f.source = a.source := by
    intro f hf
    rw [List.mem_singleton.1 hf]
    rfl
  have hupTo := upTo_passesFaults types accepts a (a.source.skipBlank i)
  rcases h.orElse (.first hupTo tail.boundaries) with h | h
  · obtain ⟨b, -, h⟩ := h.first hupTo
    obtain ⟨stop, hstop, h⟩ := h.bind (.const _)
    obtain ⟨candidate, hcandidate, h⟩ := h.bind (.const _)
    obtain ⟨e', he, h⟩ := h.bind (resolveSlot_passesFaults types accepts a.chain candidate)
    cases h.finds.pure
    obtain ⟨hne, type, htype, he⟩ := resolveSlot_sound he
    have hs := hcandidate.finds.cut
    exact .single hgap hs (.slot ⟨hne, Or.inl rfl⟩ htype hframe he) (.refl (Text.isPlace_right hs))
  · obtain ⟨rest, hrest, h⟩ := h.bind (.const _)
    split at h
    · rename_i hopen
      obtain ⟨close, hclose, h⟩ := h.bind (.const _)
      obtain ⟨inside, hinside, h⟩ := h.bind (.const _)
      obtain ⟨e', he, h⟩ := h.bind (resolveSlot_passesFaults types accepts a.chain inside)
      cases h.finds.pure
      obtain ⟨hne, type, htype, he⟩ := resolveSlot_sound he
      obtain ⟨inside', hin, hs, hunwrap⟩ :=
        Text.closing?_eq_some hrest.finds.cut hopen hclose.finds.ofOption
      cases hin.symm.trans hinside.finds.cut
      exact .single hgap hs (.slot ⟨hne, Or.inr ⟨inside, hunwrap, rfl⟩⟩ htype hframe he)
        (.refl (Text.isPlace_right hs))
    · exact absurd h.finds (Search.not_finds_failure _)

/-! ## Patterns -/

/-- A match from byte `i` to byte `j`, by which an attempt comes from another. -/
def Sound (answers : Activation → Expression → Prop) (way : List Item → Int32 → Prop) (i : Nat)
    (a : Attempt) (j : Nat) (a' : Attempt) : Prop :=
  ∃ items es cs m, way items m ∧
    Covers (Fills answers a.source a.enclosing) a.source i items j es cs ∧ a' = a.merge ⟨es, cs, m⟩

/-- What a branch finds is found in the attempt on the same source that merges it. -/
theorem Sound.of_branch {way : List Item → Int32 → Prop} {i j : Nat} {a b : Attempt}
    (h : Sound answers way i a.branch j b) :
    ∃ items es cs m, way items m ∧
      Covers (Fills answers a.source a.enclosing) a.source i items j es cs ∧
      b.findings = ⟨es, cs, m⟩ := by
  obtain ⟨items, es, cs, m, hway, hcovers, rfl⟩ := h
  exact ⟨items, es, cs, m, hway, hcovers.mono (Fills.outer rfl), a.branch_merge_findings _⟩

mutual

theorem node_asking_sound [RegexEngine.Lawful] : ∀ (p : Pattern) (tail : Tail) (i : Nat) (a : Attempt)
    (j : Nat) (a' : Attempt), a.source.IsPlace i →
      FindsAsking asked (fun r => node r p tail i a) resolve (j, a') →
      Sound (resolve.Answers asked) (Way p) i a j a'
  | .literal t, tail, i, a, j, a', hi, h => by
    obtain ⟨stop, hstop, h⟩ := h.bind (.const _)
    cases h.finds.pure
    exact ⟨_, _, _, _, .literal t, literalEnd_sound hi hstop.finds, a.merge_none.symm⟩
  | .sequence ps, tail, i, a, j, a', hi, h => by
    obtain ⟨items, es, cs, m, hway, hcovers, rfl⟩ := parts_sound ps tail i a j a' hi h
    exact ⟨items, es, cs, m, .sequence hway, hcovers, rfl⟩
  | .optional p, tail, i, a, j, a', hi, h => by
    have hnode := node_passesFaults p tail i a.branch
    have htaken : PassesFaults fun r => (node r p tail i a.branch >>= fun (stop, b) =>
        pure (stop, a.merge b.findings) : Search (Nat × Attempt)) := hnode.bind fun _ => .const _
    rcases FindsAsking.orElse htaken h with h | h
    · obtain ⟨⟨stop, b⟩, hb, h⟩ := h.bind hnode
      cases h.finds.pure
      obtain ⟨items, es, cs, m, hway, hcovers, hfindings⟩ :=
        (node_asking_sound p tail i a.branch j b hi hb).of_branch
      exact ⟨items, es, cs, m, .taken hway, hcovers, by rw [hfindings]⟩
    · cases h.finds.pure
      exact ⟨_, _, _, _, .skipped p, .done (.refl hi), a.merge_none.symm⟩
  | .choice bs, tail, i, a, j, a', hi, h => by
    obtain ⟨mark, p, hp, items, es, cs, m, hway, hcovers, rfl⟩ := branches_sound bs tail i a j a' hi h
    exact ⟨items, es, cs, m ^^^ mark, .branch hp hway, hcovers, rfl⟩
  | .regex g, tail, i, a, j, a', hi, h => by
    obtain ⟨⟨stop, c⟩, hc, h⟩ := h.bind (.const _)
    cases h.finds.pure
    exact ⟨_, _, _, _, .regex g, regexEnd_sound hi hc.finds, rfl⟩
  | .slot types accepts nullable, tail, i, a, j, a', hi, h => by
    obtain ⟨⟨stop, e⟩, he, h⟩ := h.bind (slotEnd_passesFaults types accepts tail a i)
    cases h.finds.pure
    exact ⟨_, _, _, _, .slot types accepts nullable, slotEnd_sound hi he, rfl⟩

theorem parts_sound [RegexEngine.Lawful] : ∀ (ps : List Pattern) (tail : Tail) (i : Nat) (a : Attempt)
    (j : Nat) (a' : Attempt), a.source.IsPlace i →
      FindsAsking asked (fun r => parts r ps tail i a) resolve (j, a') →
      Sound (resolve.Answers asked) (WayAll ps) i a j a'
  | [], tail, i, a, j, a', hi, h => by
    cases Search.Finds.pure h.finds
    exact ⟨_, _, _, _, .nil, .done (.refl hi), a.merge_none.symm⟩
  | p :: ps, tail, i, a, j, a', hi, h => by
    obtain ⟨⟨k, b⟩, hb, h⟩ := h.bind (node_passesFaults p (ps :: tail) i a)
    obtain ⟨items, es, cs, m, hway, hcovers, rfl⟩ := node_asking_sound p (ps :: tail) i a k b hi hb
    obtain ⟨others, es', cs', n, hways, hcovers', rfl⟩ :=
      parts_sound ps tail k (a.merge ⟨es, cs, m⟩) j a' hcovers.isPlace_right h
    exact ⟨_, _, _, _, .cons hway hways, hcovers.append hcovers', a.merge_merge _ _⟩

theorem branches_sound [RegexEngine.Lawful] : ∀ (bs : List (Int32 × Pattern)) (tail : Tail) (i : Nat)
    (a : Attempt) (j : Nat) (a' : Attempt), a.source.IsPlace i →
      FindsAsking asked (fun r => branches r bs tail i a) resolve (j, a') →
      ∃ mark p, (mark, p) ∈ bs ∧ ∃ items es cs m, Way p items m ∧
        Covers (Fills (resolve.Answers asked) a.source a.enclosing) a.source i items j es cs ∧
        a' = a.merge ⟨es, cs, m ^^^ mark⟩
  | [], tail, i, a, j, a', hi, h => absurd h.finds (Search.not_finds_failure _)
  | (mark, p) :: bs, tail, i, a, j, a', hi, h => by
    have hnode := node_passesFaults p tail i a.branch
    have hbranch : PassesFaults fun r => (node r p tail i a.branch >>= fun (stop, b) =>
        pure (stop, (a.merge b.findings).addMark mark) : Search (Nat × Attempt)) :=
      hnode.bind fun _ => .const _
    rcases FindsAsking.orElse hbranch h with h | h
    · obtain ⟨⟨stop, b⟩, hb, h⟩ := h.bind hnode
      cases h.finds.pure
      obtain ⟨items, es, cs, m, hway, hcovers, hfindings⟩ :=
        (node_asking_sound p tail i a.branch j b hi hb).of_branch
      refine ⟨mark, p, List.mem_cons_self, items, es, cs, m, hway, hcovers, ?_⟩
      rw [hfindings, Attempt.addMark, Attempt.merge_merge]
      simp [Findings.append]
    · obtain ⟨mark', p', hp, hrest⟩ := branches_sound bs tail i a j a' hi h
      exact ⟨mark', p', List.mem_cons_of_mem _ hp, hrest⟩

end

/-- The same of a match in whatever session, with what the resolver may answer in some session. -/
theorem node_finds_sound [RegexEngine.Lawful] (resolve : Resolver) (p : Pattern) (tail : Tail) (i : Nat)
    (a : Attempt) (j : Nat) (a' : Attempt) (hi : a.source.IsPlace i)
    (h : (node resolve p tail i a).Finds (j, a')) :
    Sound (fun q e => (resolve.answer q).Finds e) (Way p) i a j a' := by
  obtain ⟨items, es, cs, m, hway, hcovers, ha'⟩ :=
    node_asking_sound p tail i a j a' hi (.of_finds h)
  exact ⟨items, es, cs, m, hway, hcovers.mono (Fills.mono fun _ _ h => h.finds), ha'⟩

/-- Whatever greedy matching finds is a match: a way through the pattern whose segments cover the
text up to the end, blanks apart. The expressions in the slots are answers that the resolver gave in this
run, what is captured are the segments, and the attempt has gained exactly these and the marks on the way. -/
theorem node_sound [RegexEngine.Lawful] [RegexEngine.Anchoring] (resolve : Resolver) (p : Pattern)
    (tail : Tail) (i : Nat) (a : Attempt) (s s' : Session) (j : Nat) (a' : Attempt) (hi : a.source.IsPlace i)
    (h : node resolve p tail i a s = (.found (j, a'), s')) :
    ∃ items es cs m, Way p items m ∧
      Covers
        (FillsWhole (resolve.Answers (AsksIn (fun r => node r p tail i a) resolve s)) a.source a.enclosing)
        a.source i items j es cs ∧
      a'.findings = ⟨a.findings.expressions ++ es, a.findings.captures ++ cs, a.findings.mark ^^^ m⟩ ∧
      a'.source = a.source ∧ a'.enclosing = a.enclosing := by
  obtain ⟨items, es, cs, m, hway, hcovers, rfl⟩ :=
    node_asking_sound p tail i a j a' hi ⟨s, s', h, fun _ _ hq => hq⟩
  exact ⟨items, es, cs, m, hway, hcovers.mono Fills.whole, rfl, rfl, rfl⟩

end Matching

end

namespace Matching

def theNumber : Pattern :=
  .sequence [.optional (.literal "the ".toList),
    .choice [(1, .literal "sum".toList), (2, .literal "Number".toList)],
    .slot [⟨⟨1⟩, "number", true⟩] .both false, .literal " squared".toList]

/-- The standard book matches it with a number in parentheses, and joins the mark of the second branch. -/
theorem node_sound_theNumber :
    ∃ a' items e,
      (node ((Standard.book {}).resolver 22) theNumber [] 0
        (.start "number (1) squared".toList []) (Standard.book {}).fresh).1 = .found (18, a') ∧
      Way theNumber items 2 ∧
      Covers
        (FillsWhole
          (((Standard.book {}).resolver 22).Answers
            (AsksIn (fun r => node r theNumber [] 0 (.start "number (1) squared".toList []))
              ((Standard.book {}).resolver 22) (Standard.book {}).fresh))
          "number (1) squared".toList [])
        "number (1) squared".toList 0 items 18 [e] [] ∧
      a'.findings = ⟨[e], [], 2⟩ := by
  have hend : (node ((Standard.book {}).resolver 22) theNumber [] 0
      (.start "number (1) squared".toList []) (Standard.book {}).fresh).1.toOption.map
        (fun (j, a) => (j, a.findings.expressions.length, a.findings.captures, a.findings.mark)) =
      some (18, 1, [], 2) := by
    decide +kernel
  obtain ⟨⟨j, a'⟩, s', h, hfound⟩ := Search.exists_found hend
  obtain ⟨hj, hone, hnone, hmark⟩ : j = 18 ∧ a'.findings.expressions.length = 1 ∧
      a'.findings.captures = [] ∧ a'.findings.mark = 2 := by simpa using hfound
  subst hj
  obtain ⟨items, es, cs, m, hway, hcovers, hfindings, -, -⟩ :=
    node_sound ((Standard.book {}).resolver 22) theNumber [] 0 _ _ s' 18 a' (Text.isPlace_zero _) h
  have hes : es.length = 1 := by
    rw [hfindings] at hone
    exact hone
  have hcs : cs = [] := by
    rw [hfindings] at hnone
    exact hnone
  have hm : m = 2 := by
    rw [hfindings] at hmark
    simpa [Attempt.findings, Attempt.start, Findings.none] using hmark
  obtain ⟨e, rfl⟩ := List.length_eq_one_iff.1 hes
  subst hcs hm
  have hall : a'.findings = ⟨[e], [], 2⟩ :=
    hfindings.trans (by simp [Attempt.findings, Attempt.start, Findings.none])
  exact ⟨a', items, e, by rw [h], hway, hcovers, hall⟩

end Matching

end Phrasebook
