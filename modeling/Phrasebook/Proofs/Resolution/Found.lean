import Phrasebook.Proofs.Matching.Sound
import Phrasebook.Proofs.Text.Listing
import Phrasebook.Resolution

/-!
How expressions come about. What a resolver finds for a text is a literal, a list of what it finds for
the parts, or what a phrase makes of an occurrence, as an expression of the expected class; and all that
a phrase is given has been found in turn. So what each of these ways keeps holds of everything found.
-/

namespace Phrasebook

/-- The session in which a pattern is matched: the try has been counted and told. -/
def Session.trying (s : Session) (shelf : Shelf) (id : Nat) (phrase : String) (index depth : Nat) :
    Session :=
  let s := s.modifyUsage (·.tried id) shelf
  { s with journal := .tryingPattern phrase index depth :: s.journal }

variable [RegexEngine]

/-- All that the resolver finds for a slot has the property. -/
def Resolver.OnlyFinds (P : SlotType → Acceptance → Expression → Prop) (r : Resolver) : Prop :=
  ∀ text expected accepts enclosing e, (r text expected accepts enclosing).Finds e →
    P expected accepts e

/-- All expressions of a match are answers. -/
theorem Matching.Covers.answered {answers : Activation → Expression → Prop} {source : Text}
    {enclosing : List Frame} {i j : Nat} {items : List Item} {es : List Expression} {cs : List Captured}
    (h : Covers (Fills answers source enclosing) source i items j es cs) :
    ∀ e ∈ es, ∃ q, answers q e := by
  induction h with
  | done _ => exact fun e he => absurd he List.not_mem_nil
  | fill _ _ hf _ ih =>
    intro e he
    rcases List.mem_append.1 he with he | he
    · cases hf with
      | literal => cases he
      | regex => cases he
      | slot _ _ _ h =>
        rw [List.mem_singleton.1 he]
        exact ⟨_, h⟩
    · exact ih e he

namespace Book

open Search

variable {b : Book} {r : Resolver} {P : SlotType → Acceptance → Expression → Prop}

/-! ## What a phrase is made of -/

/-- Between two sessions `made` is made of a phrase on all of a text: the patterns in front of one miss,
this one matches up to the end, blanks apart, and the maker accepts the match. -/
inductive Makes {F T : Type} (r : Resolver) (shelf : Shelf) (id : Nat) (phrase : Phrase F)
    (make : F → Occurrence → Except Refusal T) (text : Text) (enclosing : List Frame) (s s' : Session) :
    T → Prop
  | intro {before after : List (Nat × Pattern)} {index : Nat} {pattern : Pattern} {t : Session}
      {stop : Nat} {a : Attempt} {rest : Text} {made : T}
      (hpatterns : phrase.patterns = before ++ (index, pattern) :: after)
      (hmissed : tryPhrase r shelf id { phrase with patterns := before } make text enclosing s =
        (.missed, t))
      (hmatch : Matching.node r pattern [] 0 (.start text enclosing)
        (t.trying shelf id phrase.name index enclosing.length) = (.found (stop, a), s'))
      (hrest : text.after? stop = some rest) (hblank : Text.trim rest = [])
      (hmake : make phrase.make (a.finish index) = .ok made) :
      Makes r shelf id phrase make text enclosing s s' made

section

variable {F T : Type} {shelf : Shelf} {id : Nat} {phrase : Phrase F}
  {make : F → Occurrence → Except Refusal T} {text : Text} {enclosing : List Frame} {s s' : Session}
  {made : T}

theorem makes_of_tryPhrase
    (h : tryPhrase r shelf id phrase make text enclosing s = (.found made, s')) :
    Makes r shelf id phrase make text enclosing s s' made := by
  obtain ⟨before, ⟨index, pattern⟩, after, t, hpatterns, hmissed, htried⟩ := exists_of_first h
  obtain ⟨⟨⟩, _, hchange, htold⟩ := exists_of_bind htried
  cases hchange
  obtain ⟨⟨⟩, _, htell, hmatched⟩ := exists_of_bind htold
  cases htell
  obtain ⟨⟨stop, a⟩, u, hmatch, hended⟩ := exists_of_bind hmatched
  obtain ⟨rest, _, hcut, hmade⟩ := exists_of_bind hended
  obtain ⟨hrest, rfl⟩ := cut_eq_found hcut
  dsimp only at hmade
  split at hmade
  · cases hmade
  · rename_i hblank
    cases hmake : make phrase.make (a.finish index) with
    | ok made' =>
      rw [hmake] at hmade
      cases hmade
      exact .intro hpatterns hmissed hmatch hrest (not_not.1 hblank) hmake
    | error e =>
      rw [hmake] at hmade
      cases hmade

/-- What is made is made of an occurrence, and all expressions of that have been found. -/
theorem Makes.given [RegexEngine.Lawful] (h : Makes r shelf id phrase make text enclosing s s' made) :
    ∃ o : Occurrence, make phrase.make o = .ok made ∧
      ∀ e ∈ o.findings.expressions, ∃ q, (r.answer q).Finds e := by
  obtain @⟨_, _, index, pattern, _, stop, a, _, _, -, -, hmatch, -, -, hmake⟩ := h
  obtain ⟨items, es, cs, m, -, hcovers, rfl⟩ :=
    Matching.node_finds_sound r pattern [] 0 (.start text enclosing) stop a (Text.isPlace_zero text)
      ⟨_, _, hmatch⟩
  exact ⟨_, hmake, hcovers.answered⟩

end

section

variable {text : Text} {expected : SlotType} {enclosing : List Frame} {id : Nat} {e : Expression}
  {s s' : Session}

/-- What a candidate finds has been made of its phrase, and the phrase is in front afterwards. -/
theorem exists_of_byCandidate (h : b.byCandidate r text expected enclosing id s = (.found e, s')) :
    ∃ p made t, b.expressions.phrases[id]? = some p ∧
      Makes r .expressions id p (fun make o => make o) text enclosing s t made ∧
      e = b.adapt made (b.classOf expected) ∧ (expected.single = true → e.single = true) ∧
      s' = { t with expressions := b.expressions.promote t.expressions id } := by
  obtain ⟨p, _, hphrase, htried⟩ := exists_of_bind h
  obtain ⟨hp, rfl⟩ := ofOption_eq_found hphrase
  obtain ⟨made, t, hmade, hended⟩ := exists_of_bind htried
  refine ⟨p, made, t, hp, makes_of_tryPhrase hmade, ?_⟩
  dsimp only at hended
  split at hended
  · cases hended
  · rename_i hsingle
    cases hended
    exact ⟨rfl, fun hexpected => by simpa [hexpected] using hsingle, rfl⟩

/-- The phrases in front of the one that is made something of have all missed. -/
theorem exists_of_byPhrase (h : b.byPhrase r text expected enclosing s = (.found e, s')) :
    ∃ before id after t,
      b.expressions.candidates s.expressions (b.compatible · (b.classOf expected)) =
        before ++ id :: after ∧
      Search.first (b.byCandidate r text expected enclosing) before s = (.missed, t) ∧
      b.byCandidate r text expected enclosing id t = (.found e, s') := by
  obtain ⟨_, _, hs, h⟩ := exists_of_bind h
  cases hs
  exact exists_of_first h

end

/-! ## What all ways keep -/

/-- The property is kept by all ways in which expressions come about. -/
structure Kept (b : Book) (P : SlotType → Acceptance → Expression → Prop) : Prop where
  literal {text : Text} {expected : SlotType} {accepts : Acceptance} {e : Expression}
    (haccepts : accepts ≠ .expressionsOnly) (h : b.literal? text (b.classOf expected) = some e) :
    P expected accepts e
  list {expected : SlotType} {accepts : Acceptance} {items : List Expression} {all : Bool}
    (hexpected : expected.single = false) (hitems : 2 ≤ items.length)
    (h : ∀ e ∈ items, P expected accepts e) :
    P expected accepts (.list items all (b.classOf expected))
  phrase {expected : SlotType} {accepts : Acceptance} {p : Phrase ExpressionMaker} {o : Occurrence}
    {made : Expression} (haccepts : accepts ≠ .literalsOnly) (hp : p ∈ b.expressions.phrases)
    (hmake : p.make o = .ok made)
    (hsingle : expected.single = true → (b.adapt made (b.classOf expected)).single = true)
    (h : ∀ e ∈ o.findings.expressions, ∃ type accepts, P type accepts e) :
    P expected accepts (b.adapt made (b.classOf expected))

namespace Kept

theorem byPhrase [RegexEngine.Lawful] (hP : b.Kept P) (hr : r.OnlyFinds P) {text : Text}
    {expected : SlotType} {accepts : Acceptance} {enclosing : List Frame} {e : Expression}
    (haccepts : accepts ≠ .literalsOnly) (h : (b.byPhrase r text expected enclosing).Finds e) :
    P expected accepts e := by
  obtain ⟨s, s', h⟩ := h
  obtain ⟨_, id, _, t, -, -, h⟩ := exists_of_byPhrase h
  obtain ⟨p, made, _, hp, hmakes, rfl, hsingle, -⟩ := exists_of_byCandidate h
  obtain ⟨o, hmake, hgiven⟩ := hmakes.given
  refine hP.phrase haccepts (List.mem_of_getElem? hp) hmake hsingle fun e he => ?_
  obtain ⟨q, hq⟩ := hgiven e he
  exact ⟨q.expected, q.accepts, hr q.text q.expected q.accepts q.enclosing e hq⟩

theorem asList (hP : b.Kept P) (hr : r.OnlyFinds P) {text : Text} {expected : SlotType}
    {accepts : Acceptance} {enclosing : List Frame} {e : Expression} (hexpected : expected.single = false)
    (h : (b.asList r text expected accepts enclosing).Finds e) : P expected accepts e := by
  unfold Book.asList at h
  obtain ⟨⟨parts, all⟩, hsplit, h⟩ := h.bind
  obtain ⟨items, hitems, h⟩ := h.bind
  have hlength : 2 ≤ items.length :=
    hitems.every.length_eq ▸ Text.splitList?_length hsplit.ofOption
  rw [h.pure]
  refine hP.list hexpected hlength fun e he => ?_
  obtain ⟨i, hi, rfl⟩ := List.mem_iff_getElem.1 he
  have hfinds := hitems.every.get (hitems.every.length_eq ▸ hi) hi
  exact hr _ expected accepts enclosing _ hfinds

theorem step [RegexEngine.Lawful] (hP : b.Kept P) (hr : r.OnlyFinds P) : (b.step r).OnlyFinds P := by
  intro text expected accepts enclosing e h
  unfold Book.step at h
  dsimp only at h
  split at h
  · exact absurd h (not_finds_failure _)
  · split at h
    · exact hr _ _ _ _ _ h
    · rcases h.orElse with h | h
      · split at h
        · exact absurd h (not_finds_failure _)
        · rename_i haccepts
          exact hP.literal haccepts h.ofOption
      rcases h.orElse with h | h
      · split at h
        · exact absurd h (not_finds_failure _)
        · rename_i hexpected
          exact hP.asList hr (Bool.eq_false_iff.2 hexpected) h
      · split at h
        · exact absurd h (not_finds_failure _)
        · rename_i haccepts
          simp only [Bool.or_eq_true, decide_eq_true_eq, not_or] at haccepts
          exact hP.byPhrase hr haccepts.1 h

/-- What all ways keep holds of everything that is found. -/
theorem resolver [RegexEngine.Lawful] (hP : b.Kept P) (n : Nat) : (b.resolver n).OnlyFinds P := by
  induction n with
  | zero =>
    rintro text expected accepts enclosing e ⟨s, s', h⟩
    cases h
  | succ n ih => exact hP.step ih

end Kept

/-! ## What is certain to be found -/

/-- A phrase is certain to be made something of if its first pattern matches the whole text and its
maker does not refuse the match. -/
theorem tryPhrase_yields {F T : Type} {Q : T → Prop} {shelf : Shelf} {id : Nat} {phrase : Phrase F}
    {make : F → Occurrence → Except Refusal T} {text : Text} {enclosing : List Frame} {index : Nat}
    {pattern : Pattern} {more : List (Nat × Pattern)}
    (hpatterns : phrase.patterns = (index, pattern) :: more)
    (h : Yields (fun x => x.1 = text.width ∧
        ∃ made, make phrase.make (x.2.finish index) = .ok made ∧ Q made)
      (Matching.node r pattern [] 0 (.start text enclosing))) :
    Yields Q (tryPhrase r shelf id phrase make text enclosing) := by
  unfold tryPhrase
  rw [hpatterns]
  refine Yields.orElse_left ?_ _
  refine (Yields.change _).bind fun _ _ => (Yields.change _).bind fun _ _ => ?_
  refine h.bind ?_
  rintro ⟨_, a⟩ ⟨rfl, made, hmake, hmade⟩
  have hrest : text.after? text.width = some [] := Text.after?_eq_some_iff.2 ⟨text, by simp, rfl⟩
  refine Yields.bind (.cut hrest rfl) ?_
  rintro _ rfl
  dsimp only at hmake ⊢
  rw [if_neg (by decide), hmake]
  exact .pure hmade

section

variable {b : Book} {Q : Expression → Prop} {text : Text} {expected : SlotType}
  (htrim : Text.trim text = text) (hne : text ≠ []) (hunwrap : Text.unwrap? text = none)

include htrim hne hunwrap

theorem step_yields_literal {e : Expression} (h : b.literal? text (b.classOf expected) = some e) (he : Q e)
    (enclosing : List Frame) : Yields Q (b.step r text expected .both enclosing) := by
  unfold Book.step
  dsimp only
  rw [htrim, if_neg hne, hunwrap]
  exact Yields.orElse_left (.ofOption h he) _

theorem step_yields_list {enclosing : List Frame}
    (hliteral : b.literal? text (b.classOf expected) = none) (hexpected : expected.single = false)
    (h : Yields Q (b.asList r text expected .both enclosing)) :
    Yields Q (b.step r text expected .both enclosing) := by
  unfold Book.step
  dsimp only
  rw [htrim, if_neg hne, hunwrap]
  refine (Misses.ofOption hliteral).orElse_yields ?_
  rw [if_neg (by simp [hexpected])]
  exact h.orElse_left _

end

end Book

end Phrasebook
