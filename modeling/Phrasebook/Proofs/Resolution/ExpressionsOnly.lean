import Phrasebook.Proofs.Expression
import Phrasebook.Proofs.Resolution.Found
import Phrasebook.Proofs.Standard.Book

/-!
Texts of which only expressions are accepted. Nothing in such a text is read as a literal: all that is
found is put together, by lists and conversions, from what makers of phrases give for matches that come
about on the way. What a maker gives is taken as it is, though, so a literal can be found where a maker
gives one.
-/

namespace Phrasebook.Book

open Search

section

variable [RegexEngine]

mutual

/-- How a run with a bound on the nesting, from one session to another, puts an expression together where
only expressions are accepted: by what stands in parentheses, by the parts of a list, or by the first
candidate that something can be made of. The list is what the makers gave. -/
inductive PutTogether (b : Book) (expected : SlotType) (enclosing : List Frame) :
    Nat → Text → Session → List Expression → Expression → Session → Prop
  | inside {n : Nat} {text inside : Text} {s s' : Session} {made : List Expression} {e : Expression}
    (hunwrap : Text.unwrap? (Text.trim text) = some inside)
    (h : PutTogether b expected enclosing n inside s made e s') :
    PutTogether b expected enclosing (n + 1) text s made e s'
  | list {n : Nat} {text : Text} {parts : List Text} {all : Bool} {s s' : Session}
    {made items : List Expression} (hunwrap : Text.unwrap? (Text.trim text) = none)
    (hexpected : expected.single = false)
    (hsplit : Text.splitList? (Text.trim text) = some (parts, all))
    (h : EachPutTogether b expected enclosing n parts s made items s') :
    PutTogether b expected enclosing (n + 1) text s made (.list items all (b.classOf expected)) s'
  | phrase {n : Nat} {text : Text} {s t u v : Session} {before after : List Nat} {id : Nat}
    {p : Phrase ExpressionMaker} {made : Expression} (hunwrap : Text.unwrap? (Text.trim text) = none)
    (hidle : isUnderWay (Text.trim text) enclosing = false)
    (hlist : (if expected.single then failure
      else b.asList (b.resolver n) (Text.trim text) expected .expressionsOnly enclosing) s = (.missed, t))
    (hcandidates : b.expressions.candidates t.expressions (b.compatible · (b.classOf expected)) =
      before ++ id :: after)
    (hmissed : first (b.byCandidate (b.resolver n) (Text.trim text) expected enclosing) before t =
      (.missed, u))
    (hphrase : b.expressions.phrases[id]? = some p)
    (hmakes : Makes (b.resolver n) .expressions id p (fun make o => make o) (Text.trim text) enclosing u v
      made)
    (hsingle : expected.single = true → (b.adapt made (b.classOf expected)).single = true) :
    PutTogether b expected enclosing (n + 1) text s [made] (b.adapt made (b.classOf expected))
      { v with expressions := b.expressions.promote v.expressions id }

inductive EachPutTogether (b : Book) (expected : SlotType) (enclosing : List Frame) :
    Nat → List Text → Session → List Expression → List Expression → Session → Prop
  | nil {n : Nat} {s : Session} : EachPutTogether b expected enclosing n [] s [] [] s
  | cons {n : Nat} {text : Text} {texts : List Text} {s t u : Session} {made more es : List Expression}
    {e : Expression} (h : PutTogether b expected enclosing n text s made e t)
    (hs : EachPutTogether b expected enclosing n texts t more es u) :
    EachPutTogether b expected enclosing n (text :: texts) s (made ++ more) (e :: es) u

end

variable {b : Book} {expected : SlotType} {enclosing : List Frame}

theorem adapt_assembled (e : Expression) (target : ClassId) :
    Expression.Assembled b.conversions [e] [b.adapt e target] := by
  have he : Expression.Assembled b.conversions [e] [e] := .part e .nil
  unfold adapt
  split
  · exact he
  · exact .converted target he

mutual

theorem PutTogether.assembled : ∀ {n : Nat} {text : Text} {s s' : Session} {made : List Expression}
    {e : Expression}, PutTogether b expected enclosing n text s made e s' →
      Expression.Assembled b.conversions made [e]
  | _, _, _, _, _, _, .inside _ h => h.assembled
  | _, _, _, _, _, _, .list _ _ _ h => .list _ _ (by simpa using h.assembled)
  | _, _, _, _, _, _, .phrase .. => adapt_assembled _ _

theorem EachPutTogether.assembled : ∀ {n : Nat} {texts : List Text} {s s' : Session}
    {made es : List Expression}, EachPutTogether b expected enclosing n texts s made es s' →
      Expression.Assembled b.conversions made es
  | _, _, _, _, _, _, .nil => .nil
  | _, _, _, _, _, _, .cons h hs => h.assembled.append hs.assembled

end

mutual

/-- A list has parts, and nothing else comes about without a phrase. -/
theorem PutTogether.made_ne_nil : ∀ {n : Nat} {text : Text} {s s' : Session} {made : List Expression}
    {e : Expression}, PutTogether b expected enclosing n text s made e s' → made ≠ []
  | _, _, _, _, _, _, .inside _ h => h.made_ne_nil
  | _, _, _, _, _, _, .list _ _ hsplit h => by
    apply h.made_ne_nil
    rintro rfl
    exact absurd (Text.splitList?_length hsplit) (by decide)
  | _, _, _, _, _, _, .phrase .. => List.cons_ne_nil _ _

theorem EachPutTogether.made_ne_nil : ∀ {n : Nat} {texts : List Text} {s s' : Session}
    {made es : List Expression}, EachPutTogether b expected enclosing n texts s made es s' →
      texts ≠ [] → made ≠ []
  | _, _, _, _, _, _, .nil, hne => absurd rfl hne
  | _, _, _, _, _, _, .cons h _, _ => List.append_ne_nil_of_left_ne_nil h.made_ne_nil _

end

/-- If all that is found of single texts is put together so, then so is what is found of several. -/
theorem eachPutTogether_of_every {n : Nat}
    (hr : ∀ text s e s', b.resolver n text expected .expressionsOnly enclosing s = (.found e, s') →
      ∃ made, PutTogether b expected enclosing n text s made e s')
    {texts : List Text} {s s' : Session} {es : List Expression}
    (h : every (fun text => b.resolver n text expected .expressionsOnly enclosing) texts s =
      (.found es, s')) :
    ∃ made, EachPutTogether b expected enclosing n texts s made es s' := by
  induction texts generalizing s es with
  | nil =>
    cases h
    exact ⟨[], .nil⟩
  | cons text texts ih =>
    obtain ⟨e, t, hfirst, hrest⟩ := exists_of_bind h
    obtain ⟨es', u, hothers, hlast⟩ := exists_of_bind hrest
    cases hlast
    obtain ⟨made, hmade⟩ := hr text s e t hfirst
    obtain ⟨more, hmore⟩ := ih hothers
    exact ⟨made ++ more, .cons hmade hmore⟩

theorem putTogether_of_found {n : Nat} {text : Text} {s s' : Session} {e : Expression}
    (h : b.resolver n text expected .expressionsOnly enclosing s = (.found e, s')) :
    ∃ made, PutTogether b expected enclosing n text s made e s' := by
  induction n generalizing text s s' e with
  | zero => cases h
  | succ n ih =>
    change b.step (b.resolver n) text expected .expressionsOnly enclosing s = _ at h
    unfold step at h
    split at h
    · cases h
    · cases hunwrap : Text.unwrap? (Text.trim text) with
      | some inside =>
        rw [hunwrap] at h
        obtain ⟨made, hmade⟩ := ih h
        exact ⟨made, .inside hunwrap hmade⟩
      | none =>
        rw [hunwrap] at h
        -- the reading as a literal misses and leaves the session as it is
        rcases found_or_of_orElse h with hliteral | ⟨s₁, hliteral, hfound⟩
        · cases hliteral
        cases hliteral
        rcases found_or_of_orElse hfound with hlist | ⟨t, hlist, hphrase⟩
        · split at hlist
          · cases hlist
          · rename_i hexpected
            obtain ⟨⟨parts, all⟩, _, hparts, hitems⟩ := exists_of_bind hlist
            obtain ⟨hsplit, rfl⟩ := ofOption_eq_found hparts
            obtain ⟨items, u, hevery, hlast⟩ := exists_of_bind hitems
            cases hlast
            obtain ⟨made, hmade⟩ := eachPutTogether_of_every (fun _ _ _ _ h => ih h) hevery
            exact ⟨made, .list hunwrap (Bool.eq_false_iff.2 hexpected) hsplit hmade⟩
        · split at hphrase
          · cases hphrase
          · rename_i hidle
            simp only [Bool.or_eq_true, not_or, Bool.not_eq_true] at hidle
            obtain ⟨before, id, after, u, hcandidates, hmissed, hfound⟩ := exists_of_byPhrase hphrase
            obtain ⟨p, made, v, hp, hmakes, rfl, hsingle, rfl⟩ := exists_of_byCandidate hfound
            exact ⟨[made], .phrase hunwrap hidle.2 hlist hcandidates hmissed hp hmakes hsingle⟩

/-- Whatever the book, the session and the attempts under way are: if only expressions are accepted of a
text, then what is found is put together, by conversions and lists, from one or more expressions that makers
of phrases have given for matches of this run, and it is a literal exactly if all of these are. -/
theorem resolver_expressionsOnly (b : Book) (n : Nat) (text : Text) (expected : SlotType)
    (enclosing : List Frame) (s s' : Session) (e : Expression)
    (h : b.resolver n text expected .expressionsOnly enclosing s = (.found e, s')) :
    ∃ made, made ≠ [] ∧ b.PutTogether expected enclosing n text s made e s' ∧
      Expression.Assembled b.conversions made [e] ∧ e.isLiteral = made.all (·.isLiteral) := by
  obtain ⟨made, hmade⟩ := putTogether_of_found h
  refine ⟨made, hmade.made_ne_nil, hmade, hmade.assembled, ?_⟩
  rw [← hmade.assembled.all_isLiteral, List.all_cons, List.all_nil, Bool.and_true]

end

/-- A list of what phrases make, one of them in parentheses and one a truth value. -/
theorem resolver_expressionsOnly_reckoned :
    ∃ e s', (Standard.book {}).resolver 70 "1 + 2, (3 * 4) and whether true".toList
        ⟨⟨1⟩, "numbers", false⟩ .expressionsOnly [] (Standard.book {}).fresh = (.found e, s') ∧
      (e.values.length = 3 ∧ e.isLiteral = false) ∧
      ∃ made, made ≠ [] ∧
        (Standard.book {}).PutTogether ⟨⟨1⟩, "numbers", false⟩ [] 70
          "1 + 2, (3 * 4) and whether true".toList (Standard.book {}).fresh made e s' ∧
        Expression.Assembled (Standard.book {}).conversions made [e] ∧
        e.isLiteral = made.all (·.isLiteral) := by
  have hvalues : ((Standard.book {}).resolver 70 "1 + 2, (3 * 4) and whether true".toList
      ⟨⟨1⟩, "numbers", false⟩ .expressionsOnly [] (Standard.book {}).fresh).1.toOption.map
      (fun e => (e.values.length, e.isLiteral)) = some (3, false) := by
    rw [Standard.book_eq]
    decide +kernel
  obtain ⟨e, s', h, hshape⟩ := exists_found hvalues
  exact ⟨e, s', h, Prod.mk.inj hshape, resolver_expressionsOnly (Standard.book {}) 70 _ _ _ _ s' e h⟩

/-- One by its word, and a number that is to be taken literally. -/
def wordings : Book where
  settings := {}
  types := ⟨[⟨⟨0⟩, ⟨"number", "numbers"⟩, .number, some Standard.number?, none⟩]⟩
  conversions := .empty .builtin
  expressions := ⟨[
    ⟨"one", .number, 1, [(0, .literal "one".toList)],
      fun o => .ok (.literal .number [.integer 1] o.source), Phrase.defaultPriority⟩,
    ⟨"literally", .number, 1,
      [(0, .sequence [.literal "literally ".toList, .slot [⟨⟨0⟩, "number", true⟩] .literalsOnly false])],
      fun o => o.take.map (·.1), Phrase.defaultPriority⟩], 0⟩
  effects := ⟨[], 0⟩

/-- Not all that is found where only expressions are accepted is no literal. A literal comes out of a
phrase that writes one, and so does a list with another that a phrase has given on. -/
theorem not_resolver_expressionsOnly_wordings :
    (∃ e s', wordings.resolver 44 "one".toList ⟨⟨0⟩, "numbers", false⟩ .expressionsOnly []
      wordings.fresh = (.found e, s') ∧ e.isLiteral = true) ∧
    ∃ e s', wordings.resolver 44 "one and (literally 2)".toList ⟨⟨0⟩, "numbers", false⟩
      .expressionsOnly [] wordings.fresh = (.found e, s') ∧ e.isLiteral = true := by
  have hliteral : ∀ text ∈ ["one".toList, "one and (literally 2)".toList],
      (wordings.resolver 44 text ⟨⟨0⟩, "numbers", false⟩ .expressionsOnly []
        wordings.fresh).1.toOption.map (·.isLiteral) = some true := by decide +kernel
  exact ⟨exists_found (hliteral _ (by simp)), exists_found (hliteral _ (by simp))⟩

end Phrasebook.Book
