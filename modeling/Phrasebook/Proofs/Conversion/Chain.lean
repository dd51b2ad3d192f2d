import Mathlib.Data.List.Chain
import Phrasebook.Proofs.Conversion.History

/-!
What the conversions of a graph are made of. Whatever has happened to the graph, each of them is one
accepted conversion after the other, and what is barred for one of these is barred for all of it. So a
conversion that may not come first is the last in every chain, and one that may not come second is the
first, however the chains were put together.
-/

namespace Phrasebook

namespace ChainLimits

theorem none_union (a : ChainLimits) : none.union a = a := by
  simp [union, none]

theorem union_assoc (a b c : ChainLimits) : (a.union b).union c = a.union (b.union c) := by
  simp [union, Bool.or_assoc]

def ofAll (es : List Conversion) : ChainLimits := (es.map (·.limits)).foldr union none

theorem ofAll_append (es hs : List Conversion) : ofAll (es ++ hs) = (ofAll es).union (ofAll hs) := by
  unfold ofAll
  induction es with
  | nil => exact (none_union _).symm
  | cons e es ih => exact (congrArg e.limits.union ih).trans (union_assoc _ _ _).symm

theorem notFirst_ofAll {es : List Conversion} :
    (ofAll es).notFirst = false ↔ ∀ e ∈ es, e.limits.notFirst = false := by
  induction es with
  | nil => simp [ofAll, none]
  | cons e es ih =>
    rw [List.forall_mem_cons, ← ih]
    exact Bool.or_eq_false_iff

theorem notSecond_ofAll {es : List Conversion} :
    (ofAll es).notSecond = false ↔ ∀ e ∈ es, e.limits.notSecond = false := by
  induction es with
  | nil => simp [ofAll, none]
  | cons e es ih =>
    rw [List.forall_mem_cons, ← ih]
    exact Bool.or_eq_false_iff

end ChainLimits

namespace Conversion

/-- The conversion does what those of the list do one after the other. -/
structure ComposedOf (classes : ClassTree) (es : List Conversion) (e : Conversion) : Prop where
  nonempty : es ≠ []
  linked : es.IsChain fun c d => classes.isAssignable c.target d.source = true
  source : (es.head nonempty).source = e.source
  target : (es.getLast nonempty).target = e.target
  limits : e.limits = ChainLimits.ofAll es
  run : ∀ v, e.run v = es.foldlM (fun v c => c.run v) v
  first : ∀ c ∈ es.dropLast, c.limits.notFirst = false
  second : ∀ c ∈ es.tail, c.limits.notSecond = false

namespace ComposedOf

variable {classes : ClassTree} {es hs : List Conversion} {e f h : Conversion}

theorem single (classes : ClassTree) (e : Conversion) : ComposedOf classes [e] e where
  nonempty := List.cons_ne_nil _ _
  linked := List.IsChain.singleton e
  source := rfl
  target := rfl
  limits := by simp [ChainLimits.ofAll, ChainLimits.union, ChainLimits.none]
  run v := by simp
  first c hc := absurd hc List.not_mem_nil
  second c hc := absurd hc List.not_mem_nil

/-- Where the composed conversion may come first, so may each of its parts. -/
theorem notFirst (hf : ComposedOf classes es f) (h : f.limits.notFirst = false) :
    ∀ c ∈ es, c.limits.notFirst = false := by
  rw [hf.limits] at h
  exact ChainLimits.notFirst_ofAll.1 h

theorem notSecond (hf : ComposedOf classes es f) (h : f.limits.notSecond = false) :
    ∀ c ∈ es, c.limits.notSecond = false := by
  rw [hf.limits] at h
  exact ChainLimits.notSecond_ofAll.1 h

theorem andThen (hf : ComposedOf classes es f) (hh : ComposedOf classes hs h)
    (hmay : f.MayChain classes h) : ComposedOf classes (es ++ hs) (f.andThen h) where
  nonempty := List.append_ne_nil_of_left_ne_nil hf.nonempty hs
  linked := by
    refine List.isChain_append.2 ⟨hf.linked, hh.linked, fun c hc d hd => ?_⟩
    rw [List.getLast?_eq_some_getLast hf.nonempty] at hc
    rw [List.head?_eq_some_head hh.nonempty] at hd
    cases hc
    cases hd
    rw [hf.target, hh.source]
    exact hmay.meets
  source := by rw [List.head_append_of_ne_nil hf.nonempty, hf.source]; rfl
  target := by rw [List.getLast_append_of_ne_nil _ hh.nonempty, hh.target]; rfl
  limits := by
    rw [ChainLimits.ofAll_append, ← hf.limits, ← hh.limits]
    rfl
  run v := by
    have hrun : h.run = fun v => hs.foldlM (fun v c => c.run v) v := funext hh.run
    rw [List.foldlM_append, ← hf.run, ← hrun]
    rfl
  first c hc := by
    rw [List.dropLast_append_of_ne_nil hh.nonempty] at hc
    rcases List.mem_append.1 hc with hc | hc
    · exact hf.notFirst hmay.first c hc
    · exact hh.first c hc
  second c hc := by
    rw [List.tail_append_of_ne_nil hf.nonempty] at hc
    rcases List.mem_append.1 hc with hc | hc
    · exact hf.second c hc
    · exact hh.notSecond hmay.second c hc

end ComposedOf

def MadeFrom (classes : ClassTree) (given : List Conversion) (e : Conversion) : Prop :=
  ∃ es, (∀ c ∈ es, c ∈ given) ∧ ComposedOf classes es e

namespace MadeFrom

variable {classes : ClassTree} {given : List Conversion} {e f h : Conversion}

theorem of_mem (he : e ∈ given) : MadeFrom classes given e := by
  refine ⟨[e], fun c hc => ?_, .single classes e⟩
  rw [List.mem_singleton.1 hc]
  exact he

theorem andThen (hf : MadeFrom classes given f) (hh : MadeFrom classes given h)
    (hmay : f.MayChain classes h) : MadeFrom classes given (f.andThen h) := by
  obtain ⟨es, hes, hf⟩ := hf
  obtain ⟨hs, hhs, hh⟩ := hh
  refine ⟨es ++ hs, fun c hc => ?_, hf.andThen hh hmay⟩
  exact (List.mem_append.1 hc).elim (hes c) (hhs c)

end MadeFrom

end Conversion

/-- After any calls, every conversion of the graph is composed of accepted ones. Each leads on where the
one before it has arrived, none but the last is barred from coming first, and none but the first from
coming second. -/
theorem History.composedOf_accepted (classes : ClassTree) (h : History) :
    ∀ e ∈ (h.graph classes).edges,
      ∃ es, (∀ c ∈ es, c ∈ h.accepted classes) ∧ Conversion.ComposedOf classes es e :=
  h.keeps (P := Conversion.MadeFrom classes (h.accepted classes))
    (fun _ he => .of_mem he) fun _ _ hf hh hmay => hf.andThen hh hmay

/-- Strings, truth values, integers and decimals in a row: the first conversion may not come second, the
last one not first. -/
def History.relay : History :=
  .close (.register (.register (.register .start
    ⟨.string, .boolean, some, ⟨false, true⟩⟩) ⟨.boolean, .integer, some, .none⟩)
    ⟨.integer, .decimal, some, ⟨true, false⟩⟩)

/-- From strings to decimals there is a chain of all three. -/
theorem History.composedOf_accepted_relay :
    ∃ e ∈ (relay.graph .builtin).edges, e.source = .string ∧ e.target = .decimal ∧
      e.limits = ⟨true, true⟩ ∧
      ∃ es, (∀ c ∈ es, c ∈ relay.accepted .builtin) ∧ Conversion.ComposedOf .builtin es e := by
  obtain ⟨e, he, hends⟩ : ∃ e, (relay.graph .builtin).edges[5]? = some e ∧
      e.source = .string ∧ e.target = .decimal ∧ e.limits = ⟨true, true⟩ :=
    ⟨_, rfl, rfl, rfl, rfl⟩
  have hmem := List.mem_of_getElem? he
  exact ⟨e, hmem, hends.1, hends.2.1, hends.2.2, composedOf_accepted .builtin relay e hmem⟩

end Phrasebook
