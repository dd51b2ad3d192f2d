import Phrasebook.Proofs.Conversion.History

/-!
What a route is, and which pairs of classes one leads between. A route takes a conversion of the graph;
where this does not fit by its classes, the route checks the values. There is a route from one class to
another just when the pair is covered: the rounds of the search deal out among them the ways in which the
ends can be related. So a conversion that is left out has a route between its own ends, and a chain that is
added leads where there was none. From a narrower class there need be no route, where what covers the pair
departs from another narrower class.
-/

namespace Phrasebook

namespace Route

/-- The conversion itself, without the checks. -/
def run : Route → Value → Option Value
  | direct run | checkInput _ run | checkOutput _ run | checkBoth _ _ run => run

/-- Whether the route lets the value in to be converted. -/
def admits (r : Route) (v : Value) (classes : ClassTree) : Bool :=
  match r with
  | checkInput source _ | checkBoth source _ _ => v.isInstance source classes
  | direct _ | checkOutput _ _ => true

/-- Whether the route lets the result out. -/
def passes (r : Route) (w : Value) (classes : ClassTree) : Bool :=
  match r with
  | checkOutput target _ | checkBoth _ target _ => w.isInstance target classes
  | direct _ | checkInput _ _ => true

/-- Nothing is converted that is not let in. -/
theorem apply_eq (r : Route) (v : Value) (classes : ClassTree) :
    r.apply v classes =
      if r.admits v classes then (r.run v).filter (r.passes · classes) else none := by
  have hall (o : Option Value) : o.filter (fun _ => true) = o := by cases o <;> rfl
  cases r with
  | direct run => exact (hall (run v)).symm
  | checkInput source run =>
    exact congrArg (if v.isInstance source classes then · else none) (hall (run v)).symm
  | checkOutput target run => rfl
  | checkBoth source target run => rfl

/-- The route takes the conversion, and where the ends of this do not fit the two classes, there is a
check. -/
structure Takes (classes : ClassTree) (source target : ClassId) (e : Conversion) (r : Route) : Prop where
  run : r.run = e.run
  input {v : Value} : v.isInstance source classes = true → r.admits v classes = true →
    v.isInstance e.source classes = true
  output {w : Value} : w.isInstance e.target classes = true → r.passes w classes = true →
    w.isInstance target classes = true

end Route

namespace ConversionGraph

variable {g g' : ConversionGraph} {e f h : Conversion} {a b c source target : ClassId}

theorem related_iff :
    g.related a b = true ↔ g.classes.isAssignable a b = true ∨ g.classes.isAssignable b a = true := by
  rw [related, Bool.or_eq_true]

/-- Three rounds, and together they take every conversion that covers the pair. -/
theorem isSome_route?_iff : (g.route? source target).isSome = true ↔ g.covers source target = true := by
  rw [covers_iff]
  unfold route?
  dsimp only
  rw [Option.isSome_or, Option.isSome_or, Bool.or_eq_true, Bool.or_eq_true,
    List.findSome?_isSome_iff, List.findSome?_isSome_iff, List.findSome?_isSome_iff]
  simp only [← exists_or, ← and_or_left, related, Option.isSome_ite, Bool.or_eq_true]
  refine exists_congr fun e => and_congr_right fun _ => ?_
  cases g.classes.isAssignable source e.source <;> cases g.classes.isAssignable e.source source <;>
    cases g.classes.isAssignable target e.target <;> cases g.classes.isAssignable e.target target <;>
    simp

theorem exists_takes_of_route? {r : Route} (hr : g.route? source target = some r) :
    ∃ e ∈ g.edges, r.Takes g.classes source target e := by
  unfold route? at hr
  dsimp only at hr
  rcases Option.or_eq_some_iff.1 hr with hr | ⟨-, hr⟩
  · obtain ⟨e, he, hr⟩ := List.exists_of_findSome?_eq_some hr
    obtain ⟨hfits, hr⟩ := Option.ite_none_right_eq_some.1 hr
    cases hr
    rw [Bool.and_eq_true] at hfits
    exact ⟨e, he, rfl, fun hv _ => g.classes.isAssignable_trans hv hfits.1,
      fun hw _ => g.classes.isAssignable_trans hw hfits.2⟩
  rcases Option.or_eq_some_iff.1 hr with hr | ⟨-, hr⟩
  · obtain ⟨e, he, hr⟩ := List.exists_of_findSome?_eq_some hr
    split at hr
    · rename_i hfits
      cases hr
      rw [Bool.and_eq_true] at hfits
      exact ⟨e, he, rfl, fun hv _ => g.classes.isAssignable_trans hv hfits.1, fun _ hpasses => hpasses⟩
    · obtain ⟨hfits, hr⟩ := Option.ite_none_right_eq_some.1 hr
      cases hr
      rw [Bool.and_eq_true] at hfits
      exact ⟨e, he, rfl, fun _ hadmits => hadmits, fun hw _ => g.classes.isAssignable_trans hw hfits.2⟩
  · obtain ⟨e, he, hr⟩ := List.exists_of_findSome?_eq_some hr
    obtain ⟨-, hr⟩ := Option.ite_none_right_eq_some.1 hr
    cases hr
    exact ⟨e, he, rfl, fun _ hadmits => hadmits, fun _ hpasses => hpasses⟩

theorem register_eq_none_iff : g.register e = none ↔ g.covers e.source e.target = true := by
  rw [register_eq, ite_eq_left_iff, imp_iff_not (Option.some_ne_none _), not_not]

/-- What is related to a class is related to the classes that it is assignable to. -/
theorem related_of_isAssignable (h : g.related a b = true) (hbc : g.classes.isAssignable b c = true) :
    g.related a c = true := by
  rw [related_iff] at h ⊢
  rcases h with hab | hba
  · exact Or.inl (g.classes.isAssignable_trans hab hbc)
  · exact g.classes.isAssignable_or hba hbc

theorem covers_of_isAssignable (h : g.covers a target = true) (hab : g.classes.isAssignable a b = true) :
    g.covers b target = true := by
  obtain ⟨e, he, hsource, htarget⟩ := covers_iff.1 h
  exact covers_iff.2 ⟨e, he, related_of_isAssignable hsource hab, htarget⟩

/-- Whatever a value of one class can be converted by, there is a route from the broader classes. -/
theorem mayConvert_of_convert? {v w : Value} (hv : v.isInstance source g.classes = true)
    (hw : g.convert? v target = some w) : g.mayConvert source target = true := by
  unfold mayConvert
  unfold convert? at hw
  rw [Bool.or_eq_true]
  split at hw
  · rename_i htarget
    left
    exact related_iff.2 (g.classes.isAssignable_or hv htarget)
  · right
    obtain ⟨r, hr, -⟩ := Option.bind_eq_some_iff.1 hw
    have hcovers : g.covers v.kind target = true := isSome_route?_iff.1 (by rw [hr]; rfl)
    exact isSome_route?_iff.2 (covers_of_isAssignable hcovers hv)

/-! ## What is added was missing -/

theorem route?_eq_none_iff : g.route? source target = none ↔ g.covers source target = false := by
  rw [← Option.not_isSome_iff_eq_none, isSome_route?_iff, Bool.not_eq_true]

theorem chain?_eq_some_iff_route? : g.chain? f h = some e ↔
    f.MayChain g.classes h ∧ g.route? f.source h.target = none ∧ e = f.andThen h := by
  rw [chain?_eq_some_iff, route?_eq_none_iff]

/-- When a chain was added, the conversions before it did not cover its pair. -/
theorem Grown.uncovered (hgrown : Grown g g') {k : Nat} (hk : g.edges.length ≤ k)
    (he : g'.edges[k]? = some e) :
    ConversionGraph.covers { g with edges := g'.edges.take k } e.source e.target = false := by
  induction hgrown with
  | refl =>
    rw [List.getElem?_eq_none hk] at he
    cases he
  | @chain g' f h e' past hf hh hchain ih =>
    rw [List.getElem?_append] at he
    split at he
    · rename_i hlt
      rw [List.take_append_of_le_length (Nat.le_of_lt hlt)]
      exact ih he
    · rename_i hge
      -- the last chain, so what stands before it is the graph in which it was tried
      obtain ⟨hlast, rfl⟩ : k - g'.edges.length = 0 ∧ e' = e := by
        simpa [List.getElem?_singleton] using he
      obtain rfl : k = g'.edges.length := by omega
      obtain ⟨-, huncovered, rfl⟩ := chain?_eq_some_iff.1 hchain
      rw [List.take_left, ← past.classes_eq]
      exact huncovered

/-- Between two classes there is a route just when a conversion covers them. So a conversion is left out just
when there is a route between its ends. Two conversions give a chain just when they may chain and there is
no route for it yet, and each chain that is added is one for which the conversions before it had no route. -/
theorem covers_exactly_routed (g : ConversionGraph) :
    (∀ source target, g.covers source target = true ↔ (g.route? source target).isSome = true) ∧
    (∀ e, g.register e = none ↔ (g.route? e.source e.target).isSome = true) ∧
    (∀ f h e, g.chain? f h = some e ↔
      f.MayChain g.classes h ∧ g.route? f.source h.target = none ∧ e = f.andThen h) ∧
    ∀ k e, g.edges.length ≤ k → g.closure.edges[k]? = some e →
      route? { g with edges := g.closure.edges.take k } e.source e.target = none :=
  ⟨fun _ _ => isSome_route?_iff.symm, fun _ => register_eq_none_iff.trans isSome_route?_iff.symm,
    fun _ _ _ => chain?_eq_some_iff_route?,
    fun _ _ hk he => route?_eq_none_iff.2 (g.closure_grown.uncovered hk he)⟩

/-- Truth values are spelled out, and what is spelled is counted. -/
def throughStrings : ConversionGraph :=
  ⟨.builtin, [⟨.boolean, .string, some, .none⟩, ⟨.string, .integer, some, .none⟩]⟩

/-- The chain is the one conversion that is added, and it alone leads from truth values to integers. From
truth values to numbers there is a route as well in the end, so nothing more can be registered for them. -/
theorem covers_exactly_routed_throughStrings :
    (∃ e, throughStrings.closure.edges[2]? = some e ∧ e.source = .boolean ∧ e.target = .integer ∧
      route? { throughStrings with edges := throughStrings.closure.edges.take 2 }
        e.source e.target = none) ∧
    (throughStrings.closure.route? .boolean .number).isSome = true ∧
    throughStrings.closure.register ⟨.boolean, .number, some, .none⟩ = none := by
  obtain ⟨-, -, -, hmissing⟩ := covers_exactly_routed throughStrings
  obtain ⟨-, hregister, -⟩ := covers_exactly_routed throughStrings.closure
  exact ⟨⟨_, rfl, rfl, rfl, hmissing 2 _ (Nat.le_refl 2) rfl⟩, rfl, (hregister _).2 rfl⟩

end ConversionGraph

namespace History

open ConversionGraph

/-- A conversion is left out where there is a route between its ends already. From a class that it
could have departed from there is then a route just when a conversion departs from a class related to it,
for a related target; always if one that covers the pair departs as broadly. -/
theorem serves_dropped (classes : ClassTree) (past : History) (e : Conversion)
    (hdropped : (past.graph classes).register e = none) :
    ((past.graph classes).route? e.source e.target).isSome = true ∧
    (∀ c, classes.isAssignable c e.source = true →
      (((past.graph classes).route? c e.target).isSome = true ↔
        ∃ f ∈ (past.graph classes).edges, (past.graph classes).related f.source c = true ∧
          (past.graph classes).related f.target e.target = true)) ∧
    ((∃ f ∈ (past.graph classes).edges, classes.isAssignable e.source f.source = true ∧
        (past.graph classes).related f.target e.target = true) →
      ∀ c, classes.isAssignable c e.source = true →
        ((past.graph classes).route? c e.target).isSome = true) := by
  have hcovers : (past.graph classes).covers e.source e.target = true :=
    register_eq_none_iff.1 hdropped
  refine ⟨isSome_route?_iff.2 hcovers, ?_, ?_⟩
  · intro c _
    rw [isSome_route?_iff, covers_iff]
  · rintro ⟨f, hf, hsource, htarget⟩ c hc
    have hcf : classes.isAssignable c f.source = true := classes.isAssignable_trans hc hsource
    have hrelated : (past.graph classes).related f.source c = true :=
      related_iff.2 (Or.inr (by rw [classes_graph]; exact hcf))
    exact isSome_route?_iff.2 (covers_iff.2 ⟨f, hf, hrelated, htarget⟩)

def spelledOut : History :=
  .register .start ⟨.integer, .string, fun v => some (.string v.toText), .none⟩

/-- What would spell out every number is left out. There are routes from numbers and from integers. And
spelling out integers is left out when all numbers are, but for integers there is a route all the same. -/
theorem serves_dropped_number :
    ((spelledOut.graph .builtin).route? .number .string).isSome = true ∧
    ((spelledOut.graph .builtin).route? .integer .string).isSome = true ∧
    (((History.start.register ⟨.number, .string, some, .none⟩).graph .builtin).route?
      .integer .string).isSome = true := by
  have hnumbers := serves_dropped .builtin spelledOut ⟨.number, .string, some, .none⟩ rfl
  have hintegers := serves_dropped .builtin (.register .start ⟨.number, .string, some, .none⟩)
    ⟨.integer, .string, some, .none⟩ rfl
  refine ⟨hnumbers.1, (hnumbers.2.1 .integer rfl).2 ⟨_, List.mem_singleton_self _, rfl, rfl⟩, ?_⟩
  exact hintegers.2.2 ⟨_, List.mem_singleton_self _, rfl, rfl⟩ .integer rfl

/-- But a decimal is a number too, and there is no route from decimals to strings. -/
theorem not_serves_dropped_decimal :
    (spelledOut.graph .builtin).register ⟨.number, .string, some, .none⟩ = none ∧
    ClassTree.builtin.isAssignable .decimal .number = true ∧
    (spelledOut.graph .builtin).route? .decimal .string = none :=
  ⟨rfl, rfl, rfl⟩

end History

end Phrasebook
