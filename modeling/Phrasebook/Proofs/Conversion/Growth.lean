import Mathlib.Computability.StateTransition
import Phrasebook.Conversion.Remembered
import Phrasebook.Proofs.Conversion.Closure

/-!
How a graph grows. It does so at its end only: what is registered is put behind all that is there, for
something broader, which it would have to be put in front of, would cover it. And adding all chains comes
to an end, although both its loops run over the list that they append to: every chain leads between a
class where a conversion departed before and one where a conversion arrived, and no two lead between the
same.
-/

namespace Phrasebook

namespace ConversionGraph

variable {g : ConversionGraph} {f h : Conversion}

/-! ## The two loops -/

/-- How far the loops have come: the positions of the first and of the second conversion of the chain that
is next to be tried, and the number of chains that were added. -/
structure Sweep where
  graph : ConversionGraph
  row : Nat
  column : Nat
  added : Nat

namespace Sweep

def start (g : ConversionGraph) : Sweep := ⟨g, 0, 0, 0⟩

def next? (s : Sweep) : Option Sweep :=
  match s.graph.edges[s.row]?, s.graph.edges[s.column]? with
  | none, _ => none
  | some _, none => some { s with row := s.row + 1, column := 0 }
  | some f, some h =>
    match s.graph.chain? f h with
    | none => some { s with column := s.column + 1 }
    | some e =>
      some ⟨{ s.graph with edges := s.graph.edges ++ [e] }, s.row, s.column + 1, s.added + 1⟩

def run (s : Sweep) : Part Sweep := StateTransition.eval next? s

theorem next?_over {s : Sweep} (hrow : s.graph.edges[s.row]? = none) : s.next? = none := by
  rw [next?, hrow]

theorem next?_row {s : Sweep} (hrow : s.graph.edges[s.row]? = some f)
    (hcolumn : s.graph.edges[s.column]? = none) :
    s.next? = some { s with row := s.row + 1, column := 0 } := by
  rw [next?, hrow, hcolumn]

theorem next?_column {s : Sweep} (hrow : s.graph.edges[s.row]? = some f)
    (hcolumn : s.graph.edges[s.column]? = some h) :
    s.next? = some ⟨s.graph.addChain f h, s.row, s.column + 1,
      s.added + if (s.graph.chain? f h).isSome then 1 else 0⟩ := by
  rw [next?, hrow, hcolumn]
  dsimp only
  unfold addChain
  cases s.graph.chain? f h with
  | none => rfl
  | some e => rfl

/-! ## What a round keeps -/

/-- The graph has grown by as many conversions as were counted. -/
structure Counts (g : ConversionGraph) (s : Sweep) : Prop where
  grown : Grown g s.graph
  length : s.graph.edges.length = g.edges.length + s.added

theorem Counts.next? {s s' : Sweep} (hs : s.Counts g) (hnext : s' ∈ s.next?) : s'.Counts g := by
  unfold Sweep.next? at hnext
  split at hnext
  · cases hnext
  · cases hnext
    exact ⟨hs.grown, hs.length⟩
  · rename_i f h hrow hcolumn
    split at hnext
    · cases hnext
      exact ⟨hs.grown, hs.length⟩
    -- the only round that adds anything is the only one that counts
    · rename_i e hchain
      cases hnext
      refine ⟨.chain hs.grown (List.mem_of_getElem? hrow) (List.mem_of_getElem? hcolumn) hchain, ?_⟩
      rw [List.length_append, hs.length, List.length_singleton, Nat.add_assoc]

theorem Counts.reaches {s s' : Sweep} (hs : s.Counts g) (h : StateTransition.Reaches Sweep.next? s s') :
    s'.Counts g := by
  induction h with
  | refl => exact hs
  | tail _ hnext ih => exact ih.next? hnext

/-! ## The loops end -/

/-- The inner loop. It tries at most as many conversions as the graph can have in the end. -/
theorem reaches_row {limit i fuel j added : Nat}
    (hlimit : ∀ g', Grown g g' → g'.edges.length ≤ limit) (hfuel : limit ≤ j + fuel)
    (hrow : g.edges[i]? = some f) :
    ∃ added', StateTransition.Reaches next? ⟨g, i, j, added⟩
      ⟨chainRow i fuel j g, i + 1, 0, added'⟩ := by
  induction fuel generalizing j g added with
  | zero =>
    -- the fuel is gone, but then no graph that is to come has a conversion at this place
    have hcolumn : g.edges[j]? = none := List.getElem?_eq_none ((hlimit g .refl).trans hfuel)
    exact ⟨added, .single (next?_row hrow hcolumn)⟩
  | succ fuel ih =>
    cases hcolumn : g.edges[j]? with
    | none =>
      rw [chainRow_over (Or.inr hcolumn)]
      exact ⟨added, .single (next?_row hrow hcolumn)⟩
    | some h =>
      have hgrown := addChain_grown (List.mem_of_getElem? hrow) (List.mem_of_getElem? hcolumn)
      obtain ⟨added', hreaches⟩ := ih (j := j + 1) (fun g' hg' => hlimit g' (hgrown.trans hg'))
        (by omega) (hgrown.getElem? hrow)
      rw [chainRow_step hrow hcolumn]
      exact ⟨added', .head (next?_column hrow hcolumn) hreaches⟩

theorem mem_run_of_over {s : Sweep} (h : s.graph.edges.length ≤ s.row) : s ∈ s.run :=
  StateTransition.mem_eval.2 ⟨.refl, next?_over (List.getElem?_eq_none h)⟩

/-- Both loops, from the beginning of a row. -/
theorem exists_mem_run {limit fuel i added : Nat}
    (hlimit : ∀ g', Grown g g' → g'.edges.length ≤ limit) (hfuel : limit ≤ i + fuel) :
    ∃ t ∈ run ⟨g, i, 0, added⟩, t.graph = chainRows limit fuel i g := by
  induction fuel generalizing i g added with
  | zero => exact ⟨_, mem_run_of_over ((hlimit g .refl).trans hfuel), rfl⟩
  | succ fuel ih =>
    rw [chainRows]
    split
    · rename_i hi
      have hgrown := chainRow_grown i limit 0 g
      obtain ⟨added', hreaches⟩ : ∃ added', StateTransition.Reaches next? ⟨g, i, 0, added⟩
          ⟨chainRow i limit 0 g, i + 1, 0, added'⟩ :=
        reaches_row hlimit (Nat.le_add_left _ _) (List.getElem?_eq_getElem hi)
      rw [run, StateTransition.reaches_eval hreaches]
      exact ih (fun g' hg' => hlimit g' (hgrown.trans hg')) (by omega)
    · rename_i hi
      exact ⟨_, mem_run_of_over (Nat.not_lt.1 hi), rfl⟩

end Sweep

theorem exists_mem_run_start (hg : g.Apart) : ∃ t ∈ (Sweep.start g).run, t.graph = g.closure := by
  refine Sweep.exists_mem_run (fun g' hg' => ?_) (by omega)
  exact (hg'.length_le hg).trans (Nat.le_succ _)

theorem Sweep.counts_of_mem_run {t : Sweep} (ht : t ∈ (Sweep.start g).run) : t.Counts g :=
  have hstart : (Sweep.start g).Counts g := ⟨.refl, rfl⟩
  hstart.reaches (StateTransition.mem_eval.1 ht).1

end ConversionGraph

/-! ## Remembering graphs -/

namespace RememberedGraph

theorem close_graph (m : RememberedGraph) : m.close.2.graph = m.graph.closure := by
  have hgrown := m.graph.closure_grown
  rw [close]
  dsimp only
  split
  · rename_i hadded
    have hle := hgrown.length_mono
    exact (hgrown.eq_of_length (by omega)).symm
  · rfl

theorem register_eq (m : RememberedGraph) (e : Conversion) :
    m.register e =
      if m.graph.covers e.source e.target then (false, m)
      else (true, ⟨{ m.graph with edges := m.graph.edges ++ [e] }, []⟩) := by
  rw [register, ConversionGraph.register_eq]
  cases m.graph.covers e.source e.target <;> rfl

end RememberedGraph

namespace History

open ConversionGraph

variable {classes : ClassTree}

theorem accepted_sublist (h : History) : (h.accepted classes).Sublist (h.graph classes).edges := by
  induction h with
  | start => exact .slnil
  | register past e ih =>
    rw [accepted, graph, ConversionGraph.register_eq]
    split
    · exact (List.append_nil _).symm ▸ ih
    · exact ih.append (.refl [e])
  | close past ih =>
    obtain ⟨es, hes⟩ := (past.graph classes).closure_grown.edges_append
    rw [accepted, graph, hes]
    exact ih.trans (List.sublist_append_left _ es)

/-- At any time no two conversions of a graph are related at both ends. What is registered is left out if
something covers it, and else put at the end: then nothing is broader that it would have to be put in front
of. So the accepted conversions stand in the order in which they were registered. -/
theorem registered_inOrder (classes : ClassTree) (h : History) :
    (∀ (i j : Nat) (e f : Conversion), (h.graph classes).edges[i]? = some e →
      (h.graph classes).edges[j]? = some f →
      (h.graph classes).related e.source f.source = true →
      (h.graph classes).related e.target f.target = true → i = j) ∧
    (∀ e answers, (⟨h.graph classes, answers⟩ : RememberedGraph).register e =
      if (h.graph classes).covers e.source e.target then (false, ⟨h.graph classes, answers⟩)
      else (true, ⟨{ h.graph classes with edges := (h.graph classes).edges ++ [e] }, []⟩)) ∧
    (∀ a b, (h.graph classes).covers a b = false →
      ((h.graph classes).edges.findIdx? fun other =>
        (h.graph classes).classes.isAssignable a other.source &&
          (h.graph classes).classes.isAssignable other.target b) = none) ∧
    (h.accepted classes).Sublist (h.graph classes).edges := by
  refine ⟨fun i j e f he hf hsource htarget => ?_, fun e answers => RememberedGraph.register_eq _ e,
    fun a b => findIdx?_broader_eq_none, h.accepted_sublist⟩
  exact h.apart_graph.eq_of_related he hf hsource htarget

/-- What spells out integers, what would spell out all numbers and is left out, and what makes truth values
integers; then all chains. -/
def spelledFirst : History :=
  .close (.register (.register (.register .start
    ⟨.integer, .string, fun v => some (.string v.toText), .none⟩) ⟨.number, .string, some, .none⟩)
    ⟨.boolean, .integer, some, .none⟩)

/-- The chain from truth values to strings arrives where the first conversion arrives, so it cannot depart
in a related class. What spells out decimals is put behind both. -/
theorem registered_inOrder_spelledFirst :
    (∃ e f, (spelledFirst.graph .builtin).edges[0]? = some e ∧
      (spelledFirst.graph .builtin).edges[2]? = some f ∧
      (spelledFirst.graph .builtin).related e.target f.target = true ∧
      ¬ (spelledFirst.graph .builtin).related e.source f.source = true) ∧
    (∃ g, (⟨spelledFirst.graph .builtin, []⟩ : RememberedGraph).register
        ⟨.decimal, .string, some, .none⟩ = (true, ⟨g, []⟩) ∧
      g.edges.map (·.source) = [.integer, .boolean, .boolean, .decimal]) ∧
    ((spelledFirst.graph .builtin).edges.findIdx? fun other =>
      (spelledFirst.graph .builtin).classes.isAssignable .decimal other.source &&
        (spelledFirst.graph .builtin).classes.isAssignable other.target .string) = none ∧
    (spelledFirst.accepted .builtin).length = 2 ∧
    (spelledFirst.accepted .builtin).Sublist (spelledFirst.graph .builtin).edges := by
  obtain ⟨hdistinct, hregister, hbroader, hsublist⟩ := registered_inOrder .builtin spelledFirst
  refine ⟨⟨_, _, rfl, rfl, rfl, fun hsource => ?_⟩, ⟨_, hregister ⟨.decimal, .string, some, .none⟩ [], rfl⟩,
    hbroader .decimal .string rfl, rfl, hsublist⟩
  exact absurd (hdistinct 0 2 _ _ rfl rfl hsource rfl) (by decide)

/-- Adding all chains comes to an end, whatever the graph has seen before. The number that is told counts
the conversions by which it has grown, those there were before keep their places, and in the end there is
at most one for each pair of a class where one departed and a class where one arrived. -/
theorem closing_ends (classes : ClassTree) (past : History) :
    ∃ t ∈ (Sweep.start (past.graph classes)).run,
      (∀ answers, (⟨past.graph classes, answers⟩ : RememberedGraph).close.1 = t.added ∧
        (⟨past.graph classes, answers⟩ : RememberedGraph).close.2.graph = t.graph) ∧
      t.graph.edges.length = (past.graph classes).edges.length + t.added ∧
      (past.graph classes).edges <+: t.graph.edges ∧
      t.graph.edges.length ≤ ((past.graph classes).edges.map (·.source)).dedup.length *
        ((past.graph classes).edges.map (·.target)).dedup.length := by
  obtain ⟨t, ht, hgraph⟩ := exists_mem_run_start past.apart_graph
  obtain ⟨hgrown, hlength⟩ := Sweep.counts_of_mem_run ht
  refine ⟨t, ht, fun answers => ⟨?_, ?_⟩, hlength, ?_, hgrown.length_le_ends past.apart_graph⟩
  · change (past.graph classes).closure.edges.length - (past.graph classes).edges.length = t.added
    rw [← hgraph, hlength, Nat.add_sub_cancel_left]
  · rw [RememberedGraph.close_graph, hgraph]
  · obtain ⟨es, hes⟩ := hgrown.edges_append
    exact ⟨es, hes.symm⟩

/-- There and back: each class is reached from itself in the end, and no pair is left. -/
example :
    let past : History := .register (.register .start ⟨.string, .boolean, some, .none⟩)
      ⟨.boolean, .string, some, .none⟩
    (past.close.graph .builtin).edges.map (fun e => (e.source, e.target)) =
      [(.string, .boolean), (.boolean, .string), (.string, .string), (.boolean, .boolean)] := rfl

end History

end Phrasebook
