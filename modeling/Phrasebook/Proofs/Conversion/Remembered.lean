import Phrasebook.Proofs.Conversion.Growth

/-!
A graph that remembers its answers, against one that does not. All that is remembered is what the graph
would find as it stands, also where it would find nothing: a call that changes the graph forgets everything,
and one that leaves it as it is may keep everything. So whatever calls are made, in whatever order, their
replies do not show that anything is remembered.
-/

namespace Phrasebook

inductive GraphCall where
  | register (e : Conversion)
  | close
  | route (source target : ClassId)
  | convert (v : Value) (target : ClassId)
  | mayConvert (source target : ClassId)

inductive GraphReply where
  | registered (added : Bool)
  | closed (added : Nat)
  | route (r : Option Route)
  | converted (v : Option Value)
  | mayConvert (usable : Bool)

namespace ConversionGraph

def reply (g : ConversionGraph) : GraphCall → GraphReply × ConversionGraph
  | .register e =>
    match g.register e with
    | some g' => (.registered true, g')
    | none => (.registered false, g)
  | .close => (.closed (g.closure.edges.length - g.edges.length), g.closure)
  | .route source target => (.route (g.route? source target), g)
  | .convert v target => (.converted (g.convert? v target), g)
  | .mayConvert source target => (.mayConvert (g.mayConvert source target), g)

def replies (g : ConversionGraph) : List GraphCall → List GraphReply × ConversionGraph
  | [] => ([], g)
  | c :: cs =>
    let (r, g) := g.reply c
    let (rs, g) := g.replies cs
    (r :: rs, g)

end ConversionGraph

namespace RememberedGraph

def reply (m : RememberedGraph) : GraphCall → GraphReply × RememberedGraph
  | .register e =>
    let (added, m) := m.register e
    (.registered added, m)
  | .close =>
    let (added, m) := m.close
    (.closed added, m)
  | .route source target =>
    let (r, m) := m.route? source target
    (.route r, m)
  | .convert v target =>
    let (w, m) := m.convert? v target
    (.converted w, m)
  | .mayConvert source target =>
    let (usable, m) := m.mayConvert source target
    (.mayConvert usable, m)

def replies (m : RememberedGraph) : List GraphCall → List GraphReply × RememberedGraph
  | [] => ([], m)
  | c :: cs =>
    let (r, m) := m.reply c
    let (rs, m) := m.replies cs
    (r :: rs, m)

/-- Every answer that is remembered is what the graph finds as it stands. -/
def Faithful (m : RememberedGraph) : Prop :=
  ∀ source target r, ((source, target), r) ∈ m.answers → r = m.graph.route? source target

variable {m : RememberedGraph}

theorem faithful_of_forgotten (g : ConversionGraph) : Faithful ⟨g, []⟩ :=
  fun _ _ _ h => absurd h List.not_mem_nil

/-! ## Routes -/

/-- The graph stays, and what is added to the memory is what was found. -/
theorem Faithful.route? (hm : m.Faithful) (source target : ClassId) :
    ∃ m' : RememberedGraph, m.route? source target = (m.graph.route? source target, m') ∧
      m'.graph = m.graph ∧ m'.Faithful := by
  unfold RememberedGraph.route?
  cases hlookup : m.answers.lookup (source, target) with
  | some r =>
    obtain ⟨before, after, hanswers, -⟩ := List.lookup_eq_some_iff.1 hlookup
    have hmem : ((source, target), r) ∈ m.answers := by
      rw [hanswers]
      exact List.mem_append_right before List.mem_cons_self
    exact ⟨m, by rw [← hm source target r hmem], rfl, hm⟩
  | none =>
    refine ⟨_, rfl, rfl, fun a b r h => ?_⟩
    rcases List.mem_cons.1 h with h | h
    · cases h
      rfl
    · exact hm a b r h

/-! ## Calls -/

/-- The call has the reply that it has without memory, leaves the same graph behind, and nothing is
remembered that this would not find. -/
def Unnoticed (m : RememberedGraph) (c : GraphCall) : Prop :=
  ∃ m' : RememberedGraph, m.reply c = ((m.graph.reply c).1, m') ∧
    m'.graph = (m.graph.reply c).2 ∧ m'.Faithful

theorem Faithful.register (hm : m.Faithful) (e : Conversion) : m.Unnoticed (.register e) := by
  unfold Unnoticed RememberedGraph.reply ConversionGraph.reply RememberedGraph.register
  dsimp only
  cases m.graph.register e with
  | some g => exact ⟨_, rfl, rfl, faithful_of_forgotten g⟩
  | none => exact ⟨m, rfl, rfl, hm⟩

/-- The memory is kept only if no chain was added. -/
theorem Faithful.close (hm : m.Faithful) : m.Unnoticed .close := by
  refine ⟨m.close.2, rfl, m.close_graph, ?_⟩
  unfold RememberedGraph.close
  dsimp only
  split
  · exact hm
  · exact faithful_of_forgotten _

theorem Faithful.convert? (hm : m.Faithful) (v : Value) (target : ClassId) :
    m.Unnoticed (.convert v target) := by
  unfold Unnoticed RememberedGraph.reply ConversionGraph.reply RememberedGraph.convert?
    ConversionGraph.convert?
  dsimp only
  split
  · exact ⟨m, rfl, rfl, hm⟩
  · obtain ⟨m', hroute, hgraph, hm'⟩ := hm.route? v.kind target
    refine ⟨m', ?_, hgraph, hm'⟩
    rw [hroute]
    dsimp only
    rw [hgraph]

theorem Faithful.mayConvert (hm : m.Faithful) (source target : ClassId) :
    m.Unnoticed (.mayConvert source target) := by
  unfold Unnoticed RememberedGraph.reply ConversionGraph.reply RememberedGraph.mayConvert
    ConversionGraph.mayConvert
  dsimp only
  cases m.graph.related source target with
  | true => exact ⟨m, rfl, rfl, hm⟩
  | false =>
    obtain ⟨m', hroute, hgraph, hm'⟩ := hm.route? source target
    exact ⟨m', by rw [if_neg Bool.false_ne_true, hroute, Bool.false_or], hgraph, hm'⟩

theorem Faithful.unnoticed (hm : m.Faithful) (c : GraphCall) : m.Unnoticed c := by
  cases c with
  | register e => exact hm.register e
  | close => exact hm.close
  | route source target =>
    obtain ⟨m', hroute, hgraph, hm'⟩ := hm.route? source target
    exact ⟨m', by rw [reply, hroute]; rfl, hgraph, hm'⟩
  | convert v target => exact hm.convert? v target
  | mayConvert source target => exact hm.mayConvert source target

/-- A run of calls, by one call after the other. -/
theorem Faithful.replies (hm : m.Faithful) (cs : List GraphCall) :
    ∃ m' : RememberedGraph, m.replies cs = ((m.graph.replies cs).1, m') ∧
      m'.graph = (m.graph.replies cs).2 ∧ m'.Faithful := by
  induction cs generalizing m with
  | nil => exact ⟨m, rfl, rfl, hm⟩
  | cons c cs ih =>
    obtain ⟨m', hreply, hgraph, hm'⟩ := hm.unnoticed c
    obtain ⟨m'', hreplies, hgraph', hm''⟩ := ih hm'
    rw [hgraph] at hreplies hgraph'
    refine ⟨m'', ?_, hgraph', hm''⟩
    rw [RememberedGraph.replies, hreply]
    dsimp only
    rw [hreplies]
    rfl

/-- Whatever calls are made on a graph, the replies are those of a graph that remembers nothing, and the
conversions are the same. At any time the route that is given between two classes, from memory or not, is
the one that is found among the conversions as they are, and so is all that is remembered. -/
theorem replies_unremembered (classes : ClassTree) (cs : List GraphCall) :
    ((empty classes).replies cs).1 = ((ConversionGraph.empty classes).replies cs).1 ∧
    ((empty classes).replies cs).2.graph = ((ConversionGraph.empty classes).replies cs).2 ∧
    (∀ source target, (((empty classes).replies cs).2.route? source target).1 =
      ((empty classes).replies cs).2.graph.route? source target) ∧
    ((empty classes).replies cs).2.Faithful := by
  have hempty : (empty classes).Faithful := faithful_of_forgotten _
  obtain ⟨m, hreplies, hgraph, hm⟩ := hempty.replies cs
  rw [hreplies]
  refine ⟨rfl, hgraph, fun source target => ?_, hm⟩
  obtain ⟨m', hroute, -, -⟩ := hm.route? source target
  exact congrArg Prod.fst hroute

/-- That there is no route is remembered too, while nothing is registered, and then no more. -/
example :
    let e : Conversion := ⟨.integer, .boolean, some, .none⟩
    let asked : GraphCall := .mayConvert .integer .boolean
    (((empty .builtin).replies [asked, .close, asked, .register e, asked]).1,
      ((empty .builtin).replies [asked, .close]).2.answers.length,
      ((empty .builtin).replies [asked, .register e]).2.answers.length) =
    ([.mayConvert false, .closed 0, .mayConvert false, .registered true, .mayConvert true], 1, 0) := rfl

end RememberedGraph

end Phrasebook
