import Phrasebook.Proofs.Conversion.Lookup

/-!
Conversions that keep what their ends promise: what they make of a value of the class where they depart
is of the class where they arrive. Then so do their chains, and so does every route, because a value that
is broader than one end of a conversion is checked there.
-/

namespace Phrasebook

theorem Value.isInstance_trans {classes : ClassTree} {v : Value} {a b : ClassId}
    (hv : v.isInstance a classes = true) (hab : classes.isAssignable a b = true) :
    v.isInstance b classes = true :=
  classes.isAssignable_trans hv hab

/-- What the conversion makes of an instance of its source is an instance of its target. -/
def Conversion.KeepsClasses (classes : ClassTree) (e : Conversion) : Prop :=
  ∀ v w, v.isInstance e.source classes = true → e.run v = some w → w.isInstance e.target classes = true

theorem Conversion.KeepsClasses.andThen {classes : ClassTree} {f h : Conversion}
    (hf : f.KeepsClasses classes) (hh : h.KeepsClasses classes) (hmay : f.MayChain classes h) :
    (f.andThen h).KeepsClasses classes := by
  intro v w hv hrun
  obtain ⟨u, hu, hrun⟩ := Option.bind_eq_some_iff.1 hrun
  exact hh u w (Value.isInstance_trans (hf v u hv hu) hmay.meets) hrun

/-- If the accepted conversions keep their classes, all conversions of the graph do. -/
theorem History.keepsClasses {classes : ClassTree} (h : History)
    (haccepted : ∀ e ∈ h.accepted classes, e.KeepsClasses classes) :
    ∀ e ∈ (h.graph classes).edges, e.KeepsClasses classes :=
  h.keeps haccepted fun _ _ hf hh hmay => hf.andThen hh hmay

namespace ConversionGraph

/-- All conversions of the graph keep their classes. -/
def KeepsClasses (g : ConversionGraph) : Prop := ∀ e ∈ g.edges, e.KeepsClasses g.classes

section

variable {g : ConversionGraph} (hg : g.KeepsClasses) {source target : ClassId} {r : Route} {v w : Value}
include hg

/-- A route leads from instances of the one class to instances of the other. -/
theorem KeepsClasses.route? (hr : g.route? source target = some r)
    (hv : v.isInstance source g.classes = true) (hw : r.apply v g.classes = some w) :
    w.isInstance target g.classes = true := by
  obtain ⟨e, he, htakes⟩ := exists_takes_of_route? hr
  rw [r.apply_eq] at hw
  obtain ⟨hadmits, hw⟩ := Option.ite_none_right_eq_some.1 hw
  obtain ⟨hrun, hpasses⟩ := Option.filter_eq_some_iff.1 hw
  rw [htakes.run] at hrun
  exact htakes.output (hg e he v w (htakes.input hv hadmits) hrun) hpasses

theorem KeepsClasses.convert? (hw : g.convert? v target = some w) :
    w.isInstance target g.classes = true := by
  unfold ConversionGraph.convert? at hw
  split at hw
  · rename_i hv
    cases hw
    exact hv
  · obtain ⟨r, hr, hw⟩ := Option.bind_eq_some_iff.1 hw
    exact hg.route? hr (g.classes.isAssignable_refl v.kind) hw

end

end ConversionGraph

end Phrasebook
