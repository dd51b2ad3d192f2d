import Phrasebook.Proofs.Conversion.Chain
import Phrasebook.Proofs.Conversion.Paired
import Phrasebook.Proofs.Conversion.Typed

/-!
What conversions may rely on. A conversion is written for the values of the class where it departs. If all
of them keep their classes, no other value is ever handed to one: not by a route, and not by the
conversion before it in a chain. So it does not matter what a conversion would make of other values.
-/

namespace Phrasebook

namespace Conversion

variable {classes : ClassTree} {e e' f f' : Conversion} {es : List Conversion}

/-- The conversions that are applied one after the other until one has no result, each with the value
that it is applied to. -/
def applications : List Conversion → Value → List (Conversion × Value)
  | [], _ => []
  | e :: es, v =>
    (e, v) :: match e.run v with
      | some w => applications es w
      | none => []

/-- Where each conversion leads on from the one before, all are handed values of their own sources. -/
theorem isInstance_of_mem_applications (hkeeps : ∀ e ∈ es, e.KeepsClasses classes)
    (hlinked : es.IsChain fun c d => classes.isAssignable c.target d.source = true) {v : Value}
    (hv : ∀ e ∈ es.head?, v.isInstance e.source classes = true) :
    ∀ a ∈ applications es v, a.2.isInstance a.1.source classes = true := by
  induction es generalizing v with
  | nil => exact fun a ha => absurd ha List.not_mem_nil
  | cons e es ih =>
    have hfirst := hv e rfl
    intro a ha
    rcases List.mem_cons.1 ha with rfl | ha
    · exact hfirst
    cases hw : e.run v with
    | none =>
      rw [hw] at ha
      cases ha
    | some w =>
      rw [hw] at ha
      have hmade := hkeeps e List.mem_cons_self v w hfirst hw
      refine ih (fun c hc => hkeeps c (List.mem_cons_of_mem e hc)) hlinked.tail (fun d hd => ?_) a ha
      exact Value.isInstance_trans hmade (List.isChain_cons.1 hlinked |>.1 d hd)

/-- The first conversion keeps its classes, and the second one does the same with instances of its
source. -/
structure AlikeInside (classes : ClassTree) (e e' : Conversion) : Prop where
  ends : e.SameEnds e'
  keeps : e.KeepsClasses classes
  run : ∀ v, v.isInstance e.source classes = true → e'.run v = e.run v

theorem AlikeInside.andThen (he : e.AlikeInside classes e') (hf : f.AlikeInside classes f')
    (hmay : e.MayChain classes f) : (e.andThen f).AlikeInside classes (e'.andThen f') where
  ends := by
    refine ⟨he.ends.source, hf.ends.target, ?_⟩
    exact congrArg₂ ChainLimits.union he.ends.limits hf.ends.limits
  keeps := he.keeps.andThen hf.keeps hmay
  run v hv := by
    refine (congrArg (·.bind f'.run) (he.run v hv)).trans (Option.bind_congr fun u hu => ?_)
    exact hf.run u (Value.isInstance_trans (he.keeps v u hv hu) hmay.meets)

theorem AlikeInside.congruence (classes : ClassTree) :
    ConversionGraph.Congruence classes (AlikeInside classes) :=
  ⟨fun h => h.ends, fun he hf hmay => he.andThen hf hmay⟩

/-- The conversion where it is meant to be used, and the function for all other values. -/
def outside (classes : ClassTree) (other : Value → Option Value) (e : Conversion) : Conversion :=
  { e with run := fun v => if v.isInstance e.source classes then e.run v else other v }

theorem sameEnds_outside (e : Conversion) (other : Value → Option Value) :
    e.SameEnds (e.outside classes other) := ⟨rfl, rfl, rfl⟩

theorem alikeInside_outside (h : e.KeepsClasses classes) (other : Value → Option Value) :
    e.AlikeInside classes (e.outside classes other) :=
  ⟨e.sameEnds_outside other, h, fun _ hv => if_pos hv⟩

end Conversion

namespace ConversionGraph.Paired

open Conversion

variable {g g' : ConversionGraph} (h : Paired (AlikeInside g.classes) g g')
include h

/-- The routes treat the instances of the class from which they lead alike. -/
theorem route? (source target : ClassId) : Option.Rel
    (fun r r' => ∀ v, v.isInstance source g.classes = true →
      Route.apply r' v g'.classes = Route.apply r v g.classes)
    (g.route? source target) (g'.route? source target) := by
  unfold ConversionGraph.route?
  dsimp only
  rw [h.classes_eq]
  refine or_rel (findSome?_rel h.edges fun e e' he => ?_)
    (or_rel (findSome?_rel h.edges fun e e' he => ?_) (findSome?_rel h.edges fun e e' he => ?_))
  · rw [he.ends.source, he.ends.target]
    split
    · rename_i hfits
      rw [Bool.and_eq_true] at hfits
      exact .some fun v hv => he.run v (Value.isInstance_trans hv hfits.1)
    · exact .none
  · rw [he.ends.source, he.ends.target]
    split
    · rename_i hfits
      rw [Bool.and_eq_true] at hfits
      refine .some fun v hv => ?_
      exact congrArg (·.filter (·.isInstance target g.classes))
        (he.run v (Value.isInstance_trans hv hfits.1))
    · split
      · exact .some fun v _ => ite_congr rfl (he.run v) fun _ => rfl
      · exact .none
  · rw [he.ends.source, he.ends.target]
    split
    · refine .some fun v _ => ite_congr rfl (fun hv => ?_) fun _ => rfl
      exact congrArg (·.filter (·.isInstance target g.classes)) (he.run v hv)
    · exact .none

theorem apply_route?_eq {source : ClassId} {v : Value} (hv : v.isInstance source g.classes = true)
    (target : ClassId) :
    (g'.route? source target).bind (·.apply v g'.classes) =
      (g.route? source target).bind (·.apply v g.classes) := by
  have hroutes := h.route? source target
  generalize g.route? source target = r? at hroutes
  generalize g'.route? source target = r'? at hroutes
  cases hroutes with
  | none => rfl
  | some happly => exact happly v hv

theorem convert?_eq (v : Value) (target : ClassId) : g'.convert? v target = g.convert? v target := by
  unfold ConversionGraph.convert?
  rw [h.apply_route?_eq (g.classes.isAssignable_refl v.kind) target, h.classes_eq]

end ConversionGraph.Paired

namespace History

open ConversionGraph

/-- The same calls, where every conversion does something else with values outside its source. -/
def outside (classes : ClassTree) (other : Conversion → Value → Option Value) (h : History) : History :=
  h.map fun e => e.outside classes (other e)

section

variable {classes : ClassTree} {h : History} (haccepted : ∀ e ∈ h.accepted classes, e.KeepsClasses classes)
include haccepted

theorem keepsClasses_graph : (h.graph classes).KeepsClasses := by
  unfold ConversionGraph.KeepsClasses
  rw [h.classes_graph]
  exact h.keepsClasses haccepted

/-- A route runs accepted conversions one after the other. -/
theorem exists_applications {source target : ClassId} {r : Route}
    (hr : (h.graph classes).route? source target = some r) :
    ∃ es, (∀ e ∈ es, e ∈ h.accepted classes) ∧
      (∀ v, r.run v = es.foldlM (fun v e => e.run v) v) ∧
      ∀ v, v.isInstance source classes = true → r.admits v classes = true →
        ∀ a ∈ Conversion.applications es v, a.2.isInstance a.1.source classes = true := by
  obtain ⟨e, he, htakes⟩ := exists_takes_of_route? hr
  obtain ⟨es, hes, hmade⟩ := h.keeps (P := Conversion.MadeFrom classes (h.accepted classes))
    (fun _ he => .of_mem he) (fun _ _ hf hh hmay => hf.andThen hh hmay) e he
  refine ⟨es, hes, fun v => htakes.run ▸ hmade.run v, ?_⟩
  intro v hv hadmits
  apply Conversion.isInstance_of_mem_applications (fun c hc => haccepted c (hes c hc)) hmade.linked
  intro c hc
  rw [List.head?_eq_some_head hmade.nonempty] at hc
  cases hc
  rw [hmade.source]
  rw [h.classes_graph] at htakes
  exact htakes.input hv hadmits

theorem paired_outside (other : Conversion → Value → Option Value) :
    Paired (Conversion.AlikeInside (h.graph classes).classes) (h.graph classes)
      ((h.outside classes other).graph classes) := by
  rw [h.classes_graph]
  apply h.paired_map (Conversion.AlikeInside.congruence classes)
  · exact fun e => e.sameEnds_outside (other e)
  · exact fun e he => Conversion.alikeInside_outside (haccepted e he) (other e)

end

/-- If the accepted conversions keep their classes, then what is converted to a class is an instance of
it, also along a route that was asked for by a class the value belongs to. On the way each accepted
conversion is applied to instances of its own source only; nothing changes if it does something else with
other values. -/
theorem contract_kept (classes : ClassTree) (h : History)
    (haccepted : ∀ e ∈ h.accepted classes, e.KeepsClasses classes) :
    (∀ v target w, (h.graph classes).convert? v target = some w →
      w.isInstance target classes = true) ∧
    (∀ source target r v w, (h.graph classes).route? source target = some r →
      v.isInstance source classes = true → r.apply v classes = some w →
      w.isInstance target classes = true) ∧
    (∀ source target r, (h.graph classes).route? source target = some r →
      ∃ es, (∀ e ∈ es, e ∈ h.accepted classes) ∧
        (∀ v, r.run v = es.foldlM (fun v e => e.run v) v) ∧
        ∀ v, v.isInstance source classes = true → r.admits v classes = true →
          ∀ a ∈ Conversion.applications es v, a.2.isInstance a.1.source classes = true) ∧
    ∀ other v target,
      ((h.outside classes other).graph classes).convert? v target = (h.graph classes).convert? v target ∧
      ∀ source, v.isInstance source classes = true →
        (((h.outside classes other).graph classes).route? source target).bind (·.apply v classes) =
          ((h.graph classes).route? source target).bind (·.apply v classes) := by
  have hclasses : (h.graph classes).classes = classes := h.classes_graph
  have hg := keepsClasses_graph haccepted
  refine ⟨?_, ?_, fun _ _ _ hr => exists_applications haccepted hr, ?_⟩
  · intro v target w hw
    rw [← hclasses]
    exact hg.convert? hw
  · intro source target r v w hr hv hw
    rw [← hclasses] at hv hw ⊢
    exact hg.route? hr hv hw
  · intro other v target
    have hpaired := paired_outside haccepted other
    refine ⟨hpaired.convert?_eq v target, fun source hv => ?_⟩
    rw [← hclasses] at hv
    have hroutes := hpaired.apply_route?_eq hv target
    rwa [hpaired.classes_eq, hclasses] at hroutes

/-- Integers as truth values and these as strings, with the chain of both. -/
def answers : History :=
  .close (.register (.register .start
    ⟨.integer, .boolean, fun v => v.asInteger.toOption.map fun n => .boolean (n != 0), .none⟩)
    ⟨.boolean, .string, fun v => v.asBoolean.toOption.map fun b => .string (if b then "yes" else "no"),
      .none⟩)

theorem keepsClasses_answers : ∀ e ∈ answers.accepted .builtin, e.KeepsClasses .builtin := by
  intro e he
  rcases List.mem_pair.1 he with rfl | rfl
  · intro v w _ hw
    obtain ⟨n, -, rfl⟩ := Option.map_eq_some_iff.1 hw
    rfl
  · intro v w _ hw
    obtain ⟨b, -, rfl⟩ := Option.map_eq_some_iff.1 hw
    rfl

/-- A number goes by the chain if it turns out to be an integer, and whatever the two conversions would
make of other values, it becomes the same string. -/
theorem contract_kept_answers :
    ∃ r w, (answers.graph .builtin).route? .number .string = some r ∧
      r.admits (.integer 5) .builtin = true ∧ r.admits (.decimal 0.5) .builtin = false ∧
      r.apply (.integer 5) .builtin = some w ∧ w.isInstance .string .builtin = true ∧
      (∃ es, (∀ e ∈ es, e ∈ answers.accepted .builtin) ∧
        r.run (.integer 5) = es.foldlM (fun v e => e.run v) (.integer 5) ∧
        ∀ a ∈ Conversion.applications es (.integer 5), a.2.isInstance a.1.source .builtin = true) ∧
      ∀ other, ((answers.outside .builtin other).graph .builtin).convert? (.integer 5) .string =
        (answers.graph .builtin).convert? (.integer 5) .string := by
  obtain ⟨-, hinstance, hruns, hother⟩ := contract_kept .builtin answers keepsClasses_answers
  obtain ⟨r, hr, hadmits, hrefuses, hw⟩ : ∃ r, (answers.graph .builtin).route? .number .string = some r ∧
      r.admits (.integer 5) .builtin = true ∧ r.admits (.decimal 0.5) .builtin = false ∧
      r.apply (.integer 5) .builtin = some (.string "yes") := ⟨_, rfl, rfl, rfl, rfl⟩
  obtain ⟨es, hes, hrun, hinputs⟩ := hruns .number .string r hr
  refine ⟨r, .string "yes", hr, hadmits, hrefuses, hw, ?_, ?_, fun other => ?_⟩
  · exact hinstance .number .string r (.integer 5) _ hr rfl hw
  · exact ⟨es, hes, hrun _, hinputs _ rfl hadmits⟩
  · exact (hother other (.integer 5) .string).1

end History

end Phrasebook
