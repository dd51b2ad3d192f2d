import Mathlib.Data.List.Dedup
import Mathlib.Data.List.Perm.Subperm
import Mathlib.Data.List.ProdSigma
import Phrasebook.Proofs.Conversion.Chain

/-!
Which chains are there once all have been added. Rows are gone through in turn, each with every
conversion there is by then, so a conversion that was there from the start is tried after every other
one. A chain that is added later is not tried after a conversion whose row is over. This is made up for
if the first part of the chain was: but the pair that it serves may have been served already, by a
conversion that leads no further. So the result is closed where nothing stands in the way of chaining
from the left, and need not be closed elsewhere.
-/

namespace Phrasebook.ConversionGraph

variable {g g' : ConversionGraph} {e f h : Conversion}

/-! ## How many conversions there may be -/

theorem Apart.nodup_ends (hg : g.Apart) : (g.edges.map fun e => (e.source, e.target)).Nodup := by
  refine List.pairwise_map.2 (List.Pairwise.imp (fun hef heq => hef ?_) hg)
  obtain ⟨hsource, htarget⟩ := Prod.mk.inj heq
  rw [hsource, htarget]
  exact ⟨g.related_self _, g.related_self _⟩

/-- A chain departs where a conversion departs that was there before, and arrives where one arrives. -/
theorem Grown.ends (hgrown : Grown g g') :
    ∀ e ∈ g'.edges, (∃ f ∈ g.edges, f.source = e.source) ∧ ∃ h ∈ g.edges, h.target = e.target :=
  hgrown.keeps (fun e he => ⟨⟨e, he, rfl⟩, ⟨e, he, rfl⟩⟩) fun _ _ hf hh _ => ⟨hf.1, hh.2⟩

/-- There is at most one conversion for each pair of a class where one departed before and a class where
one arrived. -/
theorem Grown.length_le_ends (hg : g.Apart) (hgrown : Grown g g') :
    g'.edges.length ≤ (g.edges.map (·.source)).dedup.length * (g.edges.map (·.target)).dedup.length := by
  have hsubset : (g'.edges.map fun e => (e.source, e.target)) ⊆
      (g.edges.map (·.source)).dedup ×ˢ (g.edges.map (·.target)).dedup := by
    intro p hp
    obtain ⟨e, he, rfl⟩ := List.mem_map.1 hp
    obtain ⟨⟨f, hf, hsource⟩, ⟨h, hh, htarget⟩⟩ := hgrown.ends e he
    refine List.mem_product.2 ⟨List.mem_dedup.2 ?_, List.mem_dedup.2 ?_⟩
    · exact List.mem_map.2 ⟨f, hf, hsource⟩
    · exact List.mem_map.2 ⟨h, hh, htarget⟩
  have hle := (List.Nodup.subperm (hg.grown hgrown).nodup_ends hsubset).length_le
  rwa [List.length_map, List.length_product] at hle

theorem Grown.length_le (hg : g.Apart) (hgrown : Grown g g') :
    g'.edges.length ≤ g.edges.length * g.edges.length := by
  have hsources := (List.dedup_sublist (g.edges.map (·.source))).length_le
  have htargets := (List.dedup_sublist (g.edges.map (·.target))).length_le
  rw [List.length_map] at hsources htargets
  exact (hgrown.length_le_ends hg).trans (Nat.mul_le_mul hsources htargets)

/-! ## What is served when a row is over -/

/-- If the two may be chained, the pair of their ends is served. -/
def ServesChain (g : ConversionGraph) (f h : Conversion) : Prop :=
  f.MayChain g.classes h → g.covers f.source h.target = true

theorem Grown.servesChain (hgrown : Grown g g') (hs : g.ServesChain f h) : g'.ServesChain f h := by
  intro hmay
  rw [hgrown.classes_eq] at hmay
  exact hgrown.covers (hs hmay)

theorem addChain_servesChain (hf : f ∈ g.edges) (hh : h ∈ g.edges) :
    (g.addChain f h).ServesChain f h := by
  intro hmay
  rw [(addChain_grown hf hh).classes_eq] at hmay
  unfold addChain
  cases he : g.chain? f h with
  | some e =>
    obtain ⟨-, -, rfl⟩ := chain?_eq_some_iff.1 he
    exact covers_of_mem (e := f.andThen h) (List.mem_append_right _ (List.mem_singleton_self _))
  | none =>
    by_contra huncovered
    have hsome := chain?_eq_some_iff.2 ⟨hmay, Bool.eq_false_iff.2 huncovered, rfl⟩
    rw [he] at hsome
    cases hsome

/-- When a row is over, its conversion has been tried with all there are. -/
theorem chainRow_servesChain {limit i fuel j k : Nat}
    (hlimit : ∀ g', Grown g g' → g'.edges.length ≤ limit) (hfuel : limit ≤ j + fuel) (hk : j ≤ k)
    (hf : (chainRow i fuel j g).edges[i]? = some f)
    (hh : (chainRow i fuel j g).edges[k]? = some h) : (chainRow i fuel j g).ServesChain f h := by
  induction fuel generalizing j g with
  | zero =>
    obtain ⟨hlt, -⟩ := List.getElem?_eq_some_iff.1 hh
    have := hlimit _ (chainRow_grown i 0 j g)
    omega
  | succ fuel ih =>
    cases hf' : g.edges[i]? with
    | none =>
      rw [chainRow_over (Or.inl hf'), hf'] at hf
      cases hf
    | some f' =>
      cases hh' : g.edges[j]? with
      | none =>
        rw [chainRow_over (Or.inr hh')] at hh
        obtain ⟨hlt, -⟩ := List.getElem?_eq_some_iff.1 hh
        have := List.getElem?_eq_none_iff.1 hh'
        omega
      | some h' =>
        have hmemf := List.mem_of_getElem? hf'
        have hmemh := List.mem_of_getElem? hh'
        have hgrown := addChain_grown hmemf hmemh
        have hrow := chainRow_grown i fuel (j + 1) (g.addChain f' h')
        rw [chainRow_step hf' hh'] at hf hh ⊢
        rcases Nat.eq_or_lt_of_le hk with rfl | hk
        · -- conversions keep their places, so these are the two that have just been tried
          cases ((hgrown.trans hrow).getElem? hf').symm.trans hf
          cases ((hgrown.trans hrow).getElem? hh').symm.trans hh
          exact hrow.servesChain (addChain_servesChain hmemf hmemh)
        · exact ih (fun g' hg' => hlimit g' (hgrown.trans hg')) (by omega) hk hf hh

/-- When all rows are over, every conversion has been tried with those there were at the start. -/
theorem chainRows_servesChain {limit fuel i r k : Nat}
    (hlimit : ∀ g', Grown g g' → g'.edges.length ≤ limit) (hfuel : limit ≤ i + fuel) (hr : i ≤ r)
    (hk : k < g.edges.length) (hf : (chainRows limit fuel i g).edges[r]? = some f)
    (hh : (chainRows limit fuel i g).edges[k]? = some h) :
    (chainRows limit fuel i g).ServesChain f h := by
  induction fuel generalizing i g with
  | zero =>
    obtain ⟨hlt, -⟩ := List.getElem?_eq_some_iff.1 hf
    have := hlimit _ (chainRows_grown limit 0 i g)
    omega
  | succ fuel ih =>
    rw [chainRows] at hf hh ⊢
    split at hf
    · rename_i hi
      rw [if_pos hi] at hh ⊢
      have hrow := chainRow_grown i limit 0 g
      have hrows := chainRows_grown limit fuel (i + 1) (chainRow i limit 0 g)
      have hle := hrow.length_mono
      have hk' : k < (chainRow i limit 0 g).edges.length := by omega
      rcases Nat.eq_or_lt_of_le hr with rfl | hr
      · have hi' : i < (chainRow i limit 0 g).edges.length := by omega
        have hf' := hrows.getElem? (List.getElem?_eq_getElem hi')
        have hh' := hrows.getElem? (List.getElem?_eq_getElem hk')
        cases hf'.symm.trans hf
        cases hh'.symm.trans hh
        have hserves := chainRow_servesChain (j := 0) (k := k) hlimit (by omega) (Nat.zero_le k)
          (List.getElem?_eq_getElem hi') (List.getElem?_eq_getElem hk')
        exact hrows.servesChain hserves
      · exact ih (fun g' hg' => hlimit g' (hrow.trans hg')) (by omega) hr hk' hf hh
    · rename_i hi
      obtain ⟨hlt, -⟩ := List.getElem?_eq_some_iff.1 hf
      omega

/-- A conversion that was there from the start has been tried after every other one. -/
theorem closure_servesChain (hg : g.Apart) (hf : f ∈ g.closure.edges) (hh : h ∈ g.edges) :
    g.closure.ServesChain f h := by
  obtain ⟨r, hf⟩ := List.mem_iff_getElem?.1 hf
  obtain ⟨k, hk, hh⟩ := List.mem_iff_getElem.1 hh
  have hh' := g.closure_grown.getElem? ((List.getElem?_eq_getElem hk).trans (congrArg some hh))
  refine chainRows_servesChain (i := 0) (fun g' hg' => ?_) (by omega) (Nat.zero_le r) hk hf hh'
  exact (hg'.length_le hg).trans (Nat.le_succ _)

/-! ## A second time -/

theorem addChain_eq_self (hs : g.ServesChain f h) : g.addChain f h = g := by
  unfold addChain
  cases he : g.chain? f h with
  | none => rfl
  | some e =>
    obtain ⟨hmay, huncovered, -⟩ := chain?_eq_some_iff.1 he
    rw [hs hmay] at huncovered
    cases huncovered

section

variable (hs : ∀ f ∈ g.edges, ∀ h ∈ g.edges, g.ServesChain f h)
include hs

theorem chainRow_eq_self (i fuel j : Nat) : chainRow i fuel j g = g := by
  induction fuel generalizing j with
  | zero => rfl
  | succ fuel ih =>
    cases hf : g.edges[i]? with
    | none => exact chainRow_over (Or.inl hf)
    | some f =>
      cases hh : g.edges[j]? with
      | none => exact chainRow_over (Or.inr hh)
      | some h =>
        have hserves := hs f (List.mem_of_getElem? hf) h (List.mem_of_getElem? hh)
        rw [chainRow_step hf hh, addChain_eq_self hserves, ih]

theorem chainRows_eq_self (limit fuel i : Nat) : chainRows limit fuel i g = g := by
  induction fuel generalizing i with
  | zero => rfl
  | succ fuel ih =>
    rw [chainRows]
    split
    · rw [chainRow_eq_self hs, ih]
    · rfl

end

/-- Nothing is added just when every chain is served. -/
theorem closure_eq_self_iff (hg : g.Apart) :
    g.closure = g ↔ ∀ f ∈ g.edges, ∀ h ∈ g.edges, g.ServesChain f h := by
  refine ⟨fun hclosure f hf h hh => ?_, fun hs => chainRows_eq_self hs _ _ _⟩
  have hserves := closure_servesChain hg (hclosure.symm ▸ hf) hh
  rwa [hclosure] at hserves

/-! ## Where nothing stands in the way -/

/-- No conversion is barred from coming first, and classes in which two conversions depart, or in which
two arrive, are the same or unrelated. -/
structure Unobstructed (g : ConversionGraph) : Prop where
  first : ∀ e ∈ g.edges, e.limits.notFirst = false
  sources : ∀ e ∈ g.edges, ∀ f ∈ g.edges, g.related e.source f.source = true → e.source = f.source
  targets : ∀ e ∈ g.edges, ∀ f ∈ g.edges, g.related e.target f.target = true → e.target = f.target

theorem Unobstructed.grown (hg : g.Unobstructed) (hgrown : Grown g g') : g'.Unobstructed where
  first := by
    refine hgrown.keeps hg.first fun f h hf hh _ => ?_
    exact Bool.or_eq_false_iff.2 ⟨hf, hh⟩
  sources e he f hf hrelated := by
    obtain ⟨⟨e', he', hsource⟩, -⟩ := hgrown.ends e he
    obtain ⟨⟨f', hf', hsource'⟩, -⟩ := hgrown.ends f hf
    unfold related at hrelated
    rw [hgrown.classes_eq, ← hsource, ← hsource'] at hrelated
    rw [← hsource, ← hsource', hg.sources e' he' f' hf' hrelated]
  targets e he f hf hrelated := by
    obtain ⟨-, e', he', htarget⟩ := hgrown.ends e he
    obtain ⟨-, f', hf', htarget'⟩ := hgrown.ends f hf
    unfold related at hrelated
    rw [hgrown.classes_eq, ← htarget, ← htarget'] at hrelated
    rw [← htarget, ← htarget', hg.targets e' he' f' hf' hrelated]

/-- What serves a chain does so from the very class where it departs to the very class where it
arrives. -/
theorem Unobstructed.exists_between (hg : g.Unobstructed) (hf : f ∈ g.edges) (hh : h ∈ g.edges)
    (hcovers : g.covers f.source h.target = true) :
    ∃ e ∈ g.edges, e.source = f.source ∧ e.target = h.target := by
  obtain ⟨e, he, hsource, htarget⟩ := covers_iff.1 hcovers
  exact ⟨e, he, hg.sources e he f hf hsource, hg.targets e he h hh htarget⟩

/-- Conversions that were there from the start can be put after any other one by one. -/
theorem exists_along (hg : g.Apart) (hu : g.Unobstructed) {hs : List Conversion} (hne : hs ≠ [])
    (hmem : ∀ c ∈ hs, c ∈ g.edges)
    (hlinked : hs.IsChain fun c d => g.classes.isAssignable c.target d.source = true)
    (hsecond : ∀ c ∈ hs, c.limits.notSecond = false) (hf : f ∈ g.closure.edges)
    (hmeets : g.classes.isAssignable f.target (hs.head hne).source = true) :
    ∃ e ∈ g.closure.edges, e.source = f.source ∧ e.target = (hs.getLast hne).target := by
  have hgrown := g.closure_grown
  have hu' := hu.grown hgrown
  induction hs generalizing f with
  | nil => exact absurd rfl hne
  | cons c hs ih =>
    have hc := hmem c List.mem_cons_self
    have hmay : f.MayChain g.closure.classes c :=
      ⟨hu'.first f hf, hsecond c List.mem_cons_self, hgrown.classes_eq ▸ hmeets⟩
    obtain ⟨e, he, hsource, htarget⟩ :=
      hu'.exists_between hf (hgrown.mem hc) (closure_servesChain hg hf hc hmay)
    cases hs with
    | nil => exact ⟨e, he, hsource, htarget⟩
    | cons d hs =>
      rw [List.isChain_cons_cons] at hlinked
      obtain ⟨e', he', hsource', htarget'⟩ := ih (List.cons_ne_nil d hs)
        (fun c hc => hmem c (List.mem_cons_of_mem _ hc)) hlinked.2
        (fun c hc => hsecond c (List.mem_cons_of_mem _ hc)) he (htarget ▸ hlinked.1)
      exact ⟨e', he', hsource'.trans hsource, htarget'⟩

theorem madeFrom_of_closure (hg : e ∈ g.closure.edges) : e.MadeFrom g.classes g.edges :=
  g.closure_grown.keeps (P := Conversion.MadeFrom g.classes g.edges) (fun _ he => .of_mem he)
    (fun _ _ hf hh hmay => hf.andThen hh hmay) e hg

theorem Unobstructed.servesChain (hu : g.Unobstructed) (hg : g.Apart) (hf : f ∈ g.closure.edges)
    (hh : h ∈ g.closure.edges) : g.closure.ServesChain f h := by
  intro hmay
  obtain ⟨hs, hmem, hmade⟩ := madeFrom_of_closure hh
  have hmeets : g.classes.isAssignable f.target (hs.head hmade.nonempty).source = true := by
    rw [hmade.source, ← g.closure_grown.classes_eq]
    exact hmay.meets
  obtain ⟨e, he, hsource, htarget⟩ := exists_along hg hu hmade.nonempty hmem hmade.linked
    (hmade.notSecond hmay.second) hf hmeets
  rw [← hsource, ← hmade.target, ← htarget]
  exact covers_of_mem he

end Phrasebook.ConversionGraph

namespace Phrasebook.History

open ConversionGraph

/-- After all chains have been added, whatever the graph has seen before, the chain of any conversion
with one that was there before is served. The chain of any two is served just when adding chains a
second time adds nothing; and so it is where nothing stands in the way. -/
theorem closure_serves (classes : ClassTree) (past : History) :
    (∀ f ∈ (past.close.graph classes).edges, ∀ h ∈ (past.graph classes).edges,
      f.MayChain classes h → (past.close.graph classes).covers f.source h.target = true) ∧
    (past.close.close.graph classes = past.close.graph classes ↔
      ∀ f ∈ (past.close.graph classes).edges, ∀ h ∈ (past.close.graph classes).edges,
        f.MayChain classes h → (past.close.graph classes).covers f.source h.target = true) ∧
    ((past.graph classes).Unobstructed →
      past.close.close.graph classes = past.close.graph classes) := by
  have hg : (past.graph classes).Apart := past.apart_graph
  have hclosed : (past.close.graph classes).Apart := past.close.apart_graph
  have hiff := closure_eq_self_iff hclosed
  have hclasses : (past.close.graph classes).classes = classes := past.close.classes_graph
  unfold ServesChain at hiff
  rw [hclasses] at hiff
  refine ⟨fun f hf h hh hmay => ?_, hiff, fun hu => hiff.2 fun f hf h hh hmay => ?_⟩
  · exact closure_servesChain hg hf hh (hclasses.symm ▸ hmay)
  · exact hu.servesChain hg hf hh (hclasses.symm ▸ hmay)

/-- Strings, truth values, integers and decimals in a row. -/
def inARow : History :=
  .register (.register (.register .start
    ⟨.string, .boolean, some, .none⟩) ⟨.boolean, .integer, some, .none⟩)
    ⟨.integer, .decimal, some, .none⟩

/-- Chains of the conversions in a row lead from strings to decimals, and one time adds them all. -/
theorem closure_serves_inARow :
    (∃ f ∈ (inARow.close.graph .builtin).edges, ∃ h ∈ (inARow.graph .builtin).edges,
      f.source = .string ∧ h.target = .decimal ∧ f.MayChain .builtin h ∧
        (inARow.close.graph .builtin).covers f.source h.target = true) ∧
    (inARow.graph .builtin).Unobstructed ∧
    inARow.close.close.graph .builtin = inARow.close.graph .builtin ∧
    ∀ f ∈ (inARow.close.graph .builtin).edges, ∀ h ∈ (inARow.close.graph .builtin).edges,
      f.MayChain .builtin h → (inARow.close.graph .builtin).covers f.source h.target = true := by
  obtain ⟨hserves, hiff, hunobstructed⟩ := closure_serves .builtin inARow
  have hu : (inARow.graph .builtin).Unobstructed :=
    ⟨by decide, by decide, by decide⟩
  refine ⟨?_, hu, hunobstructed hu, hiff.1 (hunobstructed hu)⟩
  obtain ⟨f, hf, hsource, hmay⟩ : ∃ f, (inARow.close.graph .builtin).edges[3]? = some f ∧
      f.source = .string ∧ f.MayChain .builtin ⟨.integer, .decimal, some, .none⟩ :=
    ⟨_, rfl, rfl, ⟨rfl, rfl, rfl⟩⟩
  have hf := List.mem_of_getElem? hf
  have hh : (⟨.integer, .decimal, some, .none⟩ : Conversion) ∈ (inARow.graph .builtin).edges :=
    List.mem_of_getElem? (rfl : (inARow.graph .builtin).edges[2]? = _)
  exact ⟨f, hf, _, hh, hsource, rfl, hmay, hserves f hf _ hh hmay⟩

/-- As in a row, and there is a conversion from strings to integers that must not come first. -/
def detour : History := .register inARow ⟨.string, .integer, some, ⟨true, false⟩⟩

/-- The barred conversion keeps the chain from strings to integers away, which leads on to decimals. The
chain from truth values to decimals is added when the row of strings is over, so after all chains have
been added it and the conversion before it may be chained, their pair is not served, and adding chains
again adds one. -/
theorem not_closure_serves_detour :
    (∃ f ∈ (detour.close.graph .builtin).edges, ∃ h ∈ (detour.close.graph .builtin).edges,
      f.MayChain .builtin h ∧ (detour.close.graph .builtin).covers f.source h.target = false) ∧
    (detour.close.graph .builtin).edges.length = 5 ∧
    (detour.close.close.graph .builtin).edges.length = 6 := by
  refine ⟨?_, rfl, rfl⟩
  obtain ⟨f, hf, hsource, h, hh, htarget, hmay⟩ :
      ∃ f, (detour.close.graph .builtin).edges[0]? = some f ∧ f.source = .string ∧
        ∃ h, (detour.close.graph .builtin).edges[4]? = some h ∧ h.target = .decimal ∧
          f.MayChain .builtin h :=
    ⟨_, rfl, rfl, _, rfl, rfl, ⟨rfl, rfl, rfl⟩⟩
  refine ⟨f, List.mem_of_getElem? hf, h, List.mem_of_getElem? hh, hmay, ?_⟩
  rw [hsource, htarget]
  rfl

end Phrasebook.History
