import Mathlib.Data.List.Induction
import Phrasebook.Proofs.Class
import Phrasebook.Proofs.Except
import Phrasebook.TypeIndex

/-!
Types after any sequence of registrations. Both indexes lead where a search through the list would, so a
spelling belongs to one type at most, and a class leads to the type that was registered first for the
nearest of its ancestors that has one. Registrations that fail leave nothing behind.
-/

namespace Phrasebook

/-! ## Declarations -/

theorem Text.length_splitWhen (sep : Char) (t : Text) :
    (Text.splitWhen (· == sep) t).length = t.count sep + 1 := by
  induction t with
  | nil => rfl
  | cons c t ih =>
    rw [Text.splitWhen, List.count_cons]
    split
    · rw [List.length_cons, ih]
    · split
      · rename_i hnil
        rw [hnil] at ih
        cases ih
      · rename_i hcons
        rw [hcons] at ih
        exact ih

namespace Spellings

/-- A declaration without words, or with a word that has more than two endings. -/
def Malformed (spec : Text) : Prop :=
  Text.words spec = [] ∨ ∃ word ∈ Text.words spec, 2 < word.count markSign

theorem ofWord?_eq_none_iff {word : Text} : ofWord? word = none ↔ 2 < word.count markSign := by
  have hlength := Text.length_splitWhen markSign word
  unfold ofWord?
  generalize Text.splitWhen (· == markSign) word = pieces at hlength
  match pieces with
  | [] => cases hlength
  | [_] | [_, _] | [_, _, _] =>
    simp only [List.length_cons, List.length_nil] at hlength
    simp only [reduceCtorEq, false_iff]
    omega
  | _ :: _ :: _ :: _ :: rest =>
    simp only [List.length_cons] at hlength
    simp only [true_iff]
    omega

theorem ofSpec?_eq_none_iff {spec : Text} : ofSpec? spec = none ↔ Malformed spec := by
  have hword : (Text.words spec).mapM ofWord? = none ↔
      ∃ word ∈ Text.words spec, 2 < word.count markSign := by
    simp only [mapM_eq_none_iff, ofWord?_eq_none_iff]
  rw [Malformed, ← hword, ofSpec?]
  cases hforms : (Text.words spec).mapM ofWord? with
  | none => simp
  | some forms =>
    have hlength := length_of_mapM_eq_some hforms
    have hnil : forms = [] ↔ Text.words spec = [] := by
      rw [← List.length_eq_zero_iff, hlength, List.length_eq_zero_iff]
    simp [← hnil]

end Spellings

/-! ## The indexes -/

namespace ValueType

def HasSpelling (t : ValueType) (name : String) : Prop :=
  t.spellings.singular = name ∨ t.spellings.plural = name

theorem isCalled_iff {t : ValueType} {name : String} : t.isCalled name = true ↔ t.HasSpelling name := by
  rw [isCalled, Bool.or_eq_true, beq_iff_eq, beq_iff_eq]
  rfl

end ValueType

theorem lookup_put {K V : Type} [BEq K] [LawfulBEq K] (key k : K) (v : V) (m : List (K × V)) :
    ((k, v) :: m).lookup key = if key == k then some v else m.lookup key := by
  rw [List.lookup_cons]
  cases key == k <;> rfl

theorem TypeTable.isSome_byName?_iff {types : TypeTable} {name : String} :
    (types.byName? name).isSome = true ↔ ∃ t ∈ types.types, t.HasSpelling name := by
  simp only [byName?, List.find?_isSome, ValueType.isCalled_iff]

namespace TypeIndex

variable {r : TypeIndex}

/-- The types without their indexes. -/
def table (r : TypeIndex) : TypeTable := ⟨r.types⟩

/-- The indexes lead to what a search through the list finds, and a spelling has one type only. -/
structure Consistent (r : TypeIndex) : Prop where
  ids : ∀ (i : Nat) (t : ValueType), r.types[i]? = some t → t.id = ⟨i⟩
  spelled : ∀ name, r.spelled.lookup name = (r.table.byName? name).map (·.id)
  firstOf : ∀ c, r.firstOf.lookup c = (r.types.find? (·.kind == c)).map (·.id)
  unique : ∀ t ∈ r.types, ∀ name, t.HasSpelling name → r.table.byName? name = some t

theorem consistent_empty : Consistent empty where
  ids := by simp [empty]
  spelled _ := rfl
  firstOf _ := rfl
  unique := by simp [empty]

theorem Consistent.isSome_lookup_iff (h : r.Consistent) {name : String} :
    (r.spelled.lookup name).isSome = true ↔ ∃ t ∈ r.types, t.HasSpelling name := by
  rw [h.spelled, Option.isSome_map]
  exact TypeTable.isSome_byName?_iff

def push (r : TypeIndex) (t : ValueType) : TypeIndex where
  types := r.types ++ [t]
  spelled := (t.spellings.plural, t.id) :: (t.spellings.singular, t.id) :: r.spelled
  firstOf := if (r.firstOf.lookup t.kind).isSome then r.firstOf else (t.kind, t.id) :: r.firstOf

theorem byName?_push (r : TypeIndex) (t : ValueType) (name : String) :
    (r.push t).table.byName? name =
      (r.table.byName? name).or (if t.isCalled name then some t else none) := by
  rw [table, TypeTable.byName?, push, List.find?_append, List.find?_singleton]
  rfl

theorem lookup_spelled_push (r : TypeIndex) (t : ValueType) (name : String) :
    (r.push t).spelled.lookup name =
      if t.isCalled name then some t.id else r.spelled.lookup name := by
  rw [push, lookup_put, lookup_put]
  by_cases hname : t.HasSpelling name
  · rw [if_pos (ValueType.isCalled_iff.2 hname)]
    rcases hname with rfl | rfl <;> simp
  · rw [if_neg (ValueType.isCalled_iff.not.2 hname)]
    rw [ValueType.HasSpelling, not_or] at hname
    rw [if_neg (by simpa using Ne.symm hname.2), if_neg (by simpa using Ne.symm hname.1)]

theorem lookup_firstOf_push (r : TypeIndex) (t : ValueType) (c : ClassId) :
    (r.push t).firstOf.lookup c =
      (r.firstOf.lookup c).or (if t.kind == c then some t.id else none) := by
  rw [push]
  by_cases hc : t.kind = c
  · subst hc
    cases hold : r.firstOf.lookup t.kind <;> simp [hold]
  · have hput : ((t.kind, t.id) :: r.firstOf).lookup c = r.firstOf.lookup c := by
      rw [lookup_put, if_neg (by rw [beq_iff_eq]; exact Ne.symm hc)]
    simp only [beq_false_of_ne hc, Bool.false_eq_true, if_false, Option.or_none]
    split
    · rfl
    · exact hput

theorem Consistent.push (h : r.Consistent) {t : ValueType} (hid : t.id = ⟨r.types.length⟩)
    (hfree : ∀ name, t.HasSpelling name → r.spelled.lookup name = none) :
    (r.push t).Consistent := by
  have hnone {name : String} (hname : t.HasSpelling name) : r.table.byName? name = none := by
    have hlookup := hfree name hname
    rw [h.spelled] at hlookup
    exact Option.map_eq_none_iff.1 hlookup
  refine ⟨fun i u hu => ?_, fun name => ?_, fun c => ?_, fun u hu name hname => ?_⟩
  · rw [TypeIndex.push, List.getElem?_append] at hu
    split at hu
    · exact h.ids i u hu
    · rename_i hi
      obtain ⟨hzero, rfl⟩ : i - r.types.length = 0 ∧ t = u := by
        simpa [List.getElem?_singleton] using hu
      rw [hid]
      congr 1
      omega
  · rw [lookup_spelled_push, byName?_push]
    split
    · rename_i hname
      rw [hnone (ValueType.isCalled_iff.1 hname), Option.none_or, Option.map_some]
    · rw [Option.or_none, h.spelled]
  · have hfind : (r.push t).types.find? (·.kind == c) =
        (r.types.find? (·.kind == c)).or (if t.kind == c then some t else none) := by
      rw [TypeIndex.push, List.find?_append, List.find?_singleton]
    rw [lookup_firstOf_push, hfind, h.firstOf]
    cases r.types.find? (·.kind == c) with
    | some u => rfl
    | none => cases t.kind == c <;> rfl
  · rw [byName?_push]
    rcases List.mem_append.1 hu with hu | hu
    · rw [h.unique u hu name hname]
      rfl
    · obtain rfl := List.mem_singleton.1 hu
      rw [hnone hname, Option.none_or, if_pos (ValueType.isCalled_iff.2 hname)]

/-! ## Calls -/

/-- What a call does: it gives an error and changes nothing, or it adds a type under free spellings. -/
theorem register_cases (r : TypeIndex) (d : TypeDeclaration) :
    (Spellings.ofSpec? d.spec = none ∧ r.register d = (.error (.invalidSpec d.spec), r)) ∨
    (∃ s, Spellings.ofSpec? d.spec = some s ∧
      ((r.spelled.lookup s.singular).isSome ∨ (r.spelled.lookup s.plural).isSome) ∧
      r.register d = (.error (.alreadyRegistered s.singular), r)) ∨
    ∃ s, Spellings.ofSpec? d.spec = some s ∧ r.spelled.lookup s.singular = none ∧
      r.spelled.lookup s.plural = none ∧
      r.register d =
        (.ok ⟨r.types.length⟩, r.push ⟨⟨r.types.length⟩, s, d.kind, d.parse?, d.display?⟩) := by
  unfold register
  cases hs : Spellings.ofSpec? d.spec with
  | none => exact .inl ⟨rfl, rfl⟩
  | some s =>
    refine .inr ?_
    dsimp only
    split
    · rename_i htaken
      exact .inl ⟨s, rfl, by simpa using htaken, rfl⟩
    · rename_i hfree
      simp only [Bool.or_eq_true, not_or, Option.not_isSome_iff_eq_none] at hfree
      exact .inr ⟨s, rfl, hfree.1, hfree.2, rfl⟩

theorem register_of_error {d : TypeDeclaration} {e : TypeError} (h : (r.register d).1 = .error e) :
    (r.register d).2 = r := by
  rcases r.register_cases d with ⟨-, heq⟩ | ⟨s, -, -, heq⟩ | ⟨s, -, -, -, heq⟩
  · rw [heq]
  · rw [heq]
  · rw [heq] at h
    cases h

theorem register_of_ok {d : TypeDeclaration} {id : TypeId} (h : (r.register d).1 = .ok id) :
    id = ⟨r.types.length⟩ ∧ ∃ t, (r.register d).2.types = r.types ++ [t] ∧ t.id = id ∧
      Spellings.ofSpec? d.spec = some t.spellings ∧ t.kind = d.kind := by
  rcases r.register_cases d with ⟨-, heq⟩ | ⟨s, -, -, heq⟩ | ⟨s, hs, -, -, heq⟩
  · rw [heq] at h
    cases h
  · rw [heq] at h
    cases h
  · rw [heq] at h ⊢
    cases h
    exact ⟨rfl, _, rfl, rfl, hs, rfl⟩

theorem Consistent.register (h : r.Consistent) (d : TypeDeclaration) :
    (r.register d).2.Consistent := by
  rcases r.register_cases d with ⟨-, heq⟩ | ⟨s, -, -, heq⟩ | ⟨s, -, hsingular, hplural, heq⟩ <;>
    rw [heq]
  · exact h
  · exact h
  · apply h.push rfl
    rintro name (rfl | rfl)
    · exact hsingular
    · exact hplural

/-- The types after some calls, whatever each of them gave. -/
def after (ds : List TypeDeclaration) : TypeIndex := ds.foldl (fun r d => (r.register d).2) empty

theorem consistent_after (ds : List TypeDeclaration) : (after ds).Consistent := by
  induction ds using List.reverseRecOn with
  | nil => exact consistent_empty
  | append_singleton ds d ih =>
    rw [after, List.foldl_append]
    exact ih.register d

end TypeIndex

def TypeTable.after (ds : List TypeDeclaration) : TypeTable :=
  ds.foldl (fun types d => ((types.register d).toOption.map (·.2)).getD types) .empty

namespace TypeIndex

variable {r : TypeIndex}

/-- The table answers a registration in the same way. -/
theorem Consistent.register_table (h : r.Consistent) (d : TypeDeclaration) :
    r.table.register d = (r.register d).1.map fun id => (id, (r.register d).2.table) := by
  have hlookup (name : String) :
      (r.table.byName? name).isSome = (r.spelled.lookup name).isSome := by
    rw [h.spelled, Option.isSome_map]
  unfold TypeTable.register TypeIndex.register
  cases Spellings.ofSpec? d.spec with
  | none => rfl
  | some s =>
    simp only [hlookup]
    split <;> rfl

theorem table_after (ds : List TypeDeclaration) : TypeTable.after ds = (after ds).table := by
  induction ds using List.reverseRecOn with
  | nil => rfl
  | append_singleton ds d ih =>
    rw [after, TypeTable.after, List.foldl_append, List.foldl_append]
    change (((TypeTable.after ds).register d).toOption.map (·.2)).getD (TypeTable.after ds) =
      ((after ds).register d).2.table
    rw [ih, (consistent_after ds).register_table]
    rcases (after ds).register_cases d with ⟨-, heq⟩ | ⟨s, -, -, heq⟩ | ⟨s, -, -, -, heq⟩ <;>
      rw [heq] <;> rfl

/-! ## Lookups -/

theorem Consistent.get?_eq_some_iff (h : r.Consistent) {id : TypeId} {t : ValueType} :
    r.get? id = some t ↔ t ∈ r.types ∧ t.id = id := by
  constructor
  · intro ht
    exact ⟨List.mem_of_getElem? ht, h.ids _ t ht⟩
  · rintro ⟨ht, rfl⟩
    obtain ⟨i, hi⟩ := List.getElem?_of_mem ht
    rw [get?, h.ids i t hi]
    exact hi

/-- An index that leads where a search leads gives what the search finds. -/
theorem Consistent.get?_map (h : r.Consistent) (p : ValueType → Bool) :
    ((r.types.find? p).map (·.id)).bind r.get? = r.types.find? p := by
  cases ht : r.types.find? p with
  | none => rfl
  | some t => exact h.get?_eq_some_iff.2 ⟨List.mem_of_find?_eq_some ht, rfl⟩

theorem Consistent.byName?_eq (h : r.Consistent) (name : String) :
    r.byName? name = r.table.byName? name := by
  rw [byName?, h.spelled]
  exact h.get?_map _

theorem Consistent.byName?_eq_some_iff (h : r.Consistent) {name : String} {t : ValueType} :
    r.byName? name = some t ↔ t ∈ r.types ∧ t.HasSpelling name := by
  rw [h.byName?_eq]
  constructor
  · intro ht
    have hcalled := List.find?_some ht
    exact ⟨List.mem_of_find?_eq_some ht, ValueType.isCalled_iff.1 hcalled⟩
  · rintro ⟨ht, hname⟩
    exact h.unique t ht name hname

theorem Consistent.byClass?_eq (h : r.Consistent) (c : ClassId) (classes : ClassTree) :
    r.byClass? c classes = r.table.byClass? c classes := by
  have htypes : r.table.types = r.types := rfl
  rw [byClass?, TypeTable.byClass?, htypes]
  generalize classes.ancestors c = line
  induction line with
  | nil => rfl
  | cons a line ih =>
    have hfirst := h.get?_map (·.kind == a)
    rw [List.findSome?_cons, List.findSome?_cons, h.firstOf]
    cases ht : r.types.find? (·.kind == a) with
    | none => exact ih
    | some t =>
      rw [ht] at hfirst
      exact hfirst

/-- The type that was registered first for the nearest class, from `c` upwards, that has a type. -/
structure Nearest (r : TypeIndex) (classes : ClassTree) (c : ClassId) (t : ValueType) : Prop where
  mem : t ∈ r.types
  above : Relation.ReflTransGen classes.IsParent c t.kind
  nearest : ∀ u ∈ r.types, Relation.ReflTransGen classes.IsParent c u.kind →
    Relation.ReflTransGen classes.IsParent t.kind u.kind
  first : ∀ u ∈ r.types, u.kind = t.kind → t.id.index ≤ u.id.index

variable {classes : ClassTree} {c : ClassId} {t u : ValueType}

theorem Nearest.eq (h : r.Consistent) (ht : r.Nearest classes c t) (hu : r.Nearest classes c u) :
    t = u := by
  have hkind : t.kind = u.kind :=
    ClassTree.reaches_antisymm (ht.nearest u hu.mem hu.above) (hu.nearest t ht.mem ht.above)
  have hid : t.id.index = u.id.index :=
    Nat.le_antisymm (ht.first u hu.mem hkind.symm) (hu.first t ht.mem hkind)
  have ht' : r.get? t.id = some t := h.get?_eq_some_iff.2 ⟨ht.mem, rfl⟩
  have hu' : r.get? u.id = some u := h.get?_eq_some_iff.2 ⟨hu.mem, rfl⟩
  rw [get?, hid] at ht'
  exact Option.some.inj (ht'.symm.trans hu')

/-- The first type of a class in the list is the one with the smallest id. -/
theorem Consistent.id_le_of_find? (h : r.Consistent) (ht : r.types.find? (·.kind == c) = some t)
    (hu : u ∈ r.types) (hkind : u.kind = c) : t.id.index ≤ u.id.index := by
  obtain ⟨-, front, back, htypes, hfront⟩ := List.find?_eq_some_iff_append.1 ht
  have hid : t.id.index = front.length := by
    rw [h.ids front.length t (by simp [htypes])]
  obtain ⟨i, hi⟩ := List.getElem?_of_mem hu
  rw [hid, h.ids i u hi]
  by_contra hlt
  have hmem : u ∈ front := by
    rw [htypes, List.getElem?_append_left (Nat.lt_of_not_le hlt)] at hi
    exact List.mem_of_getElem? hi
  have hother := hfront u hmem
  simp [hkind] at hother

theorem Consistent.nearest_of_byClass? (h : r.Consistent) (ht : r.byClass? c classes = some t) :
    r.Nearest classes c t := by
  rw [h.byClass?_eq, TypeTable.byClass?] at ht
  obtain ⟨near, a, far, hline, hfind, hnone⟩ := List.findSome?_eq_some_iff.1 ht
  have hkind : t.kind = a := by simpa using List.find?_some hfind
  subst hkind
  have habove (b : ClassId) : b ∈ near ++ t.kind :: far ↔
      Relation.ReflTransGen classes.IsParent c b := by
    rw [← hline, ClassTree.mem_ancestors_iff]
  have hpairs := classes.pairwise_ancestorsWithin c.index c
  refine ⟨List.mem_of_find?_eq_some hfind, (habove _).1 (by simp), fun u hu hreach => ?_,
    fun u hu hkind => h.id_le_of_find? hfind hu hkind⟩
  have hnear : u.kind ∉ near := by
    intro hmem
    have := List.find?_eq_none.1 (hnone _ hmem) u hu
    simp at this
  rw [ClassTree.ancestors] at hline
  rw [hline] at hpairs
  rcases List.mem_append.1 ((habove _).2 hreach) with hmem | hmem
  · exact absurd hmem hnear
  · rcases List.mem_cons.1 hmem with heq | hmem
    · rw [heq]
    · exact (List.pairwise_cons.1 (List.pairwise_append.1 hpairs).2.1).1 _ hmem

theorem Consistent.byClass?_eq_some_iff (h : r.Consistent) :
    r.byClass? c classes = some t ↔ r.Nearest classes c t := by
  refine ⟨h.nearest_of_byClass?, fun ht => ?_⟩
  -- something is found, and then it is the same type
  cases hfind : r.byClass? c classes with
  | some u => rw [(h.nearest_of_byClass? hfind).eq h ht]
  | none =>
    rw [h.byClass?_eq, TypeTable.byClass?] at hfind
    have hnone := List.findSome?_eq_none_iff.1 hfind t.kind (ClassTree.mem_ancestors_iff.2 ht.above)
    have := List.find?_eq_none.1 hnone t ht.mem
    simp at this

theorem Consistent.slotType?_eq_some_iff (h : r.Consistent) {name : String} {p : SlotType} :
    r.slotType? name = some p ↔ ∃ t ∈ r.types, t.HasSpelling name ∧
      p.id = t.id ∧ p.name = name ∧ (p.single = true ↔ t.spellings.singular = name) := by
  rw [slotType?, Option.map_eq_some_iff]
  simp only [h.byName?_eq_some_iff, and_assoc]
  refine exists_congr fun t => and_congr_right fun _ => and_congr_right fun _ => ?_
  obtain ⟨id, name', single⟩ := p
  rw [SlotType.mk.injEq, ← beq_iff_eq (a := t.spellings.singular), Bool.coe_iff_coe]
  exact and_congr eq_comm (and_congr eq_comm eq_comm)

theorem Consistent.slotType?_eq (h : r.Consistent) (name : String) :
    r.slotType? name = r.table.slotType? name := by
  rw [slotType?, h.byName?_eq]
  rfl

/-! ## After any calls -/

/-- The declaration is malformed, or one of its spellings has a type already. -/
def Refuses (r : TypeIndex) (d : TypeDeclaration) : Prop :=
  Spellings.Malformed d.spec ∨ ∃ s, Spellings.ofSpec? d.spec = some s ∧
    ∃ t ∈ r.types, t.HasSpelling s.singular ∨ t.HasSpelling s.plural

theorem Consistent.refuses_iff (h : r.Consistent) {d : TypeDeclaration} :
    r.Refuses d ↔ Spellings.ofSpec? d.spec = none ∨ ∃ s, Spellings.ofSpec? d.spec = some s ∧
      ((r.spelled.lookup s.singular).isSome ∨ (r.spelled.lookup s.plural).isSome) := by
  simp only [Refuses, Spellings.ofSpec?_eq_none_iff, h.isSome_lookup_iff, and_or_left, exists_or]

theorem Consistent.error_iff (h : r.Consistent) {d : TypeDeclaration} :
    (∃ e, (r.register d).1 = .error e) ↔ r.Refuses d := by
  rw [h.refuses_iff]
  rcases r.register_cases d with ⟨hs, heq⟩ | ⟨s, hs, htaken, heq⟩ | ⟨s, hs, hsingular, hplural, heq⟩
  · exact ⟨fun _ => .inl hs, fun _ => ⟨_, congrArg Prod.fst heq⟩⟩
  · exact ⟨fun _ => .inr ⟨s, hs, htaken⟩, fun _ => ⟨_, congrArg Prod.fst heq⟩⟩
  · constructor
    · rintro ⟨e, he⟩
      rw [heq] at he
      cases he
    · rintro (hnone | ⟨s', hs', htaken⟩)
      · rw [hs] at hnone
        cases hnone
      · cases hs.symm.trans hs'
        simp only [hsingular, hplural, Option.isSome_none, Bool.false_eq_true, or_self] at htaken

/-- Whatever was registered before, and whichever calls were refused: a call is refused exactly if its
declaration is malformed or a spelling is taken, and then it changes nothing. Otherwise the new type stands
at the end, and its id is its position. A spelling leads to the one type that has it, a class to the first
type of the nearest class from it upwards that has one. The table without indexes has the same types and
finds the same. -/
theorem indexes_agree (ds : List TypeDeclaration) :
    (∀ d, (∃ e, ((after ds).register d).1 = .error e) ↔ (after ds).Refuses d) ∧
    (∀ d e, ((after ds).register d).1 = .error e → ((after ds).register d).2 = after ds) ∧
    (∀ d id, ((after ds).register d).1 = .ok id → id = ⟨(after ds).types.length⟩ ∧
      ∃ t, ((after ds).register d).2.types = (after ds).types ++ [t] ∧ t.id = id ∧
        Spellings.ofSpec? d.spec = some t.spellings ∧ t.kind = d.kind) ∧
    (∀ (i : Nat) (t : ValueType), (after ds).types[i]? = some t → t.id = ⟨i⟩) ∧
    (∀ name t, (after ds).byName? name = some t ↔ t ∈ (after ds).types ∧ t.HasSpelling name) ∧
    (∀ name p, (after ds).slotType? name = some p ↔ ∃ t ∈ (after ds).types, t.HasSpelling name ∧
      p.id = t.id ∧ p.name = name ∧ (p.single = true ↔ t.spellings.singular = name)) ∧
    (∀ classes c t, (after ds).byClass? c classes = some t ↔ (after ds).Nearest classes c t) ∧
    TypeTable.after ds = (after ds).table ∧
    (∀ name, (TypeTable.after ds).byName? name = (after ds).byName? name) ∧
    (∀ name, (TypeTable.after ds).slotType? name = (after ds).slotType? name) ∧
    ∀ classes c, (TypeTable.after ds).byClass? c classes = (after ds).byClass? c classes := by
  have h := consistent_after ds
  rw [table_after]
  exact ⟨fun d => h.error_iff, fun d e => register_of_error, fun d id => register_of_ok, h.ids,
    fun name t => h.byName?_eq_some_iff, fun name p => h.slotType?_eq_some_iff,
    fun classes c t => h.byClass?_eq_some_iff, rfl, fun name => (h.byName?_eq name).symm,
    fun name => (h.slotType?_eq name).symm, fun classes c => (h.byClass?_eq c classes).symm⟩

/-- Two types for numbers; between them a spelling that is taken and a declaration with three endings. -/
def figures : List TypeDeclaration := [
  { spec := ['n', 'u', 'm', 'b', 'e', 'r', '¦', 's'], kind := .number },
  { spec := ['¦', 'd', 'i', 'g', 'i', 't', '¦', 'n', 'u', 'm', 'b', 'e', 'r', 's'], kind := .integer },
  { spec := ['a', '¦', 'b', '¦', 'c', '¦', 'd'], kind := .integer },
  { spec := [' ', 'f', 'i', 'g', 'u', 'r', 'e', '¦', 's', ' '], kind := .number }]

/-- The second declaration would have taken the plural of the first. The class of integers has no type, and
of the two types for numbers the first one is found for it. -/
theorem indexes_agree_figures :
    (after (figures.take 1)).Refuses ⟨['¦', 'd', 'i', 'g', 'i', 't', '¦', 'n', 'u', 'm', 'b', 'e', 'r', 's'],
      .integer, none, none⟩ ∧
    after (figures.take 2) = after (figures.take 1) ∧
    ((after figures).byName? "figures").map (·.id) = some ⟨1⟩ ∧
    ((after figures).slotType? "figures").map (·.single) = some false ∧
    ∃ t, (after figures).byClass? .integer .builtin = some t ∧
      (after figures).Nearest .builtin .integer t ∧ t.spellings.singular = "number" := by
  obtain ⟨hrefuses, hsame, -⟩ := indexes_agree (figures.take 1)
  obtain ⟨-, -, -, -, -, -, hnearest, -⟩ := indexes_agree figures
  refine ⟨(hrefuses _).1 ⟨_, rfl⟩, hsame _ _ rfl, rfl, rfl, ?_⟩
  exact ⟨_, rfl, (hnearest _ _ _).1 rfl, rfl⟩

end TypeIndex

end Phrasebook
