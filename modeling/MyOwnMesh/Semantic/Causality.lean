import MyOwnMesh.Foundation.Heads
import MyOwnMesh.Semantic.Provenance

/-!
# Causality

The two orders of a fact map as relations: `Depends` follows all canonical
dependencies, `Ancestor` the signed parents only. The traversals of the program
decide these relations. `CausalFacts` is what admission guarantees of a fact
map: facts are stored under their identities, every dependency is resident, and
no fact depends on itself. Both orders of such a map are untouched by a larger
map around it, which is why a fact may be judged in its causal past alone.
-/

namespace MyOwnMesh.Semantic

open Foundation

/-- `a` is a direct or transitive dependency of `b`. -/
def Depends (facts : Facts) : FactId → FactId → Prop :=
  Relation.TransGen fun a b => a ∈ dependenciesIn facts b

/-- `a` is a direct or transitive signed parent of `b`. -/
def Ancestor (facts : Facts) : FactId → FactId → Prop :=
  Relation.TransGen fun a b => a ∈ parentsIn facts b

variable {facts : Facts} {id : FactId} {fact : SignedFact}

theorem parentsIn_of_getElem? (h : facts[id]? = some fact) :
    parentsIn facts id = fact.content.parents := by
  simp [parentsIn, h]

theorem dependenciesIn_of_getElem? (h : facts[id]? = some fact) :
    dependenciesIn facts id = fact.dependencies := by
  simp [dependenciesIn, h]

theorem SignedFact.mem_dependencies_of_parent (h : id ∈ fact.content.parents) :
    id ∈ fact.dependencies := by
  unfold SignedFact.dependencies
  rw [mem_sortDedup]
  simp [h]

theorem SignedFact.mem_dependencies_of_support (h : id ∈ fact.content.body.support) :
    id ∈ fact.dependencies := by
  unfold SignedFact.dependencies
  rw [mem_sortDedup]
  simp [h]

variable {a b head : FactId}

theorem mem_dependenciesIn_of_parent (h : a ∈ parentsIn facts b) : a ∈ dependenciesIn facts b := by
  unfold parentsIn at h
  unfold dependenciesIn
  split at h
  · exact SignedFact.mem_dependencies_of_parent h
  · cases h

/-- Signed ancestry is a part of the dependency order. -/
theorem Ancestor.depends (h : Ancestor facts a b) : Depends facts a b :=
  Relation.TransGen.mono (fun _ _ => mem_dependenciesIn_of_parent) a b h

/-- Only a resident fact has anything below it. -/
theorem Depends.mem (h : Depends facts a b) : b ∈ facts := by
  obtain ⟨c, -, hc⟩ := Relation.TransGen.tail'_iff.mp h
  unfold dependenciesIn at hc
  split at hc
  · exact mem_iff_exists.mpr ⟨_, ‹_›⟩
  · cases hc

/-! ## The traversals -/

section Traversals

variable (facts : Facts)

variable {succ : FactId → List FactId}

private theorem mem_keys_of_succ (hSucc : ∀ id, facts[id]? = none → succ id = []) (id : FactId)
    (h : succ id ≠ []) : id ∈ facts.keys := by
  rw [Std.ExtTreeMap.mem_keys, mem_iff_exists]
  cases hGet : facts[id]? with
  | none => exact absurd (hSucc id hGet) h
  | some fact => exact ⟨fact, rfl⟩

/-- A traversal of a fact map visits its seeds and what lies below them. -/
theorem mem_traverse_facts (hSucc : ∀ id, facts[id]? = none → succ id = []) (seeds : List FactId)
    (b : FactId) :
    b ∈ traverse succ facts.keys seeds ↔
      ∃ a ∈ seeds, a = b ∨ Relation.TransGen (fun a b => a ∈ succ b) b a := by
  rw [mem_traverse Std.ExtTreeMap.nodup_keys (mem_keys_of_succ facts hSucc)]
  refine exists_congr fun a => and_congr_right fun _ => ?_
  rw [Relation.reflTransGen_iff_eq_or_transGen, eq_comm]
  exact or_congr Iff.rfl (Relation.transGen_swap (r := Edge succ)).symm

theorem mem_traverse_parents (seeds : List FactId) (b : FactId) :
    b ∈ traverse (parentsIn facts) facts.keys seeds ↔
      ∃ a ∈ seeds, a = b ∨ Ancestor facts b a :=
  mem_traverse_facts facts (fun id h => by simp [parentsIn, h]) seeds b

theorem mem_traverse_dependencies (seeds : List FactId) (b : FactId) :
    b ∈ traverse (dependenciesIn facts) facts.keys seeds ↔
      ∃ a ∈ seeds, a = b ∨ Depends facts b a :=
  mem_traverse_facts facts (fun id h => by simp [dependenciesIn, h]) seeds b

end Traversals

theorem isAncestorIn_iff : isAncestorIn facts a b = true ↔ Ancestor facts a b := by
  unfold isAncestorIn Ancestor
  rw [List.any_eq_true, Relation.TransGen.head'_iff]
  constructor
  · rintro ⟨id, hId, hParent⟩
    obtain ⟨c, hc, hReach⟩ := (mem_traverse_parents facts _ id).mp hId
    rw [List.mem_singleton] at hc
    subst hc
    refine ⟨id, List.contains_iff_mem.mp hParent, ?_⟩
    rcases hReach with rfl | hAbove
    · exact .refl
    · exact hAbove.to_reflTransGen
  · rintro ⟨id, hParent, hReach⟩
    refine ⟨id, (mem_traverse_parents facts _ id).mpr ⟨b, List.mem_singleton_self b, ?_⟩,
      List.contains_iff_mem.mpr hParent⟩
    rcases Relation.reflTransGen_iff_eq_or_transGen.mp hReach with rfl | hAbove
    · exact .inl rfl
    · exact .inr hAbove

theorem signedHeadIsDominated_iff {direct : List FactId} :
    signedHeadIsDominated facts direct head = true ↔
      head ∈ direct ∨ ∃ d ∈ direct, Depends facts head d := by
  unfold signedHeadIsDominated
  rw [Bool.or_eq_true, List.contains_iff_mem, List.any_eq_true]
  refine or_congr Iff.rfl ?_
  constructor
  · rintro ⟨id, hId, hHead⟩
    obtain ⟨d, hd, hReach⟩ := (mem_traverse_dependencies facts _ id).mp hId
    refine ⟨d, hd, ?_⟩
    have hEdge : head ∈ dependenciesIn facts id := List.contains_iff_mem.mp hHead
    rcases hReach with rfl | hAbove
    · exact .single hEdge
    · exact .head hEdge hAbove
  · rintro ⟨d, hd, hDepends⟩
    obtain ⟨id, hEdge, hReach⟩ := Relation.TransGen.head'_iff.mp hDepends
    refine ⟨id, (mem_traverse_dependencies facts _ id).mpr ⟨d, hd, ?_⟩,
      List.contains_iff_mem.mpr hEdge⟩
    rcases Relation.reflTransGen_iff_eq_or_transGen.mp hReach with rfl | hAbove
    · exact .inl rfl
    · exact .inr hAbove

/-- The dominance test of a resident fact is the dependency order below it. -/
theorem signedHeadIsDominated_iff_depends (hGet : facts[id]? = some fact) :
    signedHeadIsDominated facts fact.dependencies head = true ↔ Depends facts head id := by
  have hDeps : ∀ d, d ∈ dependenciesIn facts id ↔ d ∈ fact.dependencies := by
    intro d
    rw [dependenciesIn_of_getElem? hGet]
  rw [signedHeadIsDominated_iff]
  constructor
  · rintro (hEdge | ⟨d, hEdge, hPath⟩)
    · exact .single ((hDeps head).mpr hEdge)
    · exact hPath.tail ((hDeps d).mpr hEdge)
  · intro h
    obtain ⟨d, hReach, hEdge⟩ := Relation.TransGen.tail'_iff.mp h
    rcases Relation.reflTransGen_iff_eq_or_transGen.mp hReach with rfl | hPath
    · exact .inl ((hDeps d).mp hEdge)
    · exact .inr ⟨d, (hDeps d).mp hEdge, hPath⟩

/-- Above a resident fact lie its signed parents and what lies above them. -/
theorem ancestor_iff_parents (hGet : facts[id]? = some fact) :
    Ancestor facts a id ↔ ∃ parent ∈ fact.content.parents, a = parent ∨ Ancestor facts a parent := by
  unfold Ancestor
  rw [Relation.TransGen.tail'_iff]
  refine exists_congr fun parent => ?_
  rw [parentsIn_of_getElem? hGet, Relation.reflTransGen_iff_eq_or_transGen, and_comm, eq_comm]

/-! ## Causal fact maps -/

/-- What admission guarantees of a fact map. -/
structure CausalFacts (facts : Facts) : Prop where
  id_eq : ∀ {id : FactId} {fact : SignedFact}, facts[id]? = some fact → fact.id = id
  closed : ∀ {id : FactId} {fact : SignedFact}, facts[id]? = some fact →
    ∀ d ∈ fact.dependencies, d ∈ facts
  acyclic : ∀ id : FactId, ¬ Depends facts id id

/-- Every entry of the small map is an entry of the large one. -/
def Within (small large : Facts) : Prop :=
  ∀ (id : FactId) (fact : SignedFact), small[id]? = some fact → large[id]? = some fact

theorem CausalFacts.empty : CausalFacts ∅ where
  id_eq := by simp
  closed := by simp
  acyclic := by
    intro id h
    simpa using h.mem

namespace CausalFacts

variable {facts small large : Facts}

variable {a b : FactId}

theorem mem_of_edge (hFacts : CausalFacts facts) (h : a ∈ dependenciesIn facts b) : a ∈ facts := by
  unfold dependenciesIn at h
  split at h
  · rename_i fact hGet
    exact hFacts.closed hGet a h
  · cases h

theorem mem_of_depends (hFacts : CausalFacts facts) (h : Depends facts a b) : a ∈ facts := by
  obtain ⟨c, hEdge, -⟩ := Relation.TransGen.head'_iff.mp h
  exact hFacts.mem_of_edge hEdge

/-- Induction over the facts, each after everything it depends on. -/
theorem induction (hFacts : CausalFacts facts) {P : FactId → Prop}
    (hStep : ∀ id ∈ facts, (∀ below, Depends facts below id → P below) → P id) :
    ∀ id ∈ facts, P id := by
  let Below (a b : { id // id ∈ facts }) : Prop := Depends facts a.1 b.1
  have hFinite : Finite { id // id ∈ facts } := by
    refine Set.Finite.to_subtype ((List.finite_toSet facts.keys).subset fun id hId => ?_)
    exact Std.ExtTreeMap.mem_keys.mpr hId
  have hTrans : IsTrans _ Below := ⟨fun _ _ _ hab hbc => Relation.TransGen.trans hab hbc⟩
  have hIrrefl : Std.Irrefl Below := ⟨fun a => hFacts.acyclic a.1⟩
  have hWf : WellFounded Below := Finite.wellFounded_of_trans_of_irrefl Below
  intro id hId
  refine hWf.induction (C := fun a => P a.1) ⟨id, hId⟩ fun a ih => ?_
  exact hStep a.1 a.2 fun below hBelow => ih ⟨below, hFacts.mem_of_depends hBelow⟩ hBelow

theorem ancestor_irrefl (hFacts : CausalFacts facts) (id : FactId) : ¬ Ancestor facts id id :=
  fun h => hFacts.acyclic id h.depends

private theorem dependenciesIn_within (hWithin : Within small large) (hb : b ∈ small) :
    dependenciesIn large b = dependenciesIn small b := by
  obtain ⟨fact, hGet⟩ := mem_iff_exists.mp hb
  rw [dependenciesIn_of_getElem? hGet, dependenciesIn_of_getElem? (hWithin b fact hGet)]

private theorem parentsIn_within (hWithin : Within small large) (hb : b ∈ small) :
    parentsIn large b = parentsIn small b := by
  obtain ⟨fact, hGet⟩ := mem_iff_exists.mp hb
  rw [parentsIn_of_getElem? hGet, parentsIn_of_getElem? (hWithin b fact hGet)]

/-- The dependency order below a fact of a causal map is the same in a larger
map. -/
theorem depends_within (hSmall : CausalFacts small) (hWithin : Within small large)
    (hb : b ∈ small) : Depends large a b ↔ Depends small a b :=
  transGen_iff_of_closed (fun hb => by rw [dependenciesIn_within hWithin hb])
    (fun hEdge _ => hSmall.mem_of_edge hEdge) hb

theorem ancestor_within (hSmall : CausalFacts small) (hWithin : Within small large)
    (hb : b ∈ small) : Ancestor large a b ↔ Ancestor small a b :=
  transGen_iff_of_closed (fun hb => by rw [parentsIn_within hWithin hb])
    (fun hEdge _ => hSmall.mem_of_edge (mem_dependenciesIn_of_parent hEdge)) hb

/-- A dependency-closed part of a causal map is causal. -/
theorem restrict (hLarge : CausalFacts large) (hWithin : Within small large)
    (hClosed : ∀ (id : FactId) (fact : SignedFact), small[id]? = some fact →
      ∀ d ∈ fact.dependencies, d ∈ small) : CausalFacts small where
  id_eq h := hLarge.id_eq (hWithin _ _ h)
  closed h := hClosed _ _ h
  acyclic := by
    intro id h
    refine hLarge.acyclic id ?_
    refine Relation.TransGen.mono ?_ id id h
    intro a b hEdge
    have hPath : Depends small a b := .single hEdge
    have hb : b ∈ small := hPath.mem
    rwa [dependenciesIn_within hWithin hb]

end CausalFacts

/-! ## One more fact -/

section Grow

variable {facts : Facts} {fact : SignedFact}

theorem within_insert (hNew : fact.id ∉ facts) : Within facts (facts.insert fact.id fact) := by
  intro id stored hGet
  rw [getElem?_insert_eq, if_neg]
  · exact hGet
  · rintro rfl
    exact hNew (mem_iff_exists.mpr ⟨stored, hGet⟩)

variable (hFacts : CausalFacts facts) (hNew : fact.id ∉ facts)
  (hDeps : ∀ d ∈ fact.dependencies, d ∈ facts)

include hFacts hNew hDeps

/-- Below a new fact lie its dependencies and what lies below them. -/
theorem depends_insert_self {a : FactId} :
    Depends (facts.insert fact.id fact) a fact.id ↔
      a ∈ fact.dependencies ∨ ∃ d ∈ fact.dependencies, Depends facts a d := by
  have hSelf : dependenciesIn (facts.insert fact.id fact) fact.id = fact.dependencies :=
    dependenciesIn_of_getElem? (by rw [getElem?_insert_eq, if_pos rfl])
  have hWithin : Within facts (facts.insert fact.id fact) := within_insert hNew
  unfold Depends
  rw [Relation.TransGen.tail'_iff]
  constructor
  · rintro ⟨d, hReach, hEdge⟩
    rw [hSelf] at hEdge
    rcases Relation.reflTransGen_iff_eq_or_transGen.mp hReach with rfl | hPath
    · exact .inl hEdge
    · exact .inr ⟨d, hEdge, (hFacts.depends_within hWithin (hDeps d hEdge)).mp hPath⟩
  · rintro (hEdge | ⟨d, hEdge, hPath⟩)
    · exact ⟨a, .refl, hSelf ▸ hEdge⟩
    · refine ⟨d, ?_, hSelf ▸ hEdge⟩
      exact ((hFacts.depends_within hWithin (hDeps d hEdge)).mpr hPath).to_reflTransGen

omit hDeps in
/-- No resident fact depends on a new one. -/
theorem not_depends_insert {b : FactId} (hb : b ∈ facts) :
    ¬ Depends (facts.insert fact.id fact) fact.id b := by
  intro h
  rw [hFacts.depends_within (within_insert hNew) hb] at h
  exact hNew (hFacts.mem_of_depends h)

theorem not_depends_insert_self : ¬ Depends (facts.insert fact.id fact) fact.id fact.id := by
  rw [depends_insert_self hFacts hNew hDeps]
  rintro (hDep | ⟨d, hd, hPath⟩)
  · exact hNew (hDeps _ hDep)
  · exact hNew (hFacts.mem_of_depends hPath)

theorem CausalFacts.insert : CausalFacts (facts.insert fact.id fact) where
  id_eq := by
    intro id stored hGet
    rw [getElem?_insert_eq] at hGet
    split at hGet
    · rename_i hEq
      rw [← Option.some.inj hGet, hEq]
    · exact hFacts.id_eq hGet
  closed := by
    intro id stored hGet d hd
    rw [Std.ExtTreeMap.mem_insert]
    rw [getElem?_insert_eq] at hGet
    split at hGet
    · rw [← Option.some.inj hGet] at hd
      exact .inr (hDeps d hd)
    · exact .inr (hFacts.closed hGet d hd)
  acyclic := by
    intro id h
    have hMem := h.mem
    rw [mem_map_insert_iff] at hMem
    rcases hMem with rfl | hOld
    · exact not_depends_insert_self hFacts hNew hDeps h
    · exact hFacts.acyclic id ((hFacts.depends_within (within_insert hNew) hOld).mp h)

end Grow

/-- In a causal map the complete ancestry of a resident fact is found. -/
theorem completeAncestors_spec (hFacts : CausalFacts facts) (hId : id ∈ facts) :
    ∃ ancestors, completeAncestors facts id = .ok ancestors ∧
      ∀ a : FactId, a ∈ ancestors ↔ Ancestor facts a id := by
  have hVisited : ∀ a : FactId, a ∈ traverse (parentsIn facts) facts.keys [id] ↔
      id = a ∨ Ancestor facts a id := by
    intro a
    rw [mem_traverse_parents]
    simp
  have hFind : (traverse (parentsIn facts) facts.keys [id]).find?
      (fun next => !facts.contains next) = none := by
    rw [List.find?_eq_none]
    intro a ha
    have hMem : a ∈ facts := by
      rcases (hVisited a).mp ha with rfl | hAbove
      · exact hId
      · exact hFacts.mem_of_depends hAbove.depends
    simp [Std.ExtTreeMap.contains_iff_mem.mpr hMem]
  refine ⟨_, by simp only [completeAncestors, hFind]; rfl, fun a => ?_⟩
  rw [mem_erase_iff, mem_setOfList, hVisited]
  constructor
  · rintro ⟨hNe, rfl | hAbove⟩
    · exact absurd rfl hNe
    · exact hAbove
  · intro hAbove
    refine ⟨?_, .inr hAbove⟩
    rintro rfl
    exact hFacts.ancestor_irrefl id hAbove

theorem mem_of_completeAncestors_ok {ancestors : OrdSet FactId}
    (h : completeAncestors facts id = .ok ancestors) : id ∈ facts := by
  unfold completeAncestors at h
  dsimp only at h
  split at h
  · cases h
  · rename_i hFind
    have hVisited : id ∈ traverse (parentsIn facts) facts.keys [id] :=
      (mem_traverse_parents facts _ id).mpr ⟨id, List.mem_singleton_self id, .inl rfl⟩
    have := List.find?_eq_none.mp hFind id hVisited
    simpa using this

end MyOwnMesh.Semantic
