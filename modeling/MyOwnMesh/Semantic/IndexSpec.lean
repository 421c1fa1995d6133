import MyOwnMesh.Semantic.Causality
import MyOwnMesh.Semantic.Indexes

/-!
# What the derived indexes hold

Every derived index is a function of the fact map alone: heads are the maximal
facts of a cell or lineage in the dependency order, the other indexes list the
resident facts under a key. The lemmas here are about indexing one more fact
while a set `done` of facts is indexed already; admission adds the newest fact
to an indexed graph, and a rebuild adds all facts in causal order to a cleared
one.
-/

namespace MyOwnMesh.Semantic

open Foundation

/-- A resident fact that advances a cell. -/
def Advances (facts : Facts) (cell : ExclusiveCell) (id : FactId) : Prop :=
  ∃ fact, facts[id]? = some fact ∧ cell ∈ fact.content.body.exclusiveCells

/-- A resident fact that extends the lineage of a subject. -/
def ExtendsLineage (facts : Facts) (subject : DeviceId) (id : FactId) : Prop :=
  ∃ fact, facts[id]? = some fact ∧ subject ∈ fact.useSubjects ∧ fact.payloadLocal subject = false

/-- The order-free indexes of the facts in `done`. -/
structure MetadataAmong (facts : Facts) (done : FactId → Prop) (g : FactGraph) : Prop where
  authorityFacts : IndexOf g.authorityFactsIndex fun subject id =>
    done id ∧ ∃ fact, facts[id]? = some fact ∧ subject ∈ fact.indexedAuthoritySubjects
  selectors : IndexOf g.authoritySelectorIndex fun subject entry =>
    done entry.1 ∧ ∃ fact, facts[entry.1]? = some fact ∧
      fact.content.body.lineageSelector = some (subject, entry.2)
  cells : ∀ cell : ExclusiveCell, cell ∈ g.cellsIndex ↔ ∃ id, done id ∧ Advances facts cell id
  standDown : IndexOf g.standDownIndex fun target id =>
    done id ∧ ∃ fact, facts[id]? = some fact ∧ fact.content.body.standDownTarget = some target

/-- The head indexes of the facts in `done`. -/
structure HeadsAmong (facts : Facts) (done : FactId → Prop) (g : FactGraph) : Prop where
  cellHeads : IndexOf g.cellHeadsIndex fun cell =>
    IsHead (Depends facts) fun id => done id ∧ Advances facts cell id
  authorityHeads : IndexOf g.authorityHeadsIndex fun subject =>
    IsHead (Depends facts) fun id => done id ∧ ExtendsLineage facts subject id

theorem MetadataAmong.congr {facts : Facts} {done done' : FactId → Prop} {g : FactGraph}
    (h : MetadataAmong facts done g) (hDone : ∀ id, done id ↔ done' id) :
    MetadataAmong facts done' g :=
  (funext fun id => propext (hDone id) : done = done') ▸ h

theorem HeadsAmong.congr {facts : Facts} {done done' : FactId → Prop} {g : FactGraph}
    (h : HeadsAmong facts done g) (hDone : ∀ id, done id ↔ done' id) : HeadsAmong facts done' g :=
  (funext fun id => propext (hDone id) : done = done') ▸ h

/-! ## Indexing one fact -/

section Step

variable {facts : Facts} {done : FactId → Prop} {id : FactId} {fact : SignedFact}

/-- A predicate of the indexed facts, after one more fact. -/
private theorem grown_iff {p : SignedFact → Prop} (hGet : facts[id]? = some fact) (a : FactId) :
    ((a = id ∨ done a) ∧ ∃ stored, facts[a]? = some stored ∧ p stored) ↔
      (p fact ∧ id = a) ∨ (done a ∧ ∃ stored, facts[a]? = some stored ∧ p stored) := by
  constructor
  · rintro ⟨rfl | hDone, stored, hStored, hp⟩
    · rw [hGet] at hStored
      exact .inl ⟨Option.some.inj hStored ▸ hp, rfl⟩
    · exact .inr ⟨hDone, stored, hStored, hp⟩
  · rintro (⟨hp, rfl⟩ | ⟨hDone, hStored⟩)
    · exact ⟨.inl rfl, fact, hGet, hp⟩
    · exact ⟨.inr hDone, hStored⟩

theorem mem_cellSet {cell : ExclusiveCell} :
    cell ∈ fact.cellSet ↔ cell ∈ fact.content.body.exclusiveCells := by
  unfold SignedFact.cellSet
  rw [mem_setOfList]

/-- One more fact is indexed. -/
theorem MetadataAmong.indexFactMetadata {g : FactGraph} (h : MetadataAmong g.facts done g)
    (hGet : g.facts[id]? = some fact) :
    MetadataAmong g.facts (fun x => x = id ∨ done x) (g.indexFactMetadata id) := by
  unfold FactGraph.indexFactMetadata
  rw [hGet]
  refine ⟨?_, ?_, ?_, ?_⟩
  · refine (IndexOf.foldl_addTo id _ h.authorityFacts).congr fun subject a => ?_
    rw [grown_iff hGet, Std.ExtTreeSet.mem_toList]
  · dsimp only
    unfold FactGraph.addSelector
    cases hSelector : fact.content.body.lineageSelector with
    | none =>
      refine h.selectors.congr fun subject entry => ?_
      rw [grown_iff hGet]
      simp [hSelector]
    | some selector =>
      obtain ⟨subject, selected⟩ := selector
      refine (h.selectors.addTo subject (id, selected)).congr fun subject' entry => ?_
      rw [grown_iff hGet, hSelector]
      refine or_congr ?_ Iff.rfl
      obtain ⟨a, b⟩ := entry
      simp only [Prod.mk.injEq, Option.some.injEq]
      tauto
  · intro cell
    rw [Std.ExtTreeSet.mem_union_iff, mem_cellSet, h.cells]
    constructor
    · rintro (⟨a, hDone, hAdvances⟩ | hCell)
      · exact ⟨a, .inr hDone, hAdvances⟩
      · exact ⟨id, .inl rfl, fact, hGet, hCell⟩
    · rintro ⟨a, rfl | hDone, hAdvances⟩
      · obtain ⟨stored, hStored, hCell⟩ := hAdvances
        rw [hGet] at hStored
        exact .inr (Option.some.inj hStored ▸ hCell)
      · exact .inl ⟨a, hDone, hAdvances⟩
  · dsimp only
    unfold FactGraph.addStandDown
    cases hTarget : fact.content.body.standDownTarget with
    | none =>
      refine h.standDown.congr fun target a => ?_
      rw [grown_iff hGet]
      simp [hTarget]
    | some target =>
      refine (h.standDown.addTo target id).congr fun target' a => ?_
      rw [grown_iff hGet, hTarget, Option.some.injEq]

/-- The heads of one entry after a candidate with everything in `done` below or
beside it. -/
private theorem mem_insertMaximalHead {heads : OrdSet FactId} {S : FactId → Prop}
    (hFacts : CausalFacts facts) (hGet : facts[id]? = some fact)
    (hHeads : ∀ a, a ∈ heads ↔ IsHead (Depends facts) S a)
    (hNew : ¬ S id) (hTop : ∀ b, S b → ¬ Depends facts id b) (a : FactId) :
    a ∈ insertMaximalHead facts heads id ↔ IsHead (Depends facts) (fun x => x = id ∨ S x) a := by
  rw [isHead_grow (fun _ _ _ _ => Iff.rfl) hNew (hFacts.acyclic id) hTop]
  unfold insertMaximalHead
  rw [hGet]
  dsimp only
  rw [mem_insert_iff, mem_keepMembers, hHeads, eq_comm, Bool.not_eq_true',
    ← Bool.not_eq_true, signedHeadIsDominated_iff_depends hGet]

/-- Replacing the heads under every key of a fact. -/
private theorem indexOf_replaceHeads {κ : Type} [Ord κ] [Std.TransOrd κ] [Std.LawfulEqOrd κ]
    {P : κ → FactId → Prop} (hFacts : CausalFacts facts) (hGet : facts[id]? = some fact)
    (hNew : ¬ done id) (hTop : ∀ b, done b → ¬ Depends facts id b) :
    ∀ (keys : List κ) (index : OrdMap κ (OrdSet FactId)) (handled : κ → Prop), keys.Nodup →
      (∀ k, P k id ↔ handled k ∨ k ∈ keys) → (∀ k ∈ keys, ¬ handled k) →
      IndexOf index (fun k => IsHead (Depends facts) fun x =>
        (x = id ∧ handled k ∨ done x) ∧ P k x) →
      IndexOf (keys.foldl (FactGraph.replaceHeads facts id) index)
        (fun k => IsHead (Depends facts) fun x => (x = id ∨ done x) ∧ P k x) := by
  intro keys
  induction keys with
  | nil =>
    intro index handled _ hKeys _ hIndex
    refine hIndex.congr fun k a => isHead_congr (fun x => ?_) fun _ _ _ _ => Iff.rfl
    have := hKeys k
    simp only [List.not_mem_nil, or_false] at this
    constructor
    · rintro ⟨⟨rfl, -⟩ | hDone, hp⟩
      · exact ⟨.inl rfl, hp⟩
      · exact ⟨.inr hDone, hp⟩
    · rintro ⟨rfl | hDone, hp⟩
      · exact ⟨.inl ⟨rfl, this.mp hp⟩, hp⟩
      · exact ⟨.inr hDone, hp⟩
  | cons key keys ih =>
    intro index handled hNodup hKeys hFresh hIndex
    obtain ⟨hKey, hRest⟩ := List.nodup_cons.mp hNodup
    rw [List.foldl_cons]
    refine ih _ (fun k => k = key ∨ handled k) hRest ?_ ?_ ?_
    · intro k
      rw [hKeys k, List.mem_cons]
      tauto
    · rintro k hk (rfl | hHandled)
      · exact hKey hk
      · exact hFresh k (List.mem_cons_of_mem key hk) hHandled
    · have hEntry : ∀ a, a ∈ insertMaximalHead facts (index.getD key ∅) id ↔
          IsHead (Depends facts) (fun x => x = id ∨ done x ∧ P key x) a := by
        refine mem_insertMaximalHead hFacts hGet (fun a => ?_) (fun h => hNew h.1)
          fun b hb => hTop b hb.1
        rw [hIndex.mem_iff]
        refine isHead_congr (fun x => ?_) fun _ _ _ _ => Iff.rfl
        have := hFresh key List.mem_cons_self
        tauto
      have hP : P key id := (hKeys key).mpr (.inr List.mem_cons_self)
      classical
      constructor
      · intro k a
        unfold FactGraph.replaceHeads
        rw [getD_eq_getElem?_getD, getElem?_insert_eq]
        by_cases hk : key = k
        · subst hk
          rw [if_pos rfl, Option.getD_some, hEntry]
          refine isHead_congr (fun x => ?_) fun _ _ _ _ => Iff.rfl
          constructor
          · rintro (rfl | ⟨hDone, hp⟩)
            · exact ⟨.inl ⟨rfl, .inl rfl⟩, hP⟩
            · exact ⟨.inr hDone, hp⟩
          · rintro ⟨⟨rfl, -⟩ | hDone, hp⟩
            · exact .inl rfl
            · exact .inr ⟨hDone, hp⟩
        · rw [if_neg hk, ← getD_eq_getElem?_getD, hIndex.mem_iff]
          refine isHead_congr (fun x => ?_) fun _ _ _ _ => Iff.rfl
          have : ¬ k = key := fun h => hk h.symm
          tauto
      · intro k s hSome
        unfold FactGraph.replaceHeads at hSome
        rw [getElem?_insert_eq] at hSome
        split at hSome
        · refine ⟨id, ?_⟩
          rw [← Option.some.inj hSome, hEntry,
            isHead_grow (fun _ _ _ _ => Iff.rfl) (fun h => hNew h.1) (hFacts.acyclic id)
              fun b hb => hTop b hb.1]
          exact .inl rfl
        · exact hIndex.nonempty k s hSome

theorem HeadsAmong.indexFactHeads {g : FactGraph} (h : HeadsAmong g.facts done g)
    (hFacts : CausalFacts g.facts) (hGet : g.facts[id]? = some fact) (hNew : ¬ done id)
    (hTop : ∀ b, done b → ¬ Depends g.facts id b) :
    HeadsAmong g.facts (fun x => x = id ∨ done x) (g.indexFactHeads id) := by
  unfold FactGraph.indexFactHeads
  rw [hGet]
  have hStart : ∀ {κ : Type} {P : κ → FactId → Prop} (k : κ) (a : FactId),
      IsHead (Depends g.facts) (fun x => done x ∧ P k x) a ↔
        IsHead (Depends g.facts) (fun x => (x = id ∧ False ∨ done x) ∧ P k x) a := by
    intro κ P k a
    exact isHead_congr (fun x => by simp) fun _ _ _ _ => Iff.rfl
  refine ⟨?_, ?_⟩
  · refine indexOf_replaceHeads (P := fun cell => Advances g.facts cell) hFacts hGet hNew hTop
      _ _ (fun _ => False) (toList_nodup _) (fun cell => ?_) (fun _ _ h => h)
      (h.cellHeads.congr hStart)
    rw [false_or, Std.ExtTreeSet.mem_toList, mem_cellSet]
    exact ⟨fun ⟨stored, hStored, hCell⟩ => Option.some.inj (hGet.symm.trans hStored) ▸ hCell,
      fun hCell => ⟨fact, hGet, hCell⟩⟩
  · refine indexOf_replaceHeads (P := fun subject => ExtendsLineage g.facts subject) hFacts hGet
      hNew hTop _ _ (fun _ => False) ((sortDedup_nodup _).filter _) (fun subject => ?_)
      (fun _ _ h => h) (h.authorityHeads.congr hStart)
    rw [false_or, List.mem_filter, Bool.not_eq_true']
    exact ⟨fun ⟨stored, hStored, hUse⟩ => Option.some.inj (hGet.symm.trans hStored) ▸ hUse,
      fun hUse => ⟨fact, hGet, hUse⟩⟩

end Step

end MyOwnMesh.Semantic
