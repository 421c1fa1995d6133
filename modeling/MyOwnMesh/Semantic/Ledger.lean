import MyOwnMesh.Foundation.MapSum
import MyOwnMesh.Semantic.Admission
import MyOwnMesh.Semantic.IndexSpec
import MyOwnMesh.Semantic.ProvenanceSpec

/-!
# The byte ledger of the derived indexes

`indexBytes` is what the derived indexes occupy. The residency change computed
before an admission is the exact difference the admission makes, so the running
ledger equals the recomputed one; and a provenance plan of a rebuild stays
within the bytes of the complete table, so a table that fits is always rebuilt.
-/

namespace MyOwnMesh.Semantic

open Foundation

/-- A byte count, refused when it leaves `u64`. -/
def checkedSum (g : FactGraph) (bytes : Nat) : Except SemanticError Nat :=
  if bytes ≤ u64Max then .ok bytes else .error g.accountingError

theorem checkedAddBytes_eq (g : FactGraph) (left right : Nat) :
    g.checkedAddBytes left right = checkedSum g (left + right) := rfl

/-- Checking an intermediate count is redundant when the final one is larger. -/
theorem checkedSum_bind {g : FactGraph} {bytes : Nat} {f : Nat → Nat} (h : bytes ≤ f bytes) :
    (checkedSum g bytes >>= fun n => checkedSum g (f n)) = checkedSum g (f bytes) := by
  unfold checkedSum
  by_cases hFits : bytes ≤ u64Max
  · rw [if_pos hFits]
    rfl
  · rw [if_neg hFits, if_neg (by omega)]
    rfl

theorem checkedSum_ok {g : FactGraph} {bytes n : Nat} (h : checkedSum g bytes = .ok n) :
    n = bytes ∧ bytes ≤ u64Max := by
  unfold checkedSum at h
  split at h
  · cases h
    exact ⟨rfl, ‹_›⟩
  · cases h

theorem checkedEntryBytes_eq (g : FactGraph) (inlineBytes count valueBytes : Nat) :
    g.checkedEntryBytes inlineBytes count valueBytes =
      checkedSum g (inlineBytes + count * valueBytes) := by
  have hMul : g.checkedMulBytes count valueBytes = checkedSum g (count * valueBytes) := rfl
  unfold FactGraph.checkedEntryBytes
  rw [hMul]
  exact checkedSum_bind (f := fun n => inlineBytes + n) (Nat.le_add_left _ _)

section Bytes

/-- The bytes of one entry of a set-valued index. -/
def setBytes {α : Type} [Ord α] (inlineBytes valueBytes : Nat) (values : OrdSet α) : Nat :=
  inlineBytes + values.size * valueBytes

variable [Platform]

def rowBytes (row : AuthorityProvenanceRow) : Nat :=
  Platform.sizeProvenanceEntry + row.size * Platform.sizeRelationEntry

/-- The bytes of all derived indexes. -/
def indexBytes (g : FactGraph) : Nat :=
  mapSum (setBytes Platform.sizeCellEntry Platform.sizeFactId) g.cellHeadsIndex +
  mapSum (setBytes Platform.sizeDeviceEntry Platform.sizeFactId) g.authorityHeadsIndex +
  mapSum (setBytes Platform.sizeDeviceEntry Platform.sizeFactId) g.authorityFactsIndex +
  mapSum (setBytes Platform.sizeSelectorEntry Platform.sizeFactIdPair)
    g.authoritySelectorIndex +
  mapSum rowBytes g.authorityProvenance +
  g.cellsIndex.size * Platform.sizeCell +
  mapSum (setBytes Platform.sizeDeviceEntry Platform.sizeFactId) g.standDownIndex

theorem provenanceRowBytes_eq (g : FactGraph) (row : AuthorityProvenanceRow) :
    g.provenanceRowBytes row = checkedSum g (rowBytes row) :=
  checkedEntryBytes_eq g _ _ _

/-! ## The change of one admission -/

variable {g : FactGraph} {delta : IndexResidencyDelta}

variable {next : IndexResidencyDelta} {bytes inlineBytes : Nat}

omit [Platform] in
theorem addIndexResidency_ok (h : g.addIndexResidency delta bytes = .ok next) :
    next.added = delta.added + bytes ∧ next.removed = delta.removed := by
  unfold FactGraph.addIndexResidency at h
  rw [except_bind_eq_ok] at h
  obtain ⟨total, hTotal, hNext⟩ := h
  rw [checkedAddBytes_eq] at hTotal
  rw [← Except.ok.inj hNext]
  exact ⟨(checkedSum_ok hTotal).1, rfl⟩

omit [Platform] in
theorem removeIndexResidency_ok (h : g.removeIndexResidency delta bytes = .ok next) :
    next.added = delta.added ∧ next.removed = delta.removed + bytes := by
  unfold FactGraph.removeIndexResidency at h
  rw [except_bind_eq_ok] at h
  obtain ⟨total, hTotal, hNext⟩ := h
  rw [checkedAddBytes_eq] at hTotal
  rw [← Except.ok.inj hNext]
  exact ⟨rfl, (checkedSum_ok hTotal).1⟩

omit [Platform] in
theorem addResidencyWhen_ok {charged : Bool}
    (h : g.addResidencyWhen delta charged bytes = .ok next) :
    next.added = delta.added + (if charged then bytes else 0) ∧ next.removed = delta.removed := by
  unfold FactGraph.addResidencyWhen at h
  split at h
  · rename_i hCharged
    rw [if_pos hCharged]
    exact addIndexResidency_ok h
  · rename_i hCharged
    cases h
    rw [if_neg hCharged]
    exact ⟨rfl, rfl⟩

def supersededHeads (facts : Facts) (dependencies : List FactId)
    (heads : Option (OrdSet FactId)) : Nat :=
  ((heads.getD ∅).toList.filter (signedHeadIsDominated facts dependencies)).length

theorem headReplacementResidencyDelta_ok {heads : Option (OrdSet FactId)}
    {dependencies : List FactId}
    (h : g.headReplacementResidencyDelta delta heads dependencies inlineBytes = .ok next) :
    next.added = delta.added + ((if heads.isNone then inlineBytes else 0) + Platform.sizeFactId) ∧
    next.removed = delta.removed +
      supersededHeads g.facts dependencies heads * Platform.sizeFactId := by
  unfold FactGraph.headReplacementResidencyDelta at h
  simp only [except_bind_eq_ok] at h
  obtain ⟨first, hFirst, second, hSecond, bytes, hBytes, hNext⟩ := h
  have hMul : bytes = supersededHeads g.facts dependencies heads * Platform.sizeFactId :=
    (checkedSum_ok (g := g) hBytes).1
  have h1 := addResidencyWhen_ok hFirst
  have h2 := addIndexResidency_ok hSecond
  have h3 := removeIndexResidency_ok hNext
  constructor
  · rw [h3.1, h2.1, h1.1, Nat.add_assoc]
  · rw [h3.2, h2.2, h1.2, hMul]

omit [Platform] in
theorem entryResidencyDelta_ok {κ β : Type} [Ord κ] [Std.TransOrd κ] [Ord β] [Std.TransOrd β]
    {index : OrdMap κ (OrdSet β)} {key : κ} {value : β} {valueBytes : Nat}
    (h : g.entryResidencyDelta delta index key value inlineBytes valueBytes = .ok next) :
    next.added = delta.added + ((if index[key]?.isNone then inlineBytes else 0) +
      (if (index.getD key ∅).contains value then 0 else valueBytes)) ∧
    next.removed = delta.removed := by
  unfold FactGraph.entryResidencyDelta at h
  rw [except_bind_eq_ok] at h
  obtain ⟨first, hFirst, hNext⟩ := h
  have h1 := addResidencyWhen_ok hFirst
  have h2 := addResidencyWhen_ok hNext
  constructor
  · rw [h2.1, h1.1, Nat.add_assoc]
    cases (index.getD key ∅).contains value <;> rfl
  · rw [h2.2, h1.2]

omit [Platform] in
/-- A loop whose steps add fixed amounts adds their sums. -/
private theorem foldlM_delta {α : Type}
    {step : IndexResidencyDelta → α → Except SemanticError IndexResidencyDelta}
    (added removed : α → Nat)
    (hStep : ∀ delta item next, step delta item = .ok next →
      next.added = delta.added + added item ∧ next.removed = delta.removed + removed item)
    (items : List α) : ∀ delta next, items.foldlM step delta = .ok next →
      next.added = delta.added + (items.map added).sum ∧
      next.removed = delta.removed + (items.map removed).sum := by
  induction items with
  | nil =>
    intro delta next h
    cases h
    exact ⟨rfl, rfl⟩
  | cons item items ih =>
    intro delta next h
    rw [List.foldlM_cons, except_bind_eq_ok] at h
    obtain ⟨mid, hMid, hRest⟩ := h
    obtain ⟨hAdded, hRemoved⟩ := hStep delta item mid hMid
    obtain ⟨hAdded', hRemoved'⟩ := ih mid next hRest
    rw [List.map_cons, List.sum_cons, List.map_cons, List.sum_cons, hAdded', hRemoved', hAdded,
      hRemoved]
    exact ⟨Nat.add_assoc _ _ _, Nat.add_assoc _ _ _⟩

omit [Platform] in
/-- The growth of one entry when a value is added to it. -/
private theorem entryWeight_insert {α : Type} [Ord α] [Std.TransOrd α]
    (inlineBytes valueBytes : Nat) (entry : Option (OrdSet α)) (value : α) :
    setBytes inlineBytes valueBytes ((entry.getD ∅).insert value) =
      entryWeight (setBytes inlineBytes valueBytes) entry +
        ((if entry.isNone then inlineBytes else 0) +
          if (entry.getD ∅).contains value then 0 else valueBytes) := by
  unfold setBytes
  rw [Std.ExtTreeSet.size_insert]
  cases entry with
  | none => simp [entryWeight]
  | some values =>
    simp only [entryWeight, Option.getD_some, Option.elim_some, Option.isNone_some,
      Bool.false_eq_true, if_false, Std.ExtTreeSet.contains_iff_mem]
    split
    · omega
    · rw [Nat.succ_mul]
      omega

omit [Platform] in
/-- The growth of a set-valued index when a value is added under distinct keys. -/
private theorem mapSum_foldl_addTo {κ α : Type} [Ord κ] [Std.TransOrd κ] [Std.LawfulEqOrd κ]
    [DecidableEq κ] [Ord α] [Std.TransOrd α] (inlineBytes valueBytes : Nat) (value : α)
    (keys : List κ) (hNodup : keys.Nodup) (index : OrdMap κ (OrdSet α)) :
    mapSum (setBytes inlineBytes valueBytes) (keys.foldl (fun m k => addTo m k value) index) =
      mapSum (setBytes inlineBytes valueBytes) index +
        (keys.map fun k => (if index[k]?.isNone then inlineBytes else 0) +
          if (index.getD k ∅).contains value then 0 else valueBytes).sum := by
  have hSum := mapSum_foldl (setBytes inlineBytes valueBytes) (fun m k => addTo m k value)
    (fun _ entry => some ((entry.getD ∅).insert value))
    (fun m k a => by rw [getElem?_addTo, getD_eq_getElem?_getD]) (fun k =>
      (if index[k]?.isNone then inlineBytes else 0) +
        if (index.getD k ∅).contains value then 0 else valueBytes) (fun _ => 0) keys index hNodup
    fun k _ => by
      rw [getD_eq_getElem?_getD]
      exact entryWeight_insert inlineBytes valueBytes index[k]? value
  simpa using hSum

section Admission

omit [Platform]

variable {g : FactGraph} {fact : SignedFact} (hFacts : CausalFacts g.facts)
  (hNew : fact.id ∉ g.facts) (hDeps : ∀ d ∈ fact.dependencies, d ∈ g.facts)

include hFacts hNew hDeps

/-- A new fact supersedes the same heads before and after it is stored. -/
private theorem signedHeadIsDominated_insert (head : FactId) :
    signedHeadIsDominated (g.facts.insert fact.id fact) fact.dependencies head =
      signedHeadIsDominated g.facts fact.dependencies head := by
  rw [Bool.eq_iff_iff, signedHeadIsDominated_iff, signedHeadIsDominated_iff]
  refine or_congr Iff.rfl (exists_congr fun d => and_congr_right fun hd => ?_)
  exact hFacts.depends_within (within_insert hNew) (hDeps d hd)

/-- The growth of one head entry when the new fact replaces what it supersedes. -/
private theorem entryWeight_replaceHeads (inlineBytes valueBytes : Nat)
    (entry : Option (OrdSet FactId)) (hEntry : fact.id ∉ entry.getD ∅) :
    setBytes inlineBytes valueBytes
        (insertMaximalHead (g.facts.insert fact.id fact) (entry.getD ∅) fact.id) +
      supersededHeads g.facts fact.dependencies entry * valueBytes =
    entryWeight (setBytes inlineBytes valueBytes) entry +
      ((if entry.isNone then inlineBytes else 0) + valueBytes) := by
  have hSize : (insertMaximalHead (g.facts.insert fact.id fact) (entry.getD ∅) fact.id).size +
      supersededHeads g.facts fact.dependencies entry = (entry.getD ∅).size + 1 := by
    unfold insertMaximalHead
    rw [getElem?_insert_eq, if_pos rfl]
    dsimp only
    rw [size_insert_of_not_mem fun h => hEntry (mem_keepMembers.mp h).1, size_keepMembers]
    simp only [signedHeadIsDominated_insert hFacts hNew hDeps]
    have hSplit := List.length_eq_length_filter_add (l := (entry.getD ∅).toList)
      (signedHeadIsDominated g.facts fact.dependencies)
    rw [Std.ExtTreeSet.length_toList] at hSplit
    unfold supersededHeads
    omega
  unfold setBytes
  rw [Nat.add_assoc, ← Nat.add_mul, hSize, Nat.add_mul]
  cases entry with
  | none => simp [entryWeight]
  | some heads =>
    simp only [entryWeight, Option.getD_some, Option.elim_some, Option.isNone_some,
      Bool.false_eq_true, if_false]
    omega

/-- The growth of a head index under the keys of the new fact. -/
private theorem mapSum_foldl_replaceHeads {κ : Type} [Ord κ] [Std.TransOrd κ]
    [Std.LawfulEqOrd κ] [DecidableEq κ] (inlineBytes valueBytes : Nat) (keys : List κ)
    (hNodup : keys.Nodup) (index : OrdMap κ (OrdSet FactId))
    (hIndex : ∀ k : κ, fact.id ∉ index.getD k ∅) :
    mapSum (setBytes inlineBytes valueBytes)
        (keys.foldl (FactGraph.replaceHeads (g.facts.insert fact.id fact) fact.id) index) +
      (keys.map fun k => supersededHeads g.facts fact.dependencies index[k]? * valueBytes).sum =
    mapSum (setBytes inlineBytes valueBytes) index +
      (keys.map fun k => (if index[k]?.isNone then inlineBytes else 0) + valueBytes).sum := by
  refine mapSum_foldl (setBytes inlineBytes valueBytes)
    (FactGraph.replaceHeads (g.facts.insert fact.id fact) fact.id)
    (fun _ entry => some
      (insertMaximalHead (g.facts.insert fact.id fact) (entry.getD ∅) fact.id))
    (fun m k a => ?_) _ _ keys index hNodup fun k _ => ?_
  · unfold FactGraph.replaceHeads
    rw [getElem?_insert_eq, getD_eq_getElem?_getD]
  · have hKey := hIndex k
    rw [getD_eq_getElem?_getD] at hKey
    exact entryWeight_replaceHeads hFacts hNew hDeps inlineBytes valueBytes index[k]? hKey

end Admission

/-! ## The exact difference -/

omit [Platform] in
/-- The graph after an insertion, field by field. -/
theorem storeAdmitted_eq (g : FactGraph) (fact : SignedFact) (cost : FactCost)
    (provenance : AuthorityProvenance) :
    g.storeAdmitted fact cost provenance =
      { g with
        admittedBytes := g.admittedBytes + cost.encodedBytes
        admittedDependencyEdges := g.admittedDependencyEdges + cost.dependencyEdges
        facts := g.facts.insert fact.id fact
        admittedFactCount := g.admittedFactCount + 1
        coldHistorySinceRetirement := min (g.coldHistorySinceRetirement + 1) u64Max
        admissionOrder := g.admissionOrder ++ [fact.id]
        factsRevision := g.factsRevision + 1
        generation := g.generation + 1
        authorityProvenance := g.authorityProvenance ∪ provenance
        authorityFactsIndex := fact.indexedAuthoritySubjects.toList.foldl
          (fun index subject => addTo index subject fact.id) g.authorityFactsIndex
        cellsIndex := g.cellsIndex ∪ fact.cellSet
        standDownIndex := FactGraph.addStandDown g.standDownIndex fact fact.id
        authoritySelectorIndex := FactGraph.addSelector g.authoritySelectorIndex fact fact.id
        cellHeadsIndex := fact.cellSet.toList.foldl
          (FactGraph.replaceHeads (g.facts.insert fact.id fact) fact.id) g.cellHeadsIndex
        authorityHeadsIndex :=
          (fact.useSubjects.filter fun subject => !fact.payloadLocal subject).foldl
            (FactGraph.replaceHeads (g.facts.insert fact.id fact) fact.id) g.authorityHeadsIndex
        indexedFactCount := (g.facts.insert fact.id fact).size
        indexedRevision := g.factsRevision + 1 } := by
  have hSelf : (g.facts.insert fact.id fact)[fact.id]? = some fact := by
    rw [getElem?_insert_eq, if_pos rfl]
  have hContains : (g.facts.insert fact.id fact).contains fact.id = true :=
    contains_iff_exists.mpr ⟨fact, hSelf⟩
  unfold FactGraph.storeAdmitted FactGraph.indexFact
  simp only [hContains, if_true]
  unfold FactGraph.indexFactMetadata FactGraph.indexFactHeads
  simp only [hSelf]

variable {fact : SignedFact}

omit [Platform] in
/-- The subjects a verified fact is indexed under are the lineages it extends. -/
theorem indexedAuthoritySubjects_perm
    (hUses : fact.content.authorityUses.map AuthorityUse.subject = fact.useSubjects) :
    fact.indexedAuthoritySubjects.toList.Perm
      (fact.useSubjects.filter fun subject => !fact.payloadLocal subject) := by
  have hNodup : (fact.useSubjects.filter fun subject => !fact.payloadLocal subject).Nodup :=
    (sortDedup_nodup _).filter _
  rw [List.perm_ext_iff_of_nodup (toList_nodup _) hNodup]
  intro subject
  unfold SignedFact.indexedAuthoritySubjects
  rw [Std.ExtTreeSet.mem_toList, mem_setOfList, ← hUses, List.filter_map]
  rfl

/-- The rows a plan replaces and adds. -/
private theorem provenanceResidencyDelta_ok {changes : AuthorityProvenance}
    (hPlan : g.plannedProvenance fact = .ok changes)
    (h : g.provenanceResidencyDelta fact = .ok delta) :
    mapSum rowBytes (g.authorityProvenance ∪ changes) + delta.removed =
      mapSum rowBytes g.authorityProvenance + delta.added := by
  unfold FactGraph.provenanceResidencyDelta at h
  rw [except_bind_eq_ok] at h
  obtain ⟨plan, hOk, hLoop⟩ := h
  rw [hPlan] at hOk
  cases hOk
  have hDelta := foldlM_delta (fun entry : FactId × AuthorityProvenanceRow => rowBytes entry.2)
    (fun entry => entryWeight rowBytes g.authorityProvenance[entry.1]?) (fun delta entry next h => by
      simp only [except_bind_eq_ok] at h
      obtain ⟨first, hFirst, bytes, hBytes, hNext⟩ := h
      rw [provenanceRowBytes_eq] at hBytes
      obtain ⟨rfl, -⟩ := checkedSum_ok hBytes
      obtain ⟨hAdded, hRemoved⟩ := addIndexResidency_ok hNext
      rw [hAdded, hRemoved]
      unfold FactGraph.removePreviousRow at hFirst
      split at hFirst
      · rename_i previous hPrevious
        rw [except_bind_eq_ok] at hFirst
        obtain ⟨old, hOld, hFirst⟩ := hFirst
        rw [provenanceRowBytes_eq] at hOld
        obtain ⟨rfl, -⟩ := checkedSum_ok hOld
        obtain ⟨hAdded, hRemoved⟩ := removeIndexResidency_ok hFirst
        rw [hAdded, hRemoved, hPrevious]
        exact ⟨rfl, rfl⟩
      · rename_i hPrevious
        cases hFirst
        rw [hPrevious]
        exact ⟨rfl, rfl⟩) changes.toList _ _ hLoop
  have hUnion := mapSum_union rowBytes g.authorityProvenance changes
  obtain ⟨hAdded, hRemoved⟩ := hDelta
  rw [hAdded, hRemoved, Nat.zero_add, Nat.zero_add]
  exact hUnion

private theorem selectorResidencyDelta_ok (h : g.selectorResidencyDelta delta fact = .ok next) :
    mapSum (setBytes Platform.sizeSelectorEntry Platform.sizeFactIdPair)
        (FactGraph.addSelector g.authoritySelectorIndex fact fact.id) + delta.added =
      mapSum (setBytes Platform.sizeSelectorEntry Platform.sizeFactIdPair)
        g.authoritySelectorIndex + next.added ∧ next.removed = delta.removed := by
  unfold FactGraph.selectorResidencyDelta at h
  unfold FactGraph.addSelector
  cases hSelector : fact.content.body.lineageSelector with
  | some selection =>
    obtain ⟨subject, selected⟩ := selection
    rw [hSelector] at h
    obtain ⟨hAdded, hRemoved⟩ := entryResidencyDelta_ok h
    have hSum := mapSum_foldl_addTo Platform.sizeSelectorEntry Platform.sizeFactIdPair
      (fact.id, selected) [subject] (List.nodup_singleton subject) g.authoritySelectorIndex
    simp only [List.foldl_cons, List.foldl_nil, List.map_cons, List.map_nil, List.sum_cons,
      List.sum_nil, Nat.add_zero] at hSum
    exact ⟨by dsimp only; omega, hRemoved⟩
  | none =>
    rw [hSelector] at h
    cases h
    exact ⟨rfl, rfl⟩

private theorem standDownResidencyDelta_ok (h : g.standDownResidencyDelta delta fact = .ok next) :
    mapSum (setBytes Platform.sizeDeviceEntry Platform.sizeFactId)
        (FactGraph.addStandDown g.standDownIndex fact fact.id) + delta.added =
      mapSum (setBytes Platform.sizeDeviceEntry Platform.sizeFactId)
        g.standDownIndex + next.added ∧ next.removed = delta.removed := by
  unfold FactGraph.standDownResidencyDelta at h
  unfold FactGraph.addStandDown
  cases hTarget : fact.content.body.standDownTarget with
  | some target =>
    rw [hTarget] at h
    obtain ⟨hAdded, hRemoved⟩ := entryResidencyDelta_ok h
    have hSum := mapSum_foldl_addTo Platform.sizeDeviceEntry Platform.sizeFactId fact.id [target]
      (List.nodup_singleton target) g.standDownIndex
    simp only [List.foldl_cons, List.foldl_nil, List.map_cons, List.map_nil, List.sum_cons,
      List.sum_nil, Nat.add_zero] at hSum
    exact ⟨by dsimp only; omega, hRemoved⟩
  | none =>
    rw [hTarget] at h
    cases h
    exact ⟨rfl, rfl⟩

section Exact

variable {g : FactGraph} {fact : SignedFact} (hFacts : CausalFacts g.facts)
  (hNew : fact.id ∉ g.facts) (hDeps : ∀ d ∈ fact.dependencies, d ∈ g.facts)

include hFacts hNew hDeps

variable {next : IndexResidencyDelta}

/-- The cells and cell heads of a new fact. -/
private theorem cellResidencyDelta_ok
    (hHeads : ∀ cell : ExclusiveCell, fact.id ∉ g.cellHeadsIndex.getD cell ∅)
    (h : fact.cellSet.toList.foldlM (fun delta cell => do
      let delta ← g.addResidencyWhen delta (!g.cellsIndex.contains cell) Platform.sizeCell
      g.headReplacementResidencyDelta delta g.cellHeadsIndex[cell]? fact.dependencies
        Platform.sizeCellEntry) delta = .ok next) :
    mapSum (setBytes Platform.sizeCellEntry Platform.sizeFactId) (fact.cellSet.toList.foldl
        (FactGraph.replaceHeads (g.facts.insert fact.id fact) fact.id) g.cellHeadsIndex) +
      (g.cellsIndex ∪ fact.cellSet).size * Platform.sizeCell + next.removed + delta.added =
    mapSum (setBytes Platform.sizeCellEntry Platform.sizeFactId) g.cellHeadsIndex +
      g.cellsIndex.size * Platform.sizeCell + next.added + delta.removed := by
  obtain ⟨hAdded, hRemoved⟩ := foldlM_delta
    (fun cell => (if !g.cellsIndex.contains cell then Platform.sizeCell else 0) +
      ((if g.cellHeadsIndex[cell]?.isNone then Platform.sizeCellEntry else 0) +
        Platform.sizeFactId))
    (fun cell => supersededHeads g.facts fact.dependencies g.cellHeadsIndex[cell]? *
      Platform.sizeFactId)
    (fun delta cell next h => by
      rw [except_bind_eq_ok] at h
      obtain ⟨mid, hMid, hNext⟩ := h
      obtain ⟨hAdded, hRemoved⟩ := addResidencyWhen_ok hMid
      obtain ⟨hAdded', hRemoved'⟩ := headReplacementResidencyDelta_ok hNext
      rw [hAdded', hRemoved', hAdded, hRemoved]
      exact ⟨Nat.add_assoc _ _ _, rfl⟩) _ _ _ h
  have hHeadSum := mapSum_foldl_replaceHeads hFacts hNew hDeps Platform.sizeCellEntry
    Platform.sizeFactId fact.cellSet.toList (toList_nodup _) g.cellHeadsIndex hHeads
  have hCells : (fact.cellSet.toList.map fun cell =>
      if !g.cellsIndex.contains cell then Platform.sizeCell else 0).sum =
      (fact.cellSet.toList.filter fun cell => !g.cellsIndex.contains cell).length *
        Platform.sizeCell := by
    generalize fact.cellSet.toList = cells
    induction cells with
    | nil => simp
    | cons cell cells ih =>
      rw [List.map_cons, List.sum_cons, ih, List.filter_cons]
      split
      · rw [List.length_cons, Nat.succ_mul, Nat.add_comm]
      · rw [Nat.zero_add]
  rw [List.sum_map_add, hCells] at hAdded
  rw [size_union, Nat.add_mul]
  omega

/-- The subject entries and lineage heads of a new fact. -/
private theorem subjectResidencyDelta_ok
    (hUses : fact.content.authorityUses.map AuthorityUse.subject = fact.useSubjects)
    (hHeads : ∀ subject : DeviceId, fact.id ∉ g.authorityHeadsIndex.getD subject ∅)
    (h : fact.indexedAuthoritySubjects.toList.foldlM (fun delta subject => do
      let delta ← g.entryResidencyDelta delta g.authorityFactsIndex subject fact.id
        Platform.sizeDeviceEntry Platform.sizeFactId
      g.headReplacementResidencyDelta delta g.authorityHeadsIndex[subject]? fact.dependencies
        Platform.sizeDeviceEntry) delta = .ok next) :
    mapSum (setBytes Platform.sizeDeviceEntry Platform.sizeFactId)
        ((fact.useSubjects.filter fun subject => !fact.payloadLocal subject).foldl
          (FactGraph.replaceHeads (g.facts.insert fact.id fact) fact.id) g.authorityHeadsIndex) +
      mapSum (setBytes Platform.sizeDeviceEntry Platform.sizeFactId)
        (fact.indexedAuthoritySubjects.toList.foldl
          (fun index subject => addTo index subject fact.id) g.authorityFactsIndex) +
      next.removed + delta.added =
    mapSum (setBytes Platform.sizeDeviceEntry Platform.sizeFactId) g.authorityHeadsIndex +
      mapSum (setBytes Platform.sizeDeviceEntry Platform.sizeFactId) g.authorityFactsIndex +
      next.added + delta.removed := by
  obtain ⟨hAdded, hRemoved⟩ := foldlM_delta
    (fun subject => ((if g.authorityFactsIndex[subject]?.isNone then Platform.sizeDeviceEntry
        else 0) +
      (if (g.authorityFactsIndex.getD subject ∅).contains fact.id then 0
        else Platform.sizeFactId)) +
      ((if g.authorityHeadsIndex[subject]?.isNone then Platform.sizeDeviceEntry else 0) +
        Platform.sizeFactId))
    (fun subject => supersededHeads g.facts fact.dependencies g.authorityHeadsIndex[subject]? *
      Platform.sizeFactId)
    (fun delta subject next h => by
      rw [except_bind_eq_ok] at h
      obtain ⟨mid, hMid, hNext⟩ := h
      obtain ⟨hAdded, hRemoved⟩ := entryResidencyDelta_ok hMid
      obtain ⟨hAdded', hRemoved'⟩ := headReplacementResidencyDelta_ok hNext
      rw [hAdded', hRemoved', hAdded, hRemoved]
      exact ⟨Nat.add_assoc _ _ _, rfl⟩) _ _ _ h
  have hPerm := indexedAuthoritySubjects_perm hUses
  have hHeadSum := mapSum_foldl_replaceHeads hFacts hNew hDeps Platform.sizeDeviceEntry
    Platform.sizeFactId (fact.useSubjects.filter fun subject => !fact.payloadLocal subject)
    (hPerm.nodup_iff.mp (toList_nodup _)) g.authorityHeadsIndex hHeads
  have hFactSum := mapSum_foldl_addTo Platform.sizeDeviceEntry Platform.sizeFactId fact.id
    fact.indexedAuthoritySubjects.toList (toList_nodup _) g.authorityFactsIndex
  rw [← (hPerm.map _).sum_eq, ← (hPerm.map _).sum_eq] at hHeadSum
  rw [List.sum_map_add] at hAdded
  omega

/-- **The residency change is exact.** -/
theorem indexBytes_storeAdmitted {cost : FactCost} {changes : AuthorityProvenance}
    (hUses : fact.content.authorityUses.map AuthorityUse.subject = fact.useSubjects)
    (hHeads : HeadsAmong g.facts (fun id => id ∈ g.facts) g)
    (hDelta : g.exactIndexResidencyDelta fact = .ok delta)
    (hPlan : g.plannedProvenance fact = .ok changes) :
    indexBytes (g.storeAdmitted fact cost changes) + delta.removed =
      indexBytes g + delta.added := by
  unfold FactGraph.exactIndexResidencyDelta at hDelta
  simp only [except_bind_eq_ok] at hDelta
  obtain ⟨d1, h1, d2, h2, d3, h3, provenance, hProvenance, d4, h4, d5, h5, h6⟩ := hDelta
  have e1 := cellResidencyDelta_ok hFacts hNew hDeps (fun cell hMem =>
    hNew ((hHeads.cellHeads.mem_iff cell fact.id).mp hMem).1.1) h1
  have e2 := subjectResidencyDelta_ok hFacts hNew hDeps hUses (fun subject hMem =>
    hNew ((hHeads.authorityHeads.mem_iff subject fact.id).mp hMem).1.1) h2
  obtain ⟨e3, e3'⟩ := selectorResidencyDelta_ok h3
  have eProvenance := provenanceResidencyDelta_ok hPlan hProvenance
  obtain ⟨e4, e4'⟩ := addIndexResidency_ok h4
  obtain ⟨e5, e5'⟩ := removeIndexResidency_ok h5
  obtain ⟨e6, e6'⟩ := standDownResidencyDelta_ok h6
  rw [storeAdmitted_eq]
  unfold indexBytes
  dsimp only at e1 ⊢
  omega

end Exact

/-! ## Plans that fit -/

section Fits

variable {g : FactGraph} {full : AuthorityProvenance}

/-- A table whose rows are parts of the rows of another. -/
def RowsWithin (table full : AuthorityProvenance) : Prop :=
  ∀ id s : FactId, s ∈ table.getD id ∅ → s ∈ full.getD id ∅

/-- A plan inside the complete table, with its bytes counted. -/
structure PlanWithin (full : AuthorityProvenance) (plan : AuthorityProvenance × Nat) : Prop where
  bytes : plan.2 = mapSum rowBytes plan.1
  rows : RowsWithin plan.1 full
  nonempty : ∀ (id : FactId) (row : AuthorityProvenanceRow), plan.1[id]? = some row → ∃ s, s ∈ row

/-- Rows inside the complete table cost no more than it. -/
theorem mapSum_rowBytes_le {table : AuthorityProvenance} (hRows : RowsWithin table full)
    (hNonempty : ∀ (id : FactId) (row : AuthorityProvenanceRow), table[id]? = some row →
      ∃ s, s ∈ row) : mapSum rowBytes table ≤ mapSum rowBytes full := by
  refine mapSum_le rowBytes fun id => ?_
  cases hRow : table[id]? with
  | none => exact Nat.zero_le _
  | some row =>
    have hSub : ∀ s, s ∈ row → s ∈ full.getD id ∅ := fun s hs => hRows id s (by
      rwa [getD_eq_getElem?_getD, hRow])
    obtain ⟨s, hs⟩ := hNonempty id row hRow
    have hMem := hSub s hs
    rw [getD_eq_getElem?_getD] at hSub hMem
    cases hFull : full[id]? with
    | none =>
      rw [hFull] at hMem
      exact absurd hMem Std.ExtTreeMap.not_mem_empty
    | some fullRow =>
      rw [hFull] at hSub
      exact Nat.add_le_add_left (Nat.mul_le_mul_right _ (map_size_le hSub)) _

/-- The complete table fits the ledger of a graph. -/
def TableFits (g : FactGraph) (full : AuthorityProvenance) : Prop :=
  mapSum rowBytes full ≤ u64Max ∧ mapSum rowBytes full ≤ g.policyLimits.maxDatabaseBytes

private theorem checkedSum_fits (hFits : TableFits g full) {bytes : Nat}
    (h : bytes ≤ mapSum rowBytes full) : checkedSum g bytes = .ok bytes :=
  if_pos (h.trans hFits.1)

private theorem checkDatabaseBytes_fits (hFits : TableFits g full) {bytes : Nat}
    (h : bytes ≤ mapSum rowBytes full) : g.checkDatabaseBytes bytes = .ok () :=
  if_neg (Nat.not_lt.mpr (h.trans hFits.2))

variable {plan : AuthorityProvenance × Nat}

/-- A recorded relation of the complete table fits. -/
private theorem planRelation_fits (hFits : TableFits g full)
    (hTable : RowsWithin g.authorityProvenance full) (hPlan : PlanWithin full plan)
    {selector id : FactId} {relation : AuthoritySelectorRelation}
    (hMem : selector ∈ full.getD id ∅) :
    ∃ next, g.planRelation selector plan id relation = .ok next ∧ PlanWithin full next := by
  obtain ⟨changes, planned⟩ := plan
  let row := (changes[id]?.or g.authorityProvenance[id]?).getD ∅
  let next := changes.insert id (row.insert selector relation)
  have hRow : ∀ s, s ∈ row → s ∈ full.getD id ∅ := by
    intro s hs
    cases hChange : changes[id]? with
    | some planned =>
      refine hPlan.rows id s ?_
      simpa [row, hChange, getD_eq_getElem?_getD] using hs
    | none =>
      refine hTable id s ?_
      simpa [row, hChange, getD_eq_getElem?_getD] using hs
  have hNext : RowsWithin next full := by
    intro a s hs
    rw [getD_eq_getElem?_getD, getElem?_insert_eq] at hs
    split at hs
    · rename_i hEq
      subst hEq
      rw [Option.getD_some, mem_map_insert_iff] at hs
      rcases hs with rfl | hs
      · exact hMem
      · exact hRow s hs
    · exact hPlan.rows a s (by rwa [getD_eq_getElem?_getD])
  have hNonempty : ∀ (a : FactId) (r : AuthorityProvenanceRow), next[a]? = some r →
      ∃ s, s ∈ r := by
    intro a r hr
    rw [getElem?_insert_eq] at hr
    split at hr
    · refine ⟨selector, ?_⟩
      rw [← Option.some.inj hr]
      exact Std.ExtTreeMap.mem_insert_self
    · exact hPlan.nonempty a r hr
  have hTotal := mapSum_rowBytes_le hNext hNonempty
  -- the charge of this relation is what the plan grows by
  let added := if row.contains selector then 0 else Platform.sizeRelationEntry
  let base := if changes.contains id then 0 else rowBytes row
  have hGrow : mapSum rowBytes next = planned + (base + added) := by
    have hInsert : mapSum rowBytes next + entryWeight rowBytes changes[id]? =
        mapSum rowBytes changes + rowBytes (row.insert selector relation) :=
      mapSum_insert rowBytes changes id (row.insert selector relation)
    have hBytes : rowBytes (row.insert selector relation) = rowBytes row + added := by
      simp only [rowBytes, added, Std.ExtTreeMap.size_insert, Std.ExtTreeMap.contains_iff_mem]
      split
      · rfl
      · rw [Nat.add_mul, Nat.one_mul, Nat.add_assoc]
    have hPlanned : planned = mapSum rowBytes changes := hPlan.bytes
    cases hChange : changes[id]? with
    | some old =>
      have hBase : base = 0 := if_pos (contains_iff_exists.mpr ⟨old, hChange⟩)
      have hOld : rowBytes row = entryWeight rowBytes changes[id]? := by
        simp only [row, hChange]
        rfl
      omega
    | none =>
      have hBase : base = rowBytes row :=
        if_neg fun h => by
          obtain ⟨old, hOld⟩ := contains_iff_exists.mp h
          rw [hChange] at hOld
          cases hOld
      have hOld : entryWeight rowBytes changes[id]? = 0 := by
        rw [hChange]
        rfl
      omega
  have hBase : g.firstTouchBytes changes id = .ok base := by
    unfold FactGraph.firstTouchBytes
    by_cases hContains : changes.contains id = true
    · rw [if_pos hContains]
      exact congrArg _ (if_pos hContains).symm
    · rw [if_neg hContains]
      have hBaseEq : base = rowBytes row := if_neg hContains
      have hNone : changes[id]? = none := by
        cases hChange : changes[id]? with
        | none => rfl
        | some old => exact absurd (contains_iff_exists.mpr ⟨old, hChange⟩) hContains
      cases hOld : g.authorityProvenance[id]? with
      | none =>
        have : rowBytes row = Platform.sizeProvenanceEntry := by
          simp [row, hNone, hOld, rowBytes]
        rw [hBaseEq, this]
      | some old =>
        have hRowEq : row = old := by simp [row, hNone, hOld]
        dsimp only
        rw [provenanceRowBytes_eq, checkedSum_fits hFits (by rw [← hRowEq]; omega), hBaseEq,
          hRowEq]
  refine ⟨(next, mapSum rowBytes next), ?_, rfl, hNext, hNonempty⟩
  have hCharge : g.checkedAddBytes base added = .ok (base + added) :=
    checkedSum_fits hFits (by omega)
  have hNextBytes : g.checkedAddBytes planned (base + added) = .ok (planned + (base + added)) :=
    checkedSum_fits hFits (by omega)
  rw [hGrow]
  exact except_bind_eq_ok.mpr ⟨base, hBase, except_bind_eq_ok.mpr ⟨_, hCharge,
    except_bind_eq_ok.mpr ⟨_, hNextBytes, except_bind_eq_ok.mpr
      ⟨(), checkDatabaseBytes_fits hFits (hGrow ▸ hTotal), rfl⟩⟩⟩⟩

variable {fact : SignedFact} (hFits : TableFits g full) (hFull : ProvenanceOf g.facts full)
  (hFacts : CausalFacts g.facts)

include hFits hFull hFacts

/-- The relations of one selector to all resident facts fit. -/
private theorem planSelector_fits (hTable : RowsWithin g.authorityProvenance full)
    (hPlan : PlanWithin full plan) {selected : FactId}
    (hSelected : selectedOf g.facts fact.id = some selected) (hResident : selected ∈ g.facts) :
    ∃ next, g.planSelector fact g.facts plan fact.id selected = .ok next ∧
      PlanWithin full next := by
  obtain ⟨ancestors, hAncestors, hMem⟩ := completeAncestors_spec hFacts hResident
  unfold FactGraph.planSelector
  rw [hAncestors, if_pos (.inl rfl)]
  refine foldlM_ok_of_invariant _ (fun plan id hId hPlan => ?_) plan hPlan
  have hIdMem : id ∈ g.facts := Std.ExtTreeMap.mem_keys.mp hId
  rw [selectorRelation_eq hFacts hIdMem hMem]
  change ∃ next, (if (exactRelation g.facts fact.id selected id).isRelated then _ else _) = _ ∧ _
  split
  · rename_i hRelated
    refine planRelation_fits hFits hTable hPlan ?_
    rw [mem_iff_exists, hFull.exact_of_done id fact.id trivial]
    exact ⟨_, (provenanceEntry_eq_some_iff hSelected).mpr ⟨⟨hIdMem, hRelated⟩, rfl⟩⟩
  · exact ⟨plan, rfl, hPlan⟩

omit hFull hFacts in
private theorem checkPlannedRows_fits {changes : AuthorityProvenance}
    (hBytes : mapSum rowBytes changes ≤ mapSum rowBytes full) :
    ∃ bytes, g.checkPlannedRows changes = .ok bytes := by
  unfold FactGraph.checkPlannedRows
  have hLoop : ∀ (entries : List (FactId × AuthorityProvenanceRow)) (start : Nat),
      start + (entries.map fun entry => rowBytes entry.2).sum ≤ mapSum rowBytes full →
      ∃ bytes, entries.foldlM (fun bytes (entry : FactId × AuthorityProvenanceRow) => do
        let bytes ← g.checkedAddBytes bytes (← g.provenanceRowBytes entry.2)
        g.checkDatabaseBytes bytes
        return bytes) start = .ok bytes := by
    intro entries
    induction entries with
    | nil => exact fun start _ => ⟨start, rfl⟩
    | cons entry entries ih =>
      intro start hStart
      rw [List.map_cons, List.sum_cons] at hStart
      obtain ⟨bytes, hRest⟩ := ih (start + rowBytes entry.2) (by omega)
      refine ⟨bytes, ?_⟩
      have hRow : g.provenanceRowBytes entry.2 = .ok (rowBytes entry.2) := by
        rw [provenanceRowBytes_eq, checkedSum_fits hFits (by omega)]
      have hSum : g.checkedAddBytes start (rowBytes entry.2) = .ok (start + rowBytes entry.2) :=
        checkedSum_fits hFits (by omega)
      have hDatabase : g.checkDatabaseBytes (start + rowBytes entry.2) = .ok () :=
        checkDatabaseBytes_fits hFits (by omega)
      rw [List.foldlM_cons]
      exact except_bind_eq_ok.mpr ⟨_, except_bind_eq_ok.mpr ⟨_, hRow,
        except_bind_eq_ok.mpr ⟨_, hSum, except_bind_eq_ok.mpr ⟨_, hDatabase, rfl⟩⟩⟩, hRest⟩
  exact hLoop changes.toList 0 (by rw [Nat.zero_add]; exact hBytes)

/-- **A rebuild step always fits** when the complete table does. -/
theorem plannedProvenance_fits {done : FactId → Prop}
    (hProvenance : ProvenanceAmong g.facts done g.authorityProvenance)
    (hStaged : g.stagedColdPending = 0) (hResident : SelectedResident g.facts)
    (hGet : g.facts[fact.id]? = some fact) : ∃ changes, g.plannedProvenance fact = .ok changes := by
  have hTable : RowsWithin g.authorityProvenance full := by
    intro id s hs
    obtain ⟨relation, hRelation⟩ := mem_iff_exists.mp hs
    rw [mem_iff_exists, hFull.exact_of_done id s trivial]
    by_cases hDone : done s
    · exact ⟨relation, by rw [← hProvenance.exact_of_done id s hDone, hRelation]⟩
    · rw [hProvenance.none_of_not_done id s hDone] at hRelation
      cases hRelation
  have hRow : ∀ s, s ∈ g.inheritedRow fact → s ∈ full.getD fact.id ∅ := by
    intro s hs
    refine hTable fact.id s ?_
    have hEntry := hProvenance.inheritedEntry_resident hFacts hGet fact.id s
    rw [inheritedEntry, if_pos rfl] at hEntry
    rw [mem_iff_exists] at hs ⊢
    rwa [← hEntry]
  have hInherited : ∃ plan, g.inheritedPlan fact = .ok plan ∧ PlanWithin full plan := by
    unfold FactGraph.inheritedPlan
    dsimp only
    by_cases hEmpty : (g.inheritedRow fact).isEmpty = true
    · rw [if_pos hEmpty]
      refine ⟨_, rfl, rfl, fun id s hs => ?_, fun id row hGetRow => ?_⟩
      · simp at hs
      · simp at hGetRow
    · rw [if_neg hEmpty]
      let changes : AuthorityProvenance := (∅ : AuthorityProvenance).insert fact.id
        (g.inheritedRow fact)
      have hBytes : mapSum rowBytes changes = rowBytes (g.inheritedRow fact) := by
        have h := mapSum_insert rowBytes (∅ : AuthorityProvenance) fact.id (g.inheritedRow fact)
        have hNone : entryWeight rowBytes (∅ : AuthorityProvenance)[fact.id]? = 0 := by
          rw [Std.ExtTreeMap.getElem?_empty]
          rfl
        rw [mapSum_empty, Nat.zero_add, hNone] at h
        exact h
      have hWithin : PlanWithin full (changes, rowBytes (g.inheritedRow fact)) := by
        refine ⟨hBytes.symm, fun id s hs => ?_, fun id row hGetRow => ?_⟩
        · rw [getD_eq_getElem?_getD, getElem?_insert_eq] at hs
          split at hs
          · rename_i hEq
            exact hEq ▸ hRow s hs
          · simp at hs
        · rw [getElem?_insert_eq] at hGetRow
          split at hGetRow
          · rw [← Option.some.inj hGetRow]
            exact exists_mem_of_not_isEmpty hEmpty
          · simp at hGetRow
      have hLe := mapSum_rowBytes_le hWithin.rows hWithin.nonempty
      rw [hBytes] at hLe
      refine ⟨_, ?_, hWithin⟩
      have hRowBytes : g.provenanceRowBytes (g.inheritedRow fact) =
          .ok (rowBytes (g.inheritedRow fact)) := by
        rw [provenanceRowBytes_eq, checkedSum_fits hFits hLe]
      exact except_bind_eq_ok.mpr ⟨_, hRowBytes,
        except_bind_eq_ok.mpr ⟨_, checkDatabaseBytes_fits hFits hLe, rfl⟩⟩
  obtain ⟨start, hStart, hStartWithin⟩ := hInherited
  unfold FactGraph.plannedProvenance
  split
  · exact ⟨∅, rfl⟩
  · rw [insert_resident hGet]
    have hContexts : ∃ contexts, g.provenanceContexts fact g.facts = .ok contexts ∧
        ∃ plan, contexts.toList.foldlM (fun plan (entry : FactId × FactId) =>
          g.planSelector fact g.facts plan entry.1 entry.2) start = .ok plan ∧
            PlanWithin full plan := by
      unfold FactGraph.provenanceContexts
      simp only [hStaged, if_true]
      cases hSelector : fact.content.body.lineageSelector with
      | none => exact ⟨_, rfl, start, rfl, hStartWithin⟩
      | some selector =>
        obtain ⟨subject, selected⟩ := selector
        have hSelected : selectedOf g.facts fact.id = some selected := by
          simp [selectedOf, hGet, hSelector]
        obtain ⟨plan, hPlan, hPlanWithin⟩ := planSelector_fits hFits hFull hFacts hTable
          hStartWithin hSelected (hResident _ _ hSelected)
        refine ⟨_, rfl, plan, ?_, hPlanWithin⟩
        change (g.planSelector fact g.facts start fact.id selected >>= fun plan => pure plan) = _
        rw [hPlan]
        rfl
    obtain ⟨contexts, hOk, plan, hPlan, hPlanWithin⟩ := hContexts
    obtain ⟨bytes, hBytes⟩ := checkPlannedRows_fits hFits
      (mapSum_rowBytes_le hPlanWithin.rows hPlanWithin.nonempty)
    exact ⟨plan.1, except_bind_eq_ok.mpr ⟨start, hStart, except_bind_eq_ok.mpr ⟨contexts, hOk,
      except_bind_eq_ok.mpr ⟨plan, hPlan, except_bind_eq_ok.mpr ⟨bytes, hBytes, rfl⟩⟩⟩⟩⟩

end Fits

end Bytes

end MyOwnMesh.Semantic
