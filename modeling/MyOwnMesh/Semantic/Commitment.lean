import MyOwnMesh.Semantic.Encoding
import MyOwnMesh.Semantic.Project

/-!
# The commitment of a projection

A commitment is the canonical trie of the keyed digests of both maps
(`Commits`): the encoded keys of distinct entries differ, so updating, restoring
or rebuilding a projection keeps its commitment the one its maps define. The
root is therefore a function of the two maps, whatever the hash is.
-/

namespace MyOwnMesh.Semantic

open Foundation

/-! ## Keys -/

private theorem key_tag_size : "cell".utf8ByteSize < 2 ^ 64 ∧
    "stand_down".utf8ByteSize < 2 ^ 64 := by
  decide +kernel

theorem cellKey_injective {a b : ExclusiveCell} (h : cellKey a = cellKey b) : a = b :=
  cell_delimited.injective trivial trivial (List.append_cancel_left h)

theorem standDownKey_injective {a b : DeviceId} (h : standDownKey a = standDownKey b) : a = b :=
  device_delimited.injective trivial trivial (List.append_cancel_left h)

theorem cellKey_ne_standDownKey (cell : ExclusiveCell) (target : DeviceId) :
    cellKey cell ≠ standDownKey target := by
  intro h
  have hTag := (tag_delimited key_tag_size.1 key_tag_size.2 h).1
  exact absurd hTag (by decide)

/-! ## Keyed digests -/

variable [Platform]

/-- `m` holds exactly the keyed digests of the two maps. -/
structure KeyedDigests (m : OrdMap (List UInt8) Digest)
    (cells : OrdMap ExclusiveCell CellProjection) (standDown : OrdMap DeviceId StandDown) :
    Prop where
  cell : ∀ cell, m[cellKey cell]? = cells[cell]?.map cellValue
  target : ∀ target, m[standDownKey target]? = standDown[target]?.map standDownValue
  other : ∀ key : List UInt8, (∀ cell, key ≠ cellKey cell) → (∀ target, key ≠ standDownKey target) →
    m[key]? = none

namespace KeyedDigests

variable {m m' : OrdMap (List UInt8) Digest} {cells : OrdMap ExclusiveCell CellProjection}
  {standDown : OrdMap DeviceId StandDown}

theorem unique (h : KeyedDigests m cells standDown) (h' : KeyedDigests m' cells standDown) :
    m = m' := by
  refine Std.ExtTreeMap.ext_getElem? fun key => ?_
  by_cases hCell : ∃ cell, key = cellKey cell
  · obtain ⟨cell, rfl⟩ := hCell
    rw [h.cell, h'.cell]
  · by_cases hTarget : ∃ target, key = standDownKey target
    · obtain ⟨target, rfl⟩ := hTarget
      rw [h.target, h'.target]
    · rw [h.other key (not_exists.mp hCell) (not_exists.mp hTarget),
        h'.other key (not_exists.mp hCell) (not_exists.mp hTarget)]

theorem empty : KeyedDigests ∅ ∅ ∅ :=
  ⟨fun _ => by simp, fun _ => by simp, fun _ _ _ => by simp⟩

theorem assignCell (h : KeyedDigests m cells standDown) (cell : ExclusiveCell)
    (value : Option CellProjection) :
    KeyedDigests (assign m (cellKey cell) (value.map cellValue)) (assign cells cell value)
      standDown where
  cell a := by
    rw [getElem?_assign, getElem?_assign]
    by_cases hEq : cell = a
    · rw [if_pos hEq, if_pos (congrArg cellKey hEq)]
    · rw [if_neg hEq, if_neg fun hKey => hEq (cellKey_injective hKey), h.cell]
  target a := by
    rw [getElem?_assign, if_neg (cellKey_ne_standDownKey cell a), h.target]
  other key hCell hTarget := by
    rw [getElem?_assign, if_neg (hCell cell).symm, h.other key hCell hTarget]

theorem assignTarget (h : KeyedDigests m cells standDown) (target : DeviceId)
    (value : Option StandDown) :
    KeyedDigests (assign m (standDownKey target) (value.map standDownValue)) cells
      (assign standDown target value) where
  cell a := by
    rw [getElem?_assign, if_neg fun hKey => cellKey_ne_standDownKey a target hKey.symm, h.cell]
  target a := by
    rw [getElem?_assign, getElem?_assign]
    by_cases hEq : target = a
    · rw [if_pos hEq, if_pos (congrArg standDownKey hEq)]
    · rw [if_neg hEq, if_neg fun hKey => hEq (standDownKey_injective hKey), h.target]
  other key hCell hTarget := by
    rw [getElem?_assign, if_neg (hTarget target).symm, h.other key hCell hTarget]

end KeyedDigests

/-! ## Commitments -/

/-- The commitment to a map of keyed digests. -/
def ProjectionCommitment.ofDigests (m : OrdMap (List UInt8) Digest) : ProjectionCommitment :=
  ⟨canonical merkleAlgebra digestBit 256 0 m⟩

theorem ProjectionCommitment.root_ofDigests (m : OrdMap (List UInt8) Digest) :
    (ofDigests m).root = canonical merkleAlgebra digestBit 256 0 m := by
  simp only [ofDigests]

theorem ProjectionCommitment.apply_ofDigests (m : OrdMap (List UInt8) Digest) (key : List UInt8)
    (value : Option Digest) : (ofDigests m).apply key value = ofDigests (assign m key value) := by
  unfold ofDigests ProjectionCommitment.apply
  rw [update_canonical]

/-- The commitment is the one of the two maps. -/
def Commits (commitment : ProjectionCommitment) (cells : OrdMap ExclusiveCell CellProjection)
    (standDown : OrdMap DeviceId StandDown) : Prop :=
  ∃ m, KeyedDigests m cells standDown ∧ commitment = .ofDigests m

namespace Commits

variable {commitment : ProjectionCommitment} {cells : OrdMap ExclusiveCell CellProjection}
  {standDown : OrdMap DeviceId StandDown}

theorem default : Commits ProjectionCommitment.default ∅ ∅ :=
  ⟨∅, .empty, congrArg ProjectionCommitment.mk (canonical_empty 256 0).symm⟩

/-- Committing to listed keys follows their assignment in the maps. -/
theorem recommit (h : Commits commitment cells standDown)
    (cellEntries : List (ExclusiveCell × Option CellProjection))
    (targetEntries : List (DeviceId × Option StandDown)) :
    Commits (Projection.recommit commitment cellEntries targetEntries)
      (cellEntries.foldl (fun cells entry => assign cells entry.1 entry.2) cells)
      (targetEntries.foldl (fun standDown entry => assign standDown entry.1 entry.2)
        standDown) := by
  refine List.foldl_rel (r := fun commitment standDown => Commits commitment _ standDown)
    (List.foldl_rel (r := fun commitment cells => Commits commitment cells standDown) h ?_) ?_
  · rintro ⟨cell, value⟩ - _ cells ⟨m, hm, rfl⟩
    exact ⟨_, hm.assignCell cell value, ProjectionCommitment.apply_ofDigests ..⟩
  · rintro ⟨target, value⟩ - _ standDown ⟨m, hm, rfl⟩
    exact ⟨_, hm.assignTarget target value, ProjectionCommitment.apply_ofDigests ..⟩

theorem fromMaps (cells : OrdMap ExclusiveCell CellProjection)
    (standDown : OrdMap DeviceId StandDown) :
    Commits (commitmentFromMaps cells standDown) cells standDown := by
  have h := recommit Commits.default (cells.toList.map fun entry => (entry.1, some entry.2))
    (standDown.toList.map fun entry => (entry.1, some entry.2))
  unfold Projection.recommit at h
  simp only [List.foldl_map] at h
  rwa [foldl_assign_toList, foldl_assign_toList] at h

theorem eq_fromMaps (h : Commits commitment cells standDown) :
    commitment = commitmentFromMaps cells standDown := by
  obtain ⟨m, hm, rfl⟩ := h
  obtain ⟨m', hm', hEq⟩ := Commits.fromMaps cells standDown
  rw [hEq, hm.unique hm']

end Commits

/-! ## Projections -/

namespace Projection

/-- The commitment of a projection is the one of its maps. -/
def Committed (projection : Projection) : Prop :=
  projection.commitment = commitmentFromMaps projection.cells projection.standDown

theorem Committed.commits {projection : Projection} (h : projection.Committed) :
    Commits projection.commitment projection.cells projection.standDown := by
  rw [h]
  exact Commits.fromMaps _ _

theorem committed_fromGraph (g : FactGraph) : (fromGraph g).Committed := rfl

theorem committed_rebuildCommitment (projection : Projection) :
    projection.rebuildCommitment.Committed := rfl

/-- Committed projections are equal when their maps are. -/
theorem Committed.ext {p q : Projection} (hp : p.Committed) (hq : q.Committed)
    (hCells : p.cells = q.cells) (hStandDown : p.standDown = q.standDown) : p = q := by
  unfold Committed at hp hq
  rw [hCells, hStandDown, ← hq] at hp
  cases p
  cases q
  congr

omit [Platform] in
theorem getElem?_updateCells (g : FactGraph) (cells : OrdMap ExclusiveCell CellProjection)
    (affected : OrdSet ExclusiveCell) (cell : ExclusiveCell) :
    (updateCells g cells affected)[cell]? =
      if cell ∈ affected then g.projectedCell cell else cells[cell]? := by
  unfold updateCells
  rw [getElem?_foldl_assign_values]
  simp only [Std.ExtTreeSet.mem_toList]

omit [Platform] in
theorem getElem?_updateStandDown (g : FactGraph) (standDown : OrdMap DeviceId StandDown)
    (affected : OrdSet DeviceId) (target : DeviceId) :
    (updateStandDown g standDown affected)[target]? =
      if target ∈ affected then
        (g.indexedStandDownCandidatesFor target).bind (g.projectedStandDownForTarget target)
      else standDown[target]? := by
  unfold updateStandDown
  rw [getElem?_foldl_assign_values fun target =>
    (g.indexedStandDownCandidatesFor target).bind (g.projectedStandDownForTarget target)]
  simp only [Std.ExtTreeSet.mem_toList]

/-- **An update keeps the commitment.** -/
theorem Committed.updateFromGraph {previous : Projection} (h : previous.Committed) (g : FactGraph)
    (affectedCells : OrdSet ExclusiveCell) (affectedTargets : OrdSet DeviceId) :
    (Projection.updateFromGraph g previous affectedCells affectedTargets).Committed := by
  have hCommits := h.commits.recommit
    (affectedCells.toList.map fun cell =>
      (cell, (updateCells g previous.cells affectedCells)[cell]?))
    (affectedTargets.toList.map fun target =>
      (target, (updateStandDown g previous.standDown affectedTargets)[target]?))
  refine Commits.eq_fromMaps ?_
  have hCells : affectedCells.toList.map (fun cell =>
      (cell, (updateCells g previous.cells affectedCells)[cell]?)) =
      affectedCells.toList.map fun cell => (cell, g.projectedCell cell) :=
    List.map_congr_left fun cell hMem => by
      rw [getElem?_updateCells, if_pos (Std.ExtTreeSet.mem_toList.mp hMem)]
  have hTargets : affectedTargets.toList.map (fun target =>
      (target, (updateStandDown g previous.standDown affectedTargets)[target]?)) =
      affectedTargets.toList.map fun target => (target,
        (g.indexedStandDownCandidatesFor target).bind (g.projectedStandDownForTarget target)) :=
    List.map_congr_left fun target hMem => by
      rw [getElem?_updateStandDown, if_pos (Std.ExtTreeSet.mem_toList.mp hMem)]
  rw [hCells, hTargets, List.foldl_map, List.foldl_map, ← hCells, ← hTargets] at hCommits
  exact hCommits

/-- **Restoring captured entries keeps the commitment.** -/
theorem Committed.restoreSparseEntries {projection : Projection} (h : projection.Committed)
    (previous : SparseEntries) : (projection.restoreSparseEntries previous).Committed :=
  (h.commits.recommit previous.cells.toList previous.standDown.toList).eq_fromMaps

end Projection

end MyOwnMesh.Semantic
