import MyOwnMesh.Foundation.MapSum
import MyOwnMesh.Foundation.TrieBinding
import MyOwnMesh.Semantic.Commitment

/-!
# The commitment root binds the projection

The commitment hashes typed inputs: empty subtrees, leaves, branches, cell
values and stand-downs. Their encodings differ, so where SHA-256 does not
collide on the inputs of two projections, equal roots mean equal maps.
`Projection.hashedInputs` lists those inputs; a digest of 32 bytes must collide
somewhere, so the absence of collisions is only assumed for them.
-/

namespace MyOwnMesh.Semantic

open Foundation

/-! ## Inputs -/

/-- The bytes one commitment node hashes. -/
def encodeInput : TrieInput (List UInt8) Digest Digest → List UInt8
  | .empty depth => projectionCommitmentDomain ++ [101] ++ beBytes 2 depth
  | .leaf entries => projectionCommitmentDomain ++ [108] ++ beBytes 8 entries.length ++
      entries.flatMap fun (key, value) => beBytes 8 key.length ++ key ++ beBytes 32 value.val
  | .branch depth left right => projectionCommitmentDomain ++ [98] ++ beBytes 2 depth ++
      beBytes 32 left.val ++ beBytes 32 right.val

def cellInput : CellProjection → List UInt8
  | .value id => Encoder.tag "value" ++ Encoder.id id
  | .conflict ids => Encoder.tag "conflict" ++ Encoder.listIds ids

def standDownInput (value : StandDown) : List UInt8 :=
  Encoder.device value.target ++ Encoder.id value.proof

/-- Inputs whose depths and counts fit their fields. -/
def InputInRange : TrieInput (List UInt8) Digest Digest → Prop
  | .empty depth | .branch depth _ _ => depth < 2 ^ 16
  | .leaf entries => Counted entries ∧ ∀ entry ∈ entries, Counted entry.1

/-- Key bytes behind their length, then the digest of the value. -/
private theorem entry_delimited :
    Delimited (fun entry : List UInt8 × Digest => Counted entry.1)
      fun (key, value) => beBytes 8 key.length ++ key ++ beBytes 32 value.val := by
  rintro ⟨key, value⟩ ⟨key', value'⟩ r s hKey hKey' hEq
  simp only [List.append_assoc] at hEq
  obtain ⟨hLength, hBytes⟩ := beBytes_delimited 8 hKey hKey' hEq
  obtain ⟨rfl, hDigest⟩ := List.append_inj hBytes hLength
  obtain ⟨hValue, hRest⟩ := beBytes_delimited 32 value.isLt value'.isLt hDigest
  exact ⟨by rw [Fin.ext hValue], hRest⟩

/-- The byte after the domain, which tells the three kinds apart. -/
private def inputKind : TrieInput (List UInt8) Digest Digest → UInt8
  | .empty _ => 101
  | .leaf _ => 108
  | .branch .. => 98

private def inputFields : TrieInput (List UInt8) Digest Digest → List UInt8
  | .empty depth => beBytes 2 depth ++ []
  | .leaf entries => beBytes 8 entries.length ++
      entries.flatMap fun (key, value) => beBytes 8 key.length ++ key ++ beBytes 32 value.val
  | .branch depth left right =>
    beBytes 2 depth ++ (beBytes 32 left.val ++ (beBytes 32 right.val ++ []))

theorem encodeInput_injective {a b : TrieInput (List UInt8) Digest Digest} (ha : InputInRange a)
    (hb : InputInRange b) (hEq : encodeInput a = encodeInput b) : a = b := by
  have hEncode : ∀ input : TrieInput (List UInt8) Digest Digest,
      encodeInput input = projectionCommitmentDomain ++ inputKind input :: inputFields input := by
    intro input
    cases input <;> simp [encodeInput, inputKind, inputFields]
  rw [hEncode, hEncode] at hEq
  obtain ⟨hKind, hFields⟩ := List.cons.inj (List.append_cancel_left hEq)
  cases a <;> cases b <;> dsimp only [inputKind] at hKind <;>
    try exact absurd hKind (by decide)
  case empty.empty =>
      obtain ⟨rfl, -⟩ := beBytes_delimited 2 ha hb hFields
      rfl
  case leaf.leaf =>
      rw [((beBytes_delimited 8).counted entry_delimited).injective ha hb hFields]
  case branch.branch depth left right depth' left' right' =>
      obtain ⟨rfl, hLeft, hRest⟩ := (beBytes_delimited 2).append (beBytes_delimited 32) ha hb
        left.isLt left'.isLt hFields
      obtain ⟨hRight, -⟩ := beBytes_delimited 32 right.isLt right'.isLt hRest
      rw [Fin.ext hLeft, Fin.ext hRight]

/-- Whether a conflict's heads are counted in 64 bits. -/
def CellProjection.InMemory : CellProjection → Prop
  | .value _ => True
  | .conflict ids => Counted ids

private theorem value_tag_size : "value".utf8ByteSize < 2 ^ 64 ∧
    "conflict".utf8ByteSize < 2 ^ 64 := by
  decide +kernel

theorem cellInput_injective {a b : CellProjection} (ha : a.InMemory) (hb : b.InMemory)
    (hEq : cellInput a = cellInput b) : a = b := by
  obtain ⟨hValue, hConflict⟩ := value_tag_size
  cases a <;> cases b <;> simp only [cellInput] at hEq
  case value.value => rw [id_delimited.injective trivial trivial (List.append_cancel_left hEq)]
  case value.conflict => exact absurd (tag_delimited hValue hConflict hEq).1 (by decide)
  case conflict.value => exact absurd (tag_delimited hConflict hValue hEq).1 (by decide)
  case conflict.conflict => rw [listIds_delimited.injective ha hb (List.append_cancel_left hEq)]

theorem standDownInput_injective {a b : StandDown} (hEq : standDownInput a = standDownInput b) :
    a = b := by
  obtain ⟨hTarget, hRest⟩ := device_delimited trivial trivial hEq
  have hProof := id_delimited.injective trivial trivial hRest
  cases a
  cases b
  exact congr (congrArg StandDown.mk hTarget) hProof

variable [Platform]

theorem merkleAlgebra_hashed : HashedAlgebra merkleAlgebra MerkleNote.hash
    fun input => Platform.sha256 (encodeInput input) where
  empty _ := rfl
  leaf _ := rfl
  branch _ _ _ := rfl

theorem cellValue_eq (value : CellProjection) :
    cellValue value = Platform.sha256 (cellInput value) := by
  cases value <;> rfl

namespace Projection

/-- Every input hashed for the commitment of a projection. -/
def hashedInputs (projection : Projection) : List (List UInt8) :=
  (projection.commitment.root.inputs MerkleNote.hash 0).map encodeInput ++
    projection.cells.toList.map (fun entry => cellInput entry.2) ++
    projection.standDown.toList.map fun entry => standDownInput entry.2

omit [Platform] in
theorem cellInput_mem_hashedInputs {projection : Projection} {cell : ExclusiveCell}
    {value : CellProjection} (h : projection.cells[cell]? = some value) :
    cellInput value ∈ projection.hashedInputs := by
  refine List.mem_append_left _ (List.mem_append_right _ (List.mem_map.mpr ⟨(cell, value), ?_, rfl⟩))
  exact Std.ExtTreeMap.mem_toList_iff_getElem?_eq_some.mpr h

omit [Platform] in
theorem standDownInput_mem_hashedInputs {projection : Projection} {target : DeviceId}
    {value : StandDown} (h : projection.standDown[target]? = some value) :
    standDownInput value ∈ projection.hashedInputs := by
  refine List.mem_append_right _ (List.mem_map.mpr ⟨(target, value), ?_, rfl⟩)
  exact Std.ExtTreeMap.mem_toList_iff_getElem?_eq_some.mpr h

/-- Maps and head lists hold fewer than `2 ^ 64` entries, as in memory. -/
structure InMemory (projection : Projection) : Prop where
  entries : projection.cells.size + projection.standDown.size < 2 ^ 64
  values : ∀ (cell : ExclusiveCell) value, projection.cells[cell]? = some value → value.InMemory

end Projection

/-! ## Binding -/

namespace KeyedDigests

variable {m : OrdMap (List UInt8) Digest} {cells : OrdMap ExclusiveCell CellProjection}
  {standDown : OrdMap DeviceId StandDown}

/-- The keys are those of the entries of the two maps. -/
theorem key_cases (h : KeyedDigests m cells standDown) {key : List UInt8} {digest : Digest}
    (hGet : m[key]? = some digest) :
    (∃ cell ∈ cells, key = cellKey cell) ∨ ∃ target ∈ standDown, key = standDownKey target := by
  by_cases hCell : ∃ cell, key = cellKey cell
  · obtain ⟨cell, rfl⟩ := hCell
    rw [h.cell, Option.map_eq_some_iff] at hGet
    obtain ⟨value, hValue, -⟩ := hGet
    exact .inl ⟨cell, mem_iff_exists.mpr ⟨value, hValue⟩, rfl⟩
  · by_cases hTarget : ∃ target, key = standDownKey target
    · obtain ⟨target, rfl⟩ := hTarget
      rw [h.target, Option.map_eq_some_iff] at hGet
      obtain ⟨value, hValue, -⟩ := hGet
      exact .inr ⟨target, mem_iff_exists.mpr ⟨value, hValue⟩, rfl⟩
    · rw [h.other key (not_exists.mp hCell) (not_exists.mp hTarget)] at hGet
      cases hGet

theorem size_le (h : KeyedDigests m cells standDown) : m.size ≤ cells.size + standDown.size := by
  have hSubset : m.keys ⊆ cells.keys.map cellKey ++ standDown.keys.map standDownKey := by
    intro key hKey
    rw [Std.ExtTreeMap.mem_keys, mem_iff_exists] at hKey
    obtain ⟨digest, hGet⟩ := hKey
    rw [List.mem_append, List.mem_map, List.mem_map]
    rcases h.key_cases hGet with ⟨cell, hCell, rfl⟩ | ⟨target, hTarget, rfl⟩
    · exact .inl ⟨cell, Std.ExtTreeMap.mem_keys.mpr hCell, rfl⟩
    · exact .inr ⟨target, Std.ExtTreeMap.mem_keys.mpr hTarget, rfl⟩
  have hLength := (List.Nodup.subperm Std.ExtTreeMap.nodup_keys hSubset).length_le
  simpa using hLength

theorem key_counted (h : KeyedDigests m cells standDown) {key : List UInt8} {digest : Digest}
    (hGet : m[key]? = some digest) : Counted key := by
  rcases h.key_cases hGet with ⟨cell, -, rfl⟩ | ⟨target, -, rfl⟩
  · cases cell <;>
    · simp only [Counted, cellKey, ExclusiveCell.encode, List.length_append, tag_length,
        Encoder.device, Encoder.id, beBytes_length]
      decide +kernel
  · simp only [Counted, standDownKey, List.length_append, tag_length, Encoder.device,
      beBytes_length]
    decide +kernel

/-- Every input of the commitment is in range. -/
theorem inputs_inRange (h : KeyedDigests m cells standDown)
    (hSize : cells.size + standDown.size < 2 ^ 64) {input : TrieInput (List UInt8) Digest Digest}
    (hMem : input ∈ (canonical merkleAlgebra digestBit 256 0 m).inputs MerkleNote.hash 0) :
    InputInRange input := by
  rcases canonical_inputs 256 0 m hMem with ⟨d, hd, rfl⟩ | ⟨d, hd, left, right, rfl⟩ |
    ⟨part, hPart, rfl⟩
  · exact Nat.lt_of_le_of_lt hd (by decide)
  · exact Nat.lt_of_le_of_lt hd (by decide)
  · refine ⟨?_, fun entry hEntry => ?_⟩
    · have hLe : part.size ≤ m.size := map_size_le fun key hKey => by
        obtain ⟨value, hValue⟩ := mem_iff_exists.mp hKey
        exact mem_iff_exists.mpr ⟨value, hPart key value hValue⟩
      have hKeys := h.size_le
      unfold Counted
      rw [Std.ExtTreeMap.length_toList]
      omega
    · exact h.key_counted (hPart _ _ (Std.ExtTreeMap.mem_toList_iff_getElem?_eq_some.mp hEntry))

end KeyedDigests

/-- **The root determines the maps**, where the hash does not collide on the
inputs of the two projections. -/
theorem Projection.maps_eq_of_commitmentRoot {p q : Projection} (hp : p.Committed)
    (hq : q.Committed) (hMp : p.InMemory) (hMq : q.InMemory)
    (hInj : Set.InjOn Platform.sha256 {input | input ∈ p.hashedInputs ∨ input ∈ q.hashedInputs})
    (hRoot : p.commitmentRoot = q.commitmentRoot) :
    p.cells = q.cells ∧ p.standDown = q.standDown := by
  obtain ⟨m, hm, hCommit⟩ := hp.commits
  obtain ⟨m', hm', hCommit'⟩ := hq.commits
  have hNodes : ∀ {projection : Projection} {keyed : OrdMap (List UInt8) Digest}
      {input : TrieInput (List UInt8) Digest Digest},
      projection.commitment = .ofDigests keyed →
      input ∈ (canonical merkleAlgebra digestBit 256 0 keyed).inputs MerkleNote.hash 0 →
      encodeInput input ∈ projection.hashedInputs := by
    intro projection keyed input hEq hMem
    refine List.mem_append_left _ (List.mem_append_left _ (List.mem_map.mpr ⟨input, ?_, rfl⟩))
    rw [hEq, ProjectionCommitment.root_ofDigests]
    exact hMem
  have hDigests : m = m' := by
    refine canonical_binding digestBit merkleAlgebra_hashed 256 0 m m' ?_ ?_
    · rintro a ha b hb hEq
      have hBytes : encodeInput a = encodeInput b := by
        refine hInj ?_ ?_ hEq
        · exact ha.imp (hNodes hCommit) (hNodes hCommit')
        · exact hb.imp (hNodes hCommit) (hNodes hCommit')
      refine encodeInput_injective ?_ ?_ hBytes
      · exact ha.elim (hm.inputs_inRange hMp.entries) (hm'.inputs_inRange hMq.entries)
      · exact hb.elim (hm.inputs_inRange hMp.entries) (hm'.inputs_inRange hMq.entries)
    · unfold commitmentRoot ProjectionCommitment.rootHash at hRoot
      rw [hCommit, hCommit', ProjectionCommitment.root_ofDigests,
        ProjectionCommitment.root_ofDigests] at hRoot
      exact hRoot
  subst hDigests
  refine ⟨Std.ExtTreeMap.ext_getElem? fun cell => ?_, Std.ExtTreeMap.ext_getElem? fun target => ?_⟩
  · have hDigest := hm.cell cell
    rw [hm'.cell cell] at hDigest
    cases hLeft : p.cells[cell]? <;> cases hRight : q.cells[cell]? <;>
      rw [hLeft, hRight] at hDigest <;> try cases hDigest
    case refine_1.some.some value value' =>
        have hEq : cellInput value' = cellInput value := by
          refine hInj (.inr (cellInput_mem_hashedInputs hRight))
            (.inl (cellInput_mem_hashedInputs hLeft)) ?_
          rw [← cellValue_eq, ← cellValue_eq]
          exact Option.some.inj hDigest
        rw [cellInput_injective (hMq.values cell value' hRight) (hMp.values cell value hLeft) hEq]
  · have hDigest := hm.target target
    rw [hm'.target target] at hDigest
    cases hLeft : p.standDown[target]? <;> cases hRight : q.standDown[target]? <;>
      rw [hLeft, hRight] at hDigest <;> try cases hDigest
    case refine_2.some.some value value' =>
        have hEq : standDownInput value' = standDownInput value :=
          hInj (.inr (standDownInput_mem_hashedInputs hRight))
            (.inl (standDownInput_mem_hashedInputs hLeft)) (Option.some.inj hDigest)
        rw [standDownInput_injective hEq]

/-! ## Sequences of updates -/

/-- Updates of single keys, one after the other. -/
def ProjectionCommitment.applyAll (commitment : ProjectionCommitment)
    (updates : List (List UInt8 × Option Digest)) : ProjectionCommitment :=
  updates.foldl (fun commitment update => commitment.apply update.1 update.2) commitment

def assignAll (m : OrdMap (List UInt8) Digest) (updates : List (List UInt8 × Option Digest)) :
    OrdMap (List UInt8) Digest :=
  updates.foldl (fun m update => assign m update.1 update.2) m

/-- Incremental updates of a projection, each from its own graph, cells and targets. -/
def Projection.updateAll (projection : Projection)
    (steps : List (FactGraph × OrdSet ExclusiveCell × OrdSet DeviceId)) : Projection :=
  steps.foldl (fun projection (g, cells, targets) =>
    Projection.updateFromGraph g projection cells targets) projection

theorem ProjectionCommitment.applyAll_ofDigests (m : OrdMap (List UInt8) Digest)
    (updates : List (List UInt8 × Option Digest)) :
    (ofDigests m).applyAll updates = ofDigests (assignAll m updates) :=
  List.foldl_hom ofDigests fun m update => apply_ofDigests m update.1 update.2

theorem Projection.Committed.updateAll {start : Projection} (h : start.Committed)
    (steps : List (FactGraph × OrdSet ExclusiveCell × OrdSet DeviceId)) :
    (start.updateAll steps).Committed :=
  List.foldlRecOn steps _ h fun _ h step _ => h.updateFromGraph step.1 step.2.1 step.2.2

/-- The commitment is canonical: it depends only on the map its updates leave,
and incremental updates of a projection keep it the one built from the maps. It
is binding: where the hash does not collide on the inputs of two projections,
equal roots mean equal maps. -/
theorem projection_commitment_canonical_and_binding :
    (∀ updates others, assignAll ∅ updates = assignAll ∅ others →
      ProjectionCommitment.default.applyAll updates =
        ProjectionCommitment.default.applyAll others) ∧
    (∀ (start : Projection) (steps : List (FactGraph × OrdSet ExclusiveCell × OrdSet DeviceId)),
      start.Committed → (start.updateAll steps).commitment =
        commitmentFromMaps (start.updateAll steps).cells (start.updateAll steps).standDown) ∧
    ∀ p q : Projection, p.Committed → q.Committed → p.InMemory → q.InMemory →
      Set.InjOn Platform.sha256 {input | input ∈ p.hashedInputs ∨ input ∈ q.hashedInputs} →
      p.commitmentRoot = q.commitmentRoot → p.cells = q.cells ∧ p.standDown = q.standDown := by
  refine ⟨fun updates others hEq => ?_, fun start steps h => h.updateAll steps, ?_⟩
  · have hDefault : ProjectionCommitment.default = .ofDigests ∅ := by
      obtain ⟨m, hm, hEq⟩ := Commits.default
      rw [hEq, hm.unique .empty]
    rw [hDefault, ProjectionCommitment.applyAll_ofDigests, ProjectionCommitment.applyAll_ofDigests,
      hEq]
  · exact fun p q hp hq hMp hMq => Projection.maps_eq_of_commitmentRoot hp hq hMp hMq

/-! ## Sample projections -/

section Sample

omit [Platform]

/-- A platform whose digest numbers the inputs of a projection with one leaf,
along the path of set bits. -/
@[reducible] def numberingPlatform : Platform :=
  { samplePlatform with
    sha256 := fun bytes => Fin.ofNat _ <| match bytes.drop projectionCommitmentDomain.length with
      | 98 :: high :: low :: _ => 2 * (256 * high.toNat + low.toNat)
      | 101 :: high :: low :: _ => 2 * (256 * high.toNat + low.toNat) - 1
      | 107 :: _ => 2 ^ 256 - 1
      | 108 :: _ => 512
      | rest => 506 + (rest.getLastD 0).toNat }

/-- Roles of the listed devices and one stand-down, committed from the maps. -/
def builtProjection (devices : List (Fin (2 ^ 256))) : Projection :=
  let cells : OrdMap ExclusiveCell CellProjection :=
    .ofList (devices.map fun key => (.role (sampleDevice key), .value ⟨7⟩)) compare
  let standDown : OrdMap DeviceId StandDown :=
    .ofList [(sampleDevice 3, ⟨sampleDevice 3, ⟨8⟩⟩)] compare
  ⟨cells, standDown, @commitmentFromMaps numberingPlatform cells standDown⟩

/-- The second role updated from a graph without facts, which removes it. -/
def updatedProjection : Projection :=
  @Projection.updateAll numberingPlatform (builtProjection [1, 2])
    [(.fromBootstrapWithPolicy sampleBootstrap sampleLimits,
      .ofList [.role (sampleDevice 2)] compare, ∅)]

/-- A key set and cleared again leaves the same commitment; the updated
projection has the commitment of its maps and the root of the built one, hence
its maps. -/
theorem projection_commitment_canonical_and_binding_updated :
    let _ : Platform := numberingPlatform
    ProjectionCommitment.default.applyAll [([1], some 7), ([2], some 8), ([2], none)] =
        ProjectionCommitment.default.applyAll [([1], some 7)] ∧
      (builtProjection [1, 2]).cells ≠ updatedProjection.cells ∧
      updatedProjection.commitment =
        commitmentFromMaps updatedProjection.cells updatedProjection.standDown ∧
      updatedProjection.commitmentRoot = (builtProjection [1]).commitmentRoot ∧
      updatedProjection.cells = (builtProjection [1]).cells ∧
      updatedProjection.standDown = (builtProjection [1]).standDown := by
  have hAssigned : assignAll ∅ [([1], some 7), ([2], some 8), ([2], none)] =
      assignAll ∅ [([1], some 7)] := by decide +kernel
  have hRun : (builtProjection [1, 2]).cells ≠ updatedProjection.cells ∧
      updatedProjection.cells = (builtProjection [1]).cells ∧
      updatedProjection.standDown = (builtProjection [1]).standDown ∧
      (builtProjection [1]).cells.size + (builtProjection [1]).standDown.size < 2 ^ 64 ∧
      ∀ entry ∈ (builtProjection [1]).cells.toList, entry.2 = .value ⟨7⟩ := by
    decide +kernel
  have hNumbers : (builtProjection [1]).hashedInputs.map
      (fun input => (numberingPlatform.sha256 input).val) = List.range 515 := by
    decide +kernel
  obtain ⟨hRemoved, hCells, hStandDown, hSize, hValues⟩ := hRun
  intro _
  have hBuilt : ∀ devices, (builtProjection devices).Committed := fun _ => rfl
  obtain ⟨hCanonical, hUpdate, hBinding⟩ := projection_commitment_canonical_and_binding
  have hUpdated : updatedProjection.Committed := hUpdate _ _ (hBuilt [1, 2])
  have hEq : updatedProjection = builtProjection [1] :=
    hUpdated.ext (hBuilt [1]) hCells hStandDown
  have hMemory : (builtProjection [1]).InMemory := by
    refine ⟨hSize, fun cell value hGet => ?_⟩
    have hValue := hValues (cell, value) (Std.ExtTreeMap.mem_toList_iff_getElem?_eq_some.mpr hGet)
    rw [show value = .value ⟨7⟩ from hValue]
    trivial
  have hNodup : ((builtProjection [1]).hashedInputs.map Platform.sha256).Nodup := by
    refine List.Nodup.of_map Fin.val ?_
    rw [List.map_map]
    exact hNumbers ▸ List.nodup_range
  refine ⟨hCanonical _ _ hAssigned, hRemoved, hUpdated, by rw [hEq], ?_⟩
  refine hBinding updatedProjection (builtProjection [1]) hUpdated (hBuilt [1]) (hEq ▸ hMemory)
    hMemory ?_ (by rw [hEq])
  rw [hEq]
  exact fun a ha b hb hSame =>
    List.inj_on_of_nodup_map hNodup (ha.elim id id) (hb.elim id id) hSame

end Sample

end MyOwnMesh.Semantic
