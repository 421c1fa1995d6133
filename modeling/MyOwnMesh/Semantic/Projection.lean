import MyOwnMesh.Foundation.UndoLog
import MyOwnMesh.Semantic.Fact

/-!
# Projected cells and their commitment

A projection is a map of exclusive cells, a map of active stand-downs and a
binary Merkle commitment to both. The commitment is the annotated trie of the
foundation library: 256 levels selected by the bits of the key digest, with
the node hash and the retained bytes as annotation.
-/

namespace MyOwnMesh.Semantic

open Foundation

/-- The fact that decides a cell, or the heads in conflict. -/
inductive CellProjection where
  | value (id : FactId)
  | conflict (ids : List FactId)
deriving DecidableEq

/-- A device that has stood down, and the fact that proves it. -/
structure StandDown where
  target : DeviceId
  proof : FactId
deriving DecidableEq

abbrev Digest := Fin (2 ^ 256)

def u64Max : Nat := 2 ^ 64 - 1

def projectionCommitmentDomain : List UInt8 :=
  "myownmesh-v4/projection-patricia-merkle/v1".toUTF8.toList

/-- The annotation of a commitment node: its hash and its retained bytes. -/
structure MerkleNote where
  hash : Digest
  bytes : Nat
deriving DecidableEq

abbrev MerkleNode := TrieNode (List UInt8) Digest MerkleNote

/-- The trie over the entries of a projection. -/
structure ProjectionCommitment where
  root : MerkleNode

namespace ProjectionCommitment

def rootHash (commitment : ProjectionCommitment) : Digest := commitment.root.note.hash

def retainedBytes (commitment : ProjectionCommitment) : Nat := commitment.root.note.bytes

end ProjectionCommitment

/-- The effective state of the graph and its commitment. -/
structure Projection where
  cells : OrdMap ExclusiveCell CellProjection
  standDown : OrdMap DeviceId StandDown
  commitment : ProjectionCommitment

/-- Sparse previous values of projection entries; `none` is an absent entry. -/
structure SparseEntries where
  cells : OrdMap ExclusiveCell (Option CellProjection)
  standDown : OrdMap DeviceId (Option StandDown)

/-- What changed between two generations of the projection. -/
structure ProjectionDelta where
  baseGeneration : Nat
  generation : Nat
  baseCommitment : Digest
  commitment : Digest
  cells : OrdMap ExclusiveCell (Option CellProjection)
  standDown : OrdMap DeviceId (Option StandDown)
deriving DecidableEq

namespace Projection

def commitmentRoot (projection : Projection) : Digest := projection.commitment.rootHash

def commitmentBytes (projection : Projection) : Nat := projection.commitment.retainedBytes

def isConflicted (projection : Projection) (cell : ExclusiveCell) : Bool :=
  match projection.cells[cell]? with
  | some (.conflict _) => true
  | _ => false

def value (projection : Projection) (cell : ExclusiveCell) : Option FactId :=
  match projection.cells[cell]? with
  | some (.value id) => some id
  | _ => none

def roleCell (projection : Projection) (subject : DeviceId) : Option CellProjection :=
  projection.cells[ExclusiveCell.role subject]?

def isStoodDown (projection : Projection) (target : DeviceId) : Bool :=
  projection.standDown.contains target

/-- The entries at some cells and subjects, absent ones too. -/
def sparseEntries (projection : Projection) (cells : OrdSet ExclusiveCell)
    (subjects : OrdSet DeviceId) : SparseEntries where
  cells := .ofList (cells.toList.map fun cell => (cell, projection.cells[cell]?)) compare
  standDown := .ofList (subjects.toList.map fun subject =>
    (subject, projection.standDown[subject]?)) compare

/-- The entries that differ from captured previous values. -/
def deltaFromSparse (projection : Projection) (baseGeneration generation : Nat)
    (baseCommitment : Digest) (previous : SparseEntries) : ProjectionDelta where
  baseGeneration
  generation
  baseCommitment
  commitment := projection.commitmentRoot
  cells := previous.cells |> mapEntries fun cell before =>
    if projection.cells[cell]? ≠ before then some projection.cells[cell]? else none
  standDown := previous.standDown |> mapEntries fun subject before =>
    if projection.standDown[subject]? ≠ before then some projection.standDown[subject]? else none

end Projection

/-! ## Hashing -/

def cellKey (cell : ExclusiveCell) : List UInt8 := Encoder.tag "cell" ++ cell.encode

def standDownKey (target : DeviceId) : List UInt8 :=
  Encoder.tag "stand_down" ++ Encoder.device target

variable [Platform]

/-- Node hashing and byte counting of the commitment. -/
def merkleAlgebra : TrieAlgebra (List UInt8) Digest MerkleNote where
  empty depth :=
    { hash := Platform.sha256 (projectionCommitmentDomain ++ [101] ++ beBytes 2 depth)
      bytes := 1 + 32 }
  leaf entries :=
    { hash := Platform.sha256 (projectionCommitmentDomain ++ [108] ++ beBytes 8 entries.length ++
        entries.flatMap fun (key, value) =>
          beBytes 8 key.length ++ key ++ beBytes 32 value.val)
      bytes := entries.foldl (fun total (key, _) => min (total + (key.length + 32)) u64Max)
        (1 + 32) }
  branch depth left right :=
    { hash := Platform.sha256 (projectionCommitmentDomain ++ [98] ++ beBytes 2 depth ++
        beBytes 32 left.hash.val ++ beBytes 32 right.hash.val)
      bytes := min (1 + 32 + left.bytes + right.bytes) u64Max }

/-- The digest that places a key in the trie. -/
def keyDigest (key : List UInt8) : Digest :=
  Platform.sha256 (projectionCommitmentDomain ++ [107] ++ beBytes 8 key.length ++ key)

/-- The bit of a key's digest tested at a depth, most significant first. -/
def digestBit (key : List UInt8) (depth : Nat) : Bool :=
  (keyDigest key).val.testBit (255 - depth)

namespace ProjectionCommitment

def default : ProjectionCommitment := ⟨emptyNode merkleAlgebra 0⟩

def apply (commitment : ProjectionCommitment) (key : List UInt8) (value : Option Digest) :
    ProjectionCommitment :=
  ⟨updateTrie merkleAlgebra digestBit key value 256 0 commitment.root⟩

end ProjectionCommitment

def cellValue : CellProjection → Digest
  | .value id => Platform.sha256 (Encoder.tag "value" ++ Encoder.id id)
  | .conflict ids => Platform.sha256 (Encoder.tag "conflict" ++ Encoder.listIds ids)

def standDownValue (value : StandDown) : Digest :=
  Platform.sha256 (Encoder.device value.target ++ Encoder.id value.proof)

/-- The commitment built from scratch: all cells, then all stand-downs. -/
def commitmentFromMaps (cells : OrdMap ExclusiveCell CellProjection)
    (standDown : OrdMap DeviceId StandDown) : ProjectionCommitment :=
  let withCells := cells.toList.foldl
    (fun commitment (cell, value) => commitment.apply (cellKey cell) (some (cellValue value)))
    ProjectionCommitment.default
  standDown.toList.foldl
    (fun commitment (target, value) =>
      commitment.apply (standDownKey target) (some (standDownValue value)))
    withCells

namespace Projection

/-- Re-commit every listed key to its current value. -/
def recommit (commitment : ProjectionCommitment)
    (cells : List (ExclusiveCell × Option CellProjection))
    (standDown : List (DeviceId × Option StandDown)) : ProjectionCommitment :=
  let withCells := cells.foldl
    (fun commitment (cell, value) => commitment.apply (cellKey cell) (value.map cellValue))
    commitment
  standDown.foldl
    (fun commitment (target, value) =>
      commitment.apply (standDownKey target) (value.map standDownValue))
    withCells

/-- Restore exact values for a bounded set of projection keys. -/
def restoreSparseEntries (projection : Projection) (previous : SparseEntries) : Projection where
  cells := restoreEntries projection.cells previous.cells
  standDown := restoreEntries projection.standDown previous.standDown
  commitment := recommit projection.commitment previous.cells.toList previous.standDown.toList

/-- Rebuild the commitment after a deferred interval. -/
def rebuildCommitment (projection : Projection) : Projection :=
  { projection with commitment := commitmentFromMaps projection.cells projection.standDown }

end Projection

end MyOwnMesh.Semantic
