import MyOwnMesh.Foundation.Collections

/-!
# Annotated binary tries

A binary trie of fixed height whose leaves hold the entries of all keys with
one digest, and whose nodes carry an annotation computed from their children:
a hash, a size, or both. The annotation is an arbitrary algebra. An update
rebuilds the path of one key and collapses a branch whose two sides are empty.

`canonical` is the trie of a map, by recursion on the height alone.
`update_canonical` says that updating the trie of a map gives the trie of the
updated map. So a trie built by any sequence of updates depends only on the map
it ends with, and two tries with the same entries have the same root, whatever
the annotation algebra is.
-/

namespace MyOwnMesh.Foundation

/-- How annotations are computed: of an empty subtree and a branch at a depth,
and of the entries of a leaf. -/
structure TrieAlgebra (κ ν ann : Type) where
  empty : Nat → ann
  leaf : List (κ × ν) → ann
  branch : Nat → ann → ann → ann

/-- A binary trie with a note at each node. -/
inductive TrieNode (κ ν ann : Type) [Ord κ] where
  | empty (note : ann)
  | leaf (entries : OrdMap κ ν) (note : ann)
  | branch (left right : TrieNode κ ν ann) (note : ann)

namespace TrieNode

variable {κ ν ann : Type} [Ord κ]

def note : TrieNode κ ν ann → ann
  | .empty note | .leaf _ note | .branch _ _ note => note

def isEmpty : TrieNode κ ν ann → Bool
  | .empty _ => true
  | _ => false

end TrieNode

section Trie

variable {κ ν ann : Type} [Ord κ] [Std.TransOrd κ]
variable (alg : TrieAlgebra κ ν ann) (bit : κ → Nat → Bool)

/-- Insert or replace an entry, or remove it when no value is given. -/
def assign (m : OrdMap κ ν) (key : κ) : Option ν → OrdMap κ ν
  | some value => m.insert key value
  | none => m.erase key

def emptyNode (depth : Nat) : TrieNode κ ν ann := .empty (alg.empty depth)

/-- A leaf, or an empty subtree when no entry is left. -/
def leafNode (depth : Nat) (entries : OrdMap κ ν) : TrieNode κ ν ann :=
  if entries.isEmpty then emptyNode alg depth else .leaf entries (alg.leaf entries.toList)

/-- A branch, collapsed when both sides are empty. -/
def branchNode (depth : Nat) (left right : TrieNode κ ν ann) : TrieNode κ ν ann :=
  if left.isEmpty && right.isEmpty then emptyNode alg depth
  else .branch left right (alg.branch depth left.note right.note)

/-- The children of an inner node; a node that is no branch has empty ones. -/
def TrieNode.children (depth : Nat) :
    TrieNode κ ν ann → TrieNode κ ν ann × TrieNode κ ν ann
  | .branch left right _ => (left, right)
  | _ => (emptyNode alg (depth + 1), emptyNode alg (depth + 1))

/-- The entries of a bottom node; a node that is no leaf has none. -/
def TrieNode.leafEntries : TrieNode κ ν ann → OrdMap κ ν
  | .leaf entries _ => entries
  | _ => ∅

/-- Set or clear one key on the path its digest bits select, `height` levels
above the leaves. -/
def updateTrie (key : κ) (value : Option ν) :
    (height depth : Nat) → TrieNode κ ν ann → TrieNode κ ν ann
  | 0, depth, node => leafNode alg depth (assign node.leafEntries key value)
  | height + 1, depth, node =>
    let (left, right) := node.children alg depth
    if bit key depth then
      branchNode alg depth left (updateTrie key value height (depth + 1) right)
    else
      branchNode alg depth (updateTrie key value height (depth + 1) left) right

/-- The trie of a map, by halves. -/
def canonical : (height depth : Nat) → OrdMap κ ν → TrieNode κ ν ann
  | 0, depth, m => leafNode alg depth m
  | height + 1, depth, m =>
    branchNode alg depth
      (canonical height (depth + 1) (m.filter fun key _ => !bit key depth))
      (canonical height (depth + 1) (m.filter fun key _ => bit key depth))

variable {alg bit}

omit [Std.TransOrd κ] in
@[simp] theorem emptyNode_isEmpty (depth : Nat) :
    (emptyNode alg depth : TrieNode κ ν ann).isEmpty = true := rfl

theorem leafNode_leafEntries (depth : Nat) (m : OrdMap κ ν) :
    (leafNode alg depth m).leafEntries = m := by
  unfold leafNode
  split
  · rename_i h
    exact (Std.ExtTreeMap.isEmpty_iff.mp h).symm
  · rfl

theorem leafNode_isEmpty (depth : Nat) (m : OrdMap κ ν) :
    (leafNode alg depth m).isEmpty = m.isEmpty := by
  unfold leafNode
  split
  · rename_i h
    rw [h, emptyNode_isEmpty]
  · rename_i h
    rw [Bool.eq_false_iff.mpr h]
    rfl

omit [Std.TransOrd κ] in
theorem branchNode_isEmpty (depth : Nat) (left right : TrieNode κ ν ann) :
    (branchNode alg depth left right).isEmpty = (left.isEmpty && right.isEmpty) := by
  unfold branchNode
  split
  · rename_i h
    rw [h, emptyNode_isEmpty]
  · rename_i h
    rw [Bool.eq_false_iff.mpr h]
    rfl

variable [Std.LawfulEqOrd κ]

theorem getElem?_assign [DecidableEq κ] (m : OrdMap κ ν) (key a : κ) (value : Option ν) :
    (assign m key value)[a]? = if key = a then value else m[a]? := by
  cases value with
  | none => exact getElem?_erase_eq m key a
  | some value => exact getElem?_insert_eq m key a value

theorem filter_isEmpty_and (m : OrdMap κ ν) (p : κ → Bool) :
    ((m.filter fun key _ => !p key).isEmpty && (m.filter fun key _ => p key).isEmpty) =
      m.isEmpty := by
  rw [Bool.eq_iff_iff, Bool.and_eq_true]
  simp only [Std.ExtTreeMap.isEmpty_iff]
  constructor
  · rintro ⟨hFalse, hTrue⟩
    refine Std.ExtTreeMap.ext_getElem? fun a => ?_
    have hF : (m.filter fun key _ => !p key)[a]? = none := by
      rw [hFalse]
      exact Std.ExtTreeMap.getElem?_empty
    have hT : (m.filter fun key _ => p key)[a]? = none := by
      rw [hTrue]
      exact Std.ExtTreeMap.getElem?_empty
    rw [Std.ExtTreeMap.getElem?_filter'] at hF hT
    rw [Std.ExtTreeMap.getElem?_empty]
    cases hGet : m[a]? with
    | none => rfl
    | some v =>
      rw [hGet] at hF hT
      cases hp : p a <;> simp [Option.filter, hp] at hF hT
  · rintro rfl
    constructor <;>
    · refine Std.ExtTreeMap.ext_getElem? fun a => ?_
      rw [Std.ExtTreeMap.getElem?_filter', Std.ExtTreeMap.getElem?_empty]
      rfl

theorem canonical_isEmpty (height : Nat) : ∀ (depth : Nat) (m : OrdMap κ ν),
    (canonical alg bit height depth m).isEmpty = m.isEmpty := by
  induction height with
  | zero => exact leafNode_isEmpty
  | succ height ih =>
    intro depth m
    simp only [canonical]
    rw [branchNode_isEmpty, ih, ih]
    exact filter_isEmpty_and m fun key => bit key depth

theorem canonical_empty (height : Nat) : ∀ depth : Nat,
    canonical alg bit height depth (∅ : OrdMap κ ν) = emptyNode alg depth := by
  intro depth
  have hEmpty : (canonical alg bit height depth (∅ : OrdMap κ ν)).isEmpty = _ :=
    canonical_isEmpty height depth ∅
  rw [Std.ExtTreeMap.isEmpty_empty] at hEmpty
  cases height with
  | zero => rfl
  | succ height =>
    simp only [canonical] at hEmpty ⊢
    rw [branchNode_isEmpty] at hEmpty
    simp only [branchNode, hEmpty, if_true]

theorem canonical_children (height depth : Nat) (m : OrdMap κ ν) :
    (canonical alg bit (height + 1) depth m).children alg depth =
      (canonical alg bit height (depth + 1) (m.filter fun key _ => !bit key depth),
        canonical alg bit height (depth + 1) (m.filter fun key _ => bit key depth)) := by
  simp only [canonical, branchNode, canonical_isEmpty]
  split
  · rename_i h
    obtain ⟨hFalse, hTrue⟩ := Bool.and_eq_true_iff.mp h
    rw [Std.ExtTreeMap.isEmpty_iff.mp hFalse, Std.ExtTreeMap.isEmpty_iff.mp hTrue,
      canonical_empty]
    rfl
  · rfl

/-- A half of the map sees an assignment to a key of its own only. -/
theorem filter_assign [DecidableEq κ] (m : OrdMap κ ν) (p : κ → Bool) (key : κ)
    (value : Option ν) : (assign m key value).filter (fun a _ => p a) =
      if p key = true then assign (m.filter fun a _ => p a) key value
      else m.filter fun a _ => p a := by
  refine Std.ExtTreeMap.ext_getElem? fun a => ?_
  rw [Std.ExtTreeMap.getElem?_filter', getElem?_assign]
  by_cases hKept : p key = true
  · rw [if_pos hKept, getElem?_assign, Std.ExtTreeMap.getElem?_filter']
    split
    · rename_i hEq
      subst hEq
      cases value <;> simp [Option.filter, hKept]
    · rfl
  · rw [if_neg hKept, Std.ExtTreeMap.getElem?_filter']
    split
    · rename_i hEq
      subst hEq
      cases value <;> cases m[key]? <;> simp [Option.filter, hKept]
    · rfl

/-- **Updating the trie of a map gives the trie of the updated map.** -/
theorem update_canonical [DecidableEq κ] (key : κ) (value : Option ν) (height : Nat) :
    ∀ (depth : Nat) (m : OrdMap κ ν),
      updateTrie alg bit key value height depth (canonical alg bit height depth m) =
        canonical alg bit height depth (assign m key value) := by
  induction height with
  | zero =>
    intro depth m
    simp only [updateTrie, canonical, leafNode_leafEntries]
  | succ height ih =>
    intro depth m
    simp only [updateTrie, canonical_children]
    simp only [canonical, filter_assign m (fun a => bit a depth),
      filter_assign m (fun a => !bit a depth)]
    cases hBit : bit key depth <;> simp [ih]

end Trie

end MyOwnMesh.Foundation
