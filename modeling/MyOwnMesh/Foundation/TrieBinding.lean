import MyOwnMesh.Foundation.Patricia
import Mathlib.Data.Set.Function

/-!
# Binding of hashed tries

When the annotation of a trie carries a hash of the node's kind, depth and
children, the root hash determines the map, as long as the hash does not
collide on the inputs that occur in the two tries. `TrieInput` is what a node
hashes; `inputs` lists what a whole trie does.
-/

namespace MyOwnMesh.Foundation

/-- What one node hashes: the hashes of its children, or its entries. -/
inductive TrieInput (κ ν η : Type) where
  | empty (depth : Nat)
  | leaf (entries : List (κ × ν))
  | branch (depth : Nat) (left right : η)

section Binding

variable {κ ν ann η : Type} [Ord κ]

/-- An annotation algebra whose notes carry a hash of the node's input. -/
structure HashedAlgebra (alg : TrieAlgebra κ ν ann) (hash : ann → η)
    (digest : TrieInput κ ν η → η) : Prop where
  empty : ∀ depth, hash (alg.empty depth) = digest (.empty depth)
  leaf : ∀ entries, hash (alg.leaf entries) = digest (.leaf entries)
  branch : ∀ depth left right,
    hash (alg.branch depth left right) = digest (.branch depth (hash left) (hash right))

variable [Std.TransOrd κ]

/-- The inputs hashed in a trie, its root first. -/
def TrieNode.inputs (hash : ann → η) : Nat → TrieNode κ ν ann → List (TrieInput κ ν η)
  | depth, .empty _ => [.empty depth]
  | _, .leaf entries _ => [.leaf entries.toList]
  | depth, .branch left right _ =>
    .branch depth (hash left.note) (hash right.note) ::
      (left.inputs hash (depth + 1) ++ right.inputs hash (depth + 1))

variable {alg : TrieAlgebra κ ν ann} {bit : κ → Nat → Bool} {hash : ann → η}
  {digest : TrieInput κ ν η → η}

private theorem emptyNode_note (h : HashedAlgebra alg hash digest) (depth : Nat) :
    hash (emptyNode alg depth : TrieNode κ ν ann).note = digest (.empty depth) ∧
      TrieInput.empty depth ∈ (emptyNode alg depth : TrieNode κ ν ann).inputs hash depth :=
  ⟨h.empty depth, List.mem_singleton_self _⟩

/-- A leaf hashes its entries, or the empty subtree. -/
private theorem leafNode_note (h : HashedAlgebra alg hash digest) (depth : Nat)
    (m : OrdMap κ ν) :
    ∃ input ∈ (leafNode alg depth m).inputs hash depth,
      hash (leafNode alg depth m).note = digest input ∧
      input = if m.isEmpty then .empty depth else .leaf m.toList := by
  unfold leafNode
  split
  · obtain ⟨hNote, hMem⟩ := emptyNode_note h depth
    exact ⟨_, hMem, hNote, rfl⟩
  · exact ⟨_, List.mem_singleton_self _, h.leaf _, rfl⟩

/-- A branch hashes its children, or the empty subtree. -/
private theorem branchNode_note (h : HashedAlgebra alg hash digest) (depth : Nat)
    (left right : TrieNode κ ν ann) :
    ∃ input ∈ (branchNode alg depth left right).inputs hash depth,
      hash (branchNode alg depth left right).note = digest input ∧
      input = if left.isEmpty && right.isEmpty then .empty depth
        else .branch depth (hash left.note) (hash right.note) := by
  unfold branchNode
  split
  · obtain ⟨hNote, hMem⟩ := emptyNode_note h depth
    exact ⟨_, hMem, hNote, rfl⟩
  · exact ⟨_, List.mem_cons_self, h.branch _ _ _, rfl⟩

/-- The inputs of the children of a branch are inputs of the branch. -/
private theorem inputs_branchNode {depth : Nat} {left right : TrieNode κ ν ann}
    (hBranch : ¬ (left.isEmpty && right.isEmpty) = true) {input : TrieInput κ ν η}
    (hMem : input ∈ left.inputs hash (depth + 1) ∨ input ∈ right.inputs hash (depth + 1)) :
    input ∈ (branchNode alg depth left right).inputs hash depth := by
  unfold branchNode
  rw [if_neg hBranch]
  exact List.mem_cons_of_mem _ (List.mem_append.mpr hMem)

variable [Std.LawfulEqOrd κ]

/-- A map is determined by its two halves. -/
private theorem eq_of_filter_eq {m m' : OrdMap κ ν} {p : κ → Bool}
    (hFalse : (m.filter fun key _ => !p key) = m'.filter fun key _ => !p key)
    (hTrue : (m.filter fun key _ => p key) = m'.filter fun key _ => p key) : m = m' := by
  have hKeep : ∀ value : Option ν, value.filter (fun _ => true) = value := fun value => by
    cases value <;> rfl
  refine Std.ExtTreeMap.ext_getElem? fun a => ?_
  cases hp : p a with
  | true =>
    have hAt := congrArg (fun m : OrdMap κ ν => m[a]?) hTrue
    simpa [Std.ExtTreeMap.getElem?_filter', hp, hKeep] using hAt
  | false =>
    have hAt := congrArg (fun m : OrdMap κ ν => m[a]?) hFalse
    simpa [Std.ExtTreeMap.getElem?_filter', hp, hKeep] using hAt

variable (bit) in
/-- **The root hash determines the map**, where the digest does not collide on
the inputs of the two tries. -/
theorem canonical_binding (h : HashedAlgebra alg hash digest) (height : Nat) :
    ∀ (depth : Nat) (m m' : OrdMap κ ν),
      Set.InjOn digest {input | input ∈ (canonical alg bit height depth m).inputs hash depth ∨
        input ∈ (canonical alg bit height depth m').inputs hash depth} →
      hash (canonical alg bit height depth m).note =
        hash (canonical alg bit height depth m').note → m = m' := by
  induction height with
  | zero =>
    intro depth m m' hInj hNote
    obtain ⟨input, hMem, hHash, hInput⟩ := leafNode_note h depth m
    obtain ⟨input', hMem', hHash', hInput'⟩ := leafNode_note h depth m'
    have hEq : input = input' := by
      refine hInj (.inl hMem) (.inr hMem') ?_
      rw [← hHash, ← hHash']
      exact hNote
    rw [hInput, hInput'] at hEq
    split at hEq <;> split at hEq
    case isTrue.isTrue hEmpty hEmpty' =>
        rw [Std.ExtTreeMap.isEmpty_iff.mp hEmpty, Std.ExtTreeMap.isEmpty_iff.mp hEmpty']
    case isTrue.isFalse => cases hEq
    case isFalse.isTrue => cases hEq
    case isFalse.isFalse =>
        injection hEq with hEntries
        refine Std.ExtTreeMap.ext_getElem? fun key => ?_
        refine Option.ext fun value => ?_
        rw [← Std.ExtTreeMap.mem_toList_iff_getElem?_eq_some, hEntries,
          Std.ExtTreeMap.mem_toList_iff_getElem?_eq_some]
  | succ height ih =>
    intro depth m m' hInj hNote
    simp only [canonical] at hInj hNote
    obtain ⟨input, hMem, hHash, hInput⟩ := branchNode_note h depth
      (canonical alg bit height (depth + 1) (m.filter fun key _ => !bit key depth))
      (canonical alg bit height (depth + 1) (m.filter fun key _ => bit key depth))
    obtain ⟨input', hMem', hHash', hInput'⟩ := branchNode_note h depth
      (canonical alg bit height (depth + 1) (m'.filter fun key _ => !bit key depth))
      (canonical alg bit height (depth + 1) (m'.filter fun key _ => bit key depth))
    have hEq : input = input' := by
      refine hInj (.inl hMem) (.inr hMem') ?_
      rw [← hHash, ← hHash']
      exact hNote
    rw [hInput, hInput'] at hEq
    split at hEq <;> split at hEq
    case isTrue.isTrue hEmpty hEmpty' =>
        rw [canonical_isEmpty, canonical_isEmpty, filter_isEmpty_and] at hEmpty hEmpty'
        rw [Std.ExtTreeMap.isEmpty_iff.mp hEmpty, Std.ExtTreeMap.isEmpty_iff.mp hEmpty']
    case isTrue.isFalse => cases hEq
    case isFalse.isTrue => cases hEq
    case isFalse.isFalse hBranch hBranch' =>
        injection hEq with _ hLeft hRight
        refine eq_of_filter_eq (p := fun key => bit key depth) ?_ ?_
        · refine ih (depth + 1) _ _ (hInj.mono ?_) hLeft
          rintro input (hSide | hSide)
          · exact .inl (inputs_branchNode hBranch (.inl hSide))
          · exact .inr (inputs_branchNode hBranch' (.inl hSide))
        · refine ih (depth + 1) _ _ (hInj.mono ?_) hRight
          rintro input (hSide | hSide)
          · exact .inl (inputs_branchNode hBranch (.inr hSide))
          · exact .inr (inputs_branchNode hBranch' (.inr hSide))

/-- Every input of a trie is an empty subtree or a branch above the leaves, or
the entries of some keys of the map. -/
theorem canonical_inputs (height : Nat) : ∀ (depth : Nat) (m : OrdMap κ ν)
    {input : TrieInput κ ν η}, input ∈ (canonical alg bit height depth m).inputs hash depth →
    (∃ d ≤ depth + height, input = .empty d) ∨
      (∃ d ≤ depth + height, ∃ left right, input = .branch d left right) ∨
      ∃ part : OrdMap κ ν, (∀ (key : κ) value, part[key]? = some value → m[key]? = some value) ∧
        input = .leaf part.toList := by
  induction height with
  | zero =>
    intro depth m input hMem
    simp only [canonical, leafNode] at hMem
    split at hMem
    · exact .inl ⟨depth, by omega, List.mem_singleton.mp hMem⟩
    · exact .inr (.inr ⟨m, fun _ _ h => h, List.mem_singleton.mp hMem⟩)
  | succ height ih =>
    intro depth m input hMem
    simp only [canonical, branchNode] at hMem
    split at hMem
    · exact .inl ⟨depth, by omega, List.mem_singleton.mp hMem⟩
    · have hSub : ∀ {p : κ → Bool},
          input ∈ (canonical alg bit height (depth + 1) (m.filter fun key _ => p key)).inputs
            hash (depth + 1) →
          (∃ d ≤ depth + (height + 1), input = .empty d) ∨
            (∃ d ≤ depth + (height + 1), ∃ left right, input = .branch d left right) ∨
            ∃ part : OrdMap κ ν,
              (∀ (key : κ) value, part[key]? = some value → m[key]? = some value) ∧
              input = .leaf part.toList := by
        intro p hSide
        rcases ih (depth + 1) _ hSide with ⟨d, hd, rfl⟩ | ⟨d, hd, hBranch⟩ | ⟨part, hPart, rfl⟩
        · exact .inl ⟨d, by omega, rfl⟩
        · exact .inr (.inl ⟨d, by omega, hBranch⟩)
        · refine .inr (.inr ⟨part, fun key value hGet => ?_, rfl⟩)
          have hKept := hPart key value hGet
          rw [Std.ExtTreeMap.getElem?_filter'] at hKept
          exact Option.eq_some_of_filter_eq_some hKept
      rcases List.mem_cons.mp hMem with rfl | hMem
      · exact .inr (.inl ⟨depth, by omega, _, _, rfl⟩)
      · rcases List.mem_append.mp hMem with hSide | hSide
        · exact hSub hSide
        · exact hSub hSide

end Binding

end MyOwnMesh.Foundation
