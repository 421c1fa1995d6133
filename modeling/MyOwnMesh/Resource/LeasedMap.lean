import Mathlib

/-!
# The leased map

`LeasedMap` is a treap: a tree ordered by key and heap-ordered by a priority that
is some function of the key. Insertion rotates, removal joins subtrees, and the
teardown flattens the tree by rotation. Every node owns the lease that pays for
its allocation.

The tree is read as the list of its entries in key order. Each operation is stated
on that list, and the search order, the heap order and the leases are carried
through every call of an owner.
-/

namespace MyOwnMesh.Resource

variable {κ α ι : Type}

/-- The caller's half of a node, with the lease that pays for the allocation. -/
structure MapEntry (κ α ι : Type) where
  key : κ
  value : α
  entry : ι

/-- A link of the tree: nothing, or a node with its priority and both links. -/
inductive MapTree (κ α ι : Type) where
  | leaf
  | node (left : MapTree κ α ι) (priority : Nat) (entry : MapEntry κ α ι)
      (right : MapTree κ α ι)

namespace MapTree

/-! ## The source -/

def outranks : MapTree κ α ι → Nat → Bool
  | leaf, _ => false
  | node _ childPriority _ _, priority => childPriority > priority

/-- Move the left child above this node; without one it is a panic. -/
def rotateRight : MapTree κ α ι → Option (MapTree κ α ι)
  | node (node pivotLeft pivotPriority pivot pivotRight) priority entry right =>
    some (node pivotLeft pivotPriority pivot (node pivotRight priority entry right))
  | _ => none

/-- Move the right child above this node; without one it is a panic. -/
def rotateLeft : MapTree κ α ι → Option (MapTree κ α ι)
  | node left priority entry (node pivotLeft pivotPriority pivot pivotRight) =>
    some (node (node left priority entry pivotLeft) pivotPriority pivot pivotRight)
  | _ => none

/-- Join two subtrees, every key of the first before every key of the second. -/
def merge : MapTree κ α ι → MapTree κ α ι → MapTree κ α ι
  | leaf, right => right
  | left, leaf => left
  | node leftLeft leftPriority leftEntry leftRight,
      node rightLeft rightPriority rightEntry rightRight =>
    if leftPriority ≥ rightPriority then
      node leftLeft leftPriority leftEntry
        (merge leftRight (node rightLeft rightPriority rightEntry rightRight))
    else
      node (merge (node leftLeft leftPriority leftEntry leftRight) rightLeft) rightPriority
        rightEntry rightRight

/-- Detach the first ordered node; a left subtree without one is a panic. -/
def removeFirstNode : MapTree κ α ι → Option (Option (MapEntry κ α ι) × MapTree κ α ι)
  | leaf => some (none, leaf)
  | node leaf _ current right => some (some current, right)
  | node (node l p e r) priority current right => do
    let (removed, left) ← removeFirstNode (node l p e r)
    let removed ← removed
    return (some removed, node left priority current right)

/-- Detach the first in-order node accepted by `predicate`, which may change from
call to call; `calls` counts them. -/
def removeFirstWhereNode (predicate : Nat → κ → α → Bool) (calls : Nat) :
    MapTree κ α ι → Option (MapEntry κ α ι) × MapTree κ α ι × Nat
  | leaf => (none, leaf, calls)
  | node left priority current right =>
    match removeFirstWhereNode predicate calls left with
    | (some removed, left, calls) => (some removed, node left priority current right, calls)
    | (none, left, calls) =>
      if predicate calls current.key current.value then
        (some current, merge left right, calls + 1)
      else
        let (removed, right, calls) := removeFirstWhereNode predicate (calls + 1) right
        (removed, node left priority current right, calls)

/-- Write to one value satisfying `predicate`, searched for from the root down. -/
def findValueMut (predicate : Nat → α → Bool) (write : α → α) (calls : Nat) :
    MapTree κ α ι → Option α × MapTree κ α ι × Nat
  | leaf => (none, leaf, calls)
  | node left priority current right =>
    if predicate calls current.value then
      (some current.value,
        node left priority { current with value := write current.value } right, calls + 1)
    else
      match findValueMut predicate write (calls + 1) left with
      | (some value, left, calls) => (some value, node left priority current right, calls)
      | (none, left, calls) =>
        let (value, right, calls) := findValueMut predicate write calls right
        (value, node left priority current right, calls)

def forEach : MapTree κ α ι → List (κ × α)
  | leaf => []
  | node left _ current right => forEach left ++ (current.key, current.value) :: forEach right

/-- One descent down the right spine. -/
def lastKeyValue : MapTree κ α ι → Option (κ × α)
  | leaf => none
  | node _ _ current leaf => some (current.key, current.value)
  | node _ _ _ (node l p e r) => lastKeyValue (node l p e r)

def spine : MapTree κ α ι → Nat
  | leaf => 0
  | node _ _ _ right => spine right + 1

def size : MapTree κ α ι → Nat
  | leaf => 0
  | node left _ _ right => left.size + right.size + 1

theorem spine_le_size (t : MapTree κ α ι) : t.spine ≤ t.size := by
  induction t with
  | leaf => exact Nat.le_refl 0
  | node left _ _ right _ ih =>
    rw [spine, size]
    omega

/-- The loop of `drop`: a left child is rotated up, a root without one is unlinked
and dropped. Every round shortens what is not on the right spine, or the tree. -/
def dropLoop : MapTree κ α ι → List (MapEntry κ α ι)
  | leaf => []
  | node (node pivotLeft pivotPriority pivot pivotRight) priority entry right =>
    dropLoop (node pivotLeft pivotPriority pivot (node pivotRight priority entry right))
  | node leaf _ entry right => entry :: dropLoop right
termination_by t => 2 * t.size - t.spine
decreasing_by
  · have := spine_le_size right
    simp only [size, spine]
    omega
  · have := spine_le_size right
    simp only [size, spine]
    omega

section Search

variable [LinearOrder κ]

/-- Place a node, or hand it back if its key is already present. -/
def insertNode (priority : Nat) (new : MapEntry κ α ι) :
    MapTree κ α ι → Option (Option (MapEntry κ α ι) × MapTree κ α ι)
  | leaf => some (none, node leaf priority new leaf)
  | node left currentPriority current right =>
    match compare new.key current.key with
    | .eq => some (some new, node left currentPriority current right)
    | .lt => do
      let (refused, left) ← insertNode priority new left
      let current := node left currentPriority current right
      if refused.isNone && left.outranks currentPriority then
        return (refused, ← current.rotateRight)
      else return (refused, current)
    | .gt => do
      let (refused, right) ← insertNode priority new right
      let current := node left currentPriority current right
      if refused.isNone && right.outranks currentPriority then
        return (refused, ← current.rotateLeft)
      else return (refused, current)

/-- The search by key. -/
def find (key : κ) : MapTree κ α ι → Option (MapEntry κ α ι)
  | leaf => none
  | node left _ current right =>
    match compare key current.key with
    | .lt => find key left
    | .gt => find key right
    | .eq => some current

/-- Write the value under a key, if there is one. -/
def writeAt (key : κ) (write : α → α) : MapTree κ α ι → MapTree κ α ι
  | leaf => leaf
  | node left priority current right =>
    match compare key current.key with
    | .lt => node (writeAt key write left) priority current right
    | .gt => node left priority current (writeAt key write right)
    | .eq => node left priority { current with value := write current.value } right

/-- Detach the node under `key`, leaving the rest of the tree ordered. -/
def removeNode (key : κ) : MapTree κ α ι → Option (MapEntry κ α ι) × MapTree κ α ι
  | leaf => (none, leaf)
  | node left priority current right =>
    match compare key current.key with
    | .eq => (some current, merge left right)
    | .lt =>
      let (removed, left) := removeNode key left
      (removed, node left priority current right)
    | .gt =>
      let (removed, right) := removeNode key right
      (removed, node left priority current right)

/-- The walk of `successor_after` with the closest candidate so far. -/
def successorLoop (after : Option κ) (best : Option (κ × α)) : MapTree κ α ι → Option (κ × α)
  | leaf => best
  | node left _ current right =>
    if after.all (· < current.key) then
      successorLoop after (some (current.key, current.value)) left
    else successorLoop after best right

end Search

/-! ## The list of a tree -/

def toList : MapTree κ α ι → List (MapEntry κ α ι)
  | leaf => []
  | node left _ current right => left.toList ++ current :: right.toList

theorem length_toList (t : MapTree κ α ι) : t.toList.length = t.size := by
  induction t with
  | leaf => rfl
  | node left _ _ right ihLeft ihRight =>
    rw [toList, List.length_append, List.length_cons, ihLeft, ihRight, size]
    omega

/-- No priority of the root above `bound`. -/
def Under (bound : Nat) : MapTree κ α ι → Prop
  | leaf => True
  | node _ priority _ _ => priority ≤ bound

/-- Each node has the priority of its key, and no child one above its parent's. -/
def Heap (priorities : κ → Nat) : MapTree κ α ι → Prop
  | leaf => True
  | node left priority entry right =>
    left.Under priority ∧ right.Under priority ∧ left.Heap priorities ∧ right.Heap priorities ∧
      priority = priorities entry.key

variable {priorities : κ → Nat}

theorem Under.mono {bound bound' : Nat} {t : MapTree κ α ι} (h : t.Under bound)
    (hLe : bound ≤ bound') : t.Under bound' := by
  cases t with
  | leaf => trivial
  | node => exact Nat.le_trans h hLe

theorem toList_merge (left right : MapTree κ α ι) :
    (merge left right).toList = left.toList ++ right.toList := by
  fun_induction merge left right with
  | case1 right => rfl
  | case2 left _ => exact (List.append_nil _).symm
  | case3 ll lp le lr rl rp re rr hLe ih =>
    rw [toList, ih]
    simp only [toList, List.append_assoc, List.cons_append]
  | case4 ll lp le lr rl rp re rr hLt ih =>
    rw [toList, ih]
    simp only [toList, List.append_assoc]

theorem under_merge {bound : Nat} {left right : MapTree κ α ι} (hLeft : left.Under bound)
    (hRight : right.Under bound) : (merge left right).Under bound := by
  fun_cases merge left right with
  | case1 right => exact hRight
  | case2 left _ => exact hLeft
  | case3 => exact hLeft
  | case4 => exact hRight

/-- Joining two heaps gives a heap. -/
theorem heap_merge {left right : MapTree κ α ι} (hLeft : left.Heap priorities)
    (hRight : right.Heap priorities) : (merge left right).Heap priorities := by
  fun_induction merge left right with
  | case1 right => exact hRight
  | case2 left _ => exact hLeft
  | case3 ll lp le lr rl rp re rr hLe ih =>
    exact ⟨hLeft.1, under_merge hLeft.2.1 hLe, hLeft.2.2.1, ih hLeft.2.2.2.1 hRight,
      hLeft.2.2.2.2⟩
  | case4 ll lp le lr rl rp re rr hLt ih =>
    exact ⟨under_merge (Nat.le_of_lt (Nat.not_le.mp hLt)) hRight.1, hRight.2.1,
      ih hLeft hRight.2.2.1, hRight.2.2.2⟩

/-- **Drop visits the entries in key order.** -/
theorem dropLoop_eq (t : MapTree κ α ι) : t.dropLoop = t.toList := by
  fun_induction dropLoop t with
  | case1 => rfl
  | case2 pl pp pivot pr priority entry right ih =>
    rw [ih]
    simp only [toList, List.append_assoc, List.cons_append]
  | case3 priority entry right ih => rw [ih, toList, toList, List.nil_append]

theorem forEach_eq (t : MapTree κ α ι) : t.forEach = t.toList.map fun e => (e.key, e.value) := by
  induction t with
  | leaf => rfl
  | node left _ current right ihLeft ihRight =>
    rw [forEach, ihLeft, ihRight, toList, List.map_append, List.map_cons]

theorem lastKeyValue_eq (t : MapTree κ α ι) :
    t.lastKeyValue = t.toList.getLast?.map fun e => (e.key, e.value) := by
  fun_induction lastKeyValue t with
  | case1 => rfl
  | case2 left priority current =>
    rw [toList, toList, List.getLast?_append]
    rfl
  | case3 left priority current l p e r ih =>
    rw [ih]
    have hSome : (node l p e r).toList ≠ [] := by
      rw [toList]
      simp
    rw [show (node left priority current (node l p e r)).toList =
      (left.toList ++ [current]) ++ (node l p e r).toList by
        rw [toList, List.append_assoc, List.singleton_append], List.getLast?_append]
    rw [List.getLast?_eq_some_getLast hSome]
    rfl

/-! ## Removing from either end of the search -/

/-- An entry of the list of a tree gives way to `put`, and the rest stays. -/
structure Edited (pre : List (MapEntry κ α ι)) (e : MapEntry κ α ι)
    (put post : List (MapEntry κ α ι)) (t t' : MapTree κ α ι) : Prop where
  before : t.toList = pre ++ e :: post
  after : t'.toList = pre ++ (put ++ post)
  heap : ∀ {priorities}, t.Heap priorities → t'.Heap priorities
  under : ∀ {priorities} bound, t.Heap priorities → t.Under bound → t'.Under bound

section Edit

variable {pre put post : List (MapEntry κ α ι)} {e current : MapEntry κ α ι}
  {left left' right right' : MapTree κ α ι} {priority : Nat}

theorem Edited.inLeft (h : Edited pre e put post left left') :
    Edited pre e put (post ++ current :: right.toList) (node left priority current right)
      (node left' priority current right) where
  before := by rw [toList, h.before, List.append_assoc, List.cons_append]
  after := by rw [toList, h.after, List.append_assoc, List.append_assoc]
  heap hHeap := ⟨h.under _ hHeap.2.2.1 hHeap.1, hHeap.2.1, h.heap hHeap.2.2.1, hHeap.2.2.2⟩
  under _ _ hUnder := hUnder

theorem Edited.inRight (h : Edited pre e put post right right') :
    Edited (left.toList ++ current :: pre) e put post (node left priority current right)
      (node left priority current right') where
  before := by rw [toList, h.before, List.append_assoc, List.cons_append]
  after := by rw [toList, h.after, List.append_assoc, List.cons_append]
  heap hHeap := ⟨hHeap.1, h.under _ hHeap.2.2.2.1 hHeap.2.1, hHeap.2.2.1, h.heap hHeap.2.2.2.1,
    hHeap.2.2.2.2⟩
  under _ _ hUnder := hUnder

/-- An entry leaves the list of a tree. -/
abbrev Removed (pre : List (MapEntry κ α ι)) (gone : MapEntry κ α ι) :=
  Edited pre gone []

/-- One value of the list of a tree is written. -/
abbrev Written (write : α → α) (pre : List (MapEntry κ α ι)) (e : MapEntry κ α ι) :=
  Edited pre e [{ e with value := write e.value }]

/-- The root leaves, and its subtrees are joined. -/
theorem Removed.root : Removed left.toList current right.toList (node left priority current right)
    (merge left right) where
  before := rfl
  after := toList_merge left right
  heap h := heap_merge h.2.2.1 h.2.2.2.1
  under _ h hUnder := under_merge (h.1.mono hUnder) (h.2.1.mono hUnder)

theorem Written.root {write : α → α} : Written write left.toList current right.toList
    (node left priority current right)
    (node left priority { current with value := write current.value } right) :=
  ⟨rfl, rfl, id, fun _ _ => id⟩

end Edit

/-- **The first node** of a tree with one is detached without a panic. -/
theorem removeFirstNode_spec (t : MapTree κ α ι) :
    (t = leaf ∧ t.removeFirstNode = some (none, leaf)) ∨
      ∃ (gone : MapEntry κ α ι) (t' : MapTree κ α ι) (post : List (MapEntry κ α ι)),
        t.removeFirstNode = some (some gone, t') ∧ Removed [] gone post t t' := by
  fun_induction removeFirstNode t with
  | case1 => exact .inl ⟨rfl, rfl⟩
  | case2 priority current right =>
    refine .inr ⟨current, right, right.toList, rfl, rfl, rfl, fun h => h.2.2.2.1, ?_⟩
    exact fun _ h hUnder => h.2.1.mono hUnder
  | case3 l p e r priority current right ih =>
    rcases ih with ⟨hLeaf, -⟩ | ⟨gone, t', post, hEq, hRemoved⟩
    · cases hLeaf
    · refine .inr ⟨gone, node t' priority current right, _, ?_, hRemoved.inLeft⟩
      rw [hEq]
      rfl

/-- The entries of a list are rejected by the calls from number `calls` on. -/
def Rejected (predicate : Nat → κ → α → Bool) (calls : Nat) (entries : List (MapEntry κ α ι)) :
    Prop :=
  ∀ (i : Nat) (h : i < entries.length),
    predicate (calls + i) entries[i].key entries[i].value = false

variable {predicate : Nat → κ → α → Bool}

theorem Rejected.append {calls : Nat} {entries more : List (MapEntry κ α ι)}
    (h : Rejected predicate calls entries) (h' : Rejected predicate (calls + entries.length) more) :
    Rejected predicate calls (entries ++ more) := by
  intro i hi
  by_cases hFirst : i < entries.length
  · simpa only [List.getElem_append_left hFirst] using h i hFirst
  · have hSecond := h' (i - entries.length) (by rw [List.length_append] at hi; omega)
    rw [show calls + entries.length + (i - entries.length) = calls + i by omega] at hSecond
    simpa only [List.getElem_append_right (Nat.le_of_not_lt hFirst)] using hSecond

theorem Rejected.cons {calls : Nat} {e : MapEntry κ α ι} {entries : List (MapEntry κ α ι)}
    (h : ¬predicate calls e.key e.value = true) (h' : Rejected predicate (calls + 1) entries) :
    Rejected predicate calls (e :: entries) := by
  intro i hi
  cases i with
  | zero => exact Bool.eq_false_iff.mpr h
  | succ i =>
    have := h' i (Nat.lt_of_succ_lt_succ hi)
    rw [Nat.add_right_comm] at this
    exact this

/-- **The first accepted node** is detached: all before it were rejected, in order. -/
theorem removeFirstWhereNode_spec (predicate : Nat → κ → α → Bool) (t : MapTree κ α ι)
    (calls : Nat) :
    (∃ calls', t.removeFirstWhereNode predicate calls = (none, t, calls') ∧
        calls' = calls + t.toList.length ∧ Rejected predicate calls t.toList) ∨
      ∃ (gone : MapEntry κ α ι) (t' : MapTree κ α ι) (pre post : List (MapEntry κ α ι)) (n : Nat),
        t.removeFirstWhereNode predicate calls = (some gone, t', n) ∧
        Removed pre gone post t t' ∧ Rejected predicate calls pre ∧
        predicate (calls + pre.length) gone.key gone.value = true := by
  induction t generalizing calls with
  | leaf =>
    exact .inl ⟨calls, rfl, rfl, fun i h => absurd h (Nat.not_lt_zero i)⟩
  | node left priority current right ihLeft ihRight =>
    rw [removeFirstWhereNode]
    rcases ihLeft calls with
      ⟨n, hEq, hCalls, hRejected⟩ | ⟨gone, t', pre, post, n, hEq, hR, hPre, hHit⟩
    · rw [hEq]
      dsimp only
      rw [hCalls]
      split
      · rename_i hHit
        exact .inr ⟨current, _, _, _, _, rfl, .root, hRejected, hHit⟩
      · rename_i hMiss
        rcases ihRight (calls + left.toList.length + 1) with
          ⟨n', hEq', hCalls', hRejected'⟩ | ⟨gone, t', pre, post, n', hEq', hR, hPre, hHit⟩
        · rw [hEq']
          refine .inl ⟨n', rfl, ?_, hRejected.append (.cons hMiss hRejected')⟩
          rw [hCalls', toList, List.length_append, List.length_cons]
          omega
        · rw [hEq']
          refine .inr ⟨gone, _, _, _, n', rfl, hR.inRight, hRejected.append (.cons hMiss hPre), ?_⟩
          rw [← hHit, List.length_append, List.length_cons]
          congr 1
          omega
    · rw [hEq]
      exact .inr ⟨gone, _, pre, _, n, rfl, hR.inLeft, hPre, hHit⟩

/-! ## Writing in place -/

/-- The order in which `find_value_mut` looks at the entries. -/
def preorder : MapTree κ α ι → List (MapEntry κ α ι)
  | leaf => []
  | node left _ current right => current :: (left.preorder ++ right.preorder)

theorem preorder_perm (t : MapTree κ α ι) : t.preorder.Perm t.toList := by
  induction t with
  | leaf => exact .nil
  | node left _ current right ihLeft ihRight =>
    exact ((ihLeft.append ihRight).cons current).trans List.perm_middle.symm

/-- **The first value accepted** on the walk from the root is written; without one
the tree is unchanged. -/
theorem findValueMut_spec (predicate : Nat → α → Bool) (write : α → α) (t : MapTree κ α ι)
    (calls : Nat) :
    (∃ calls', t.findValueMut predicate write calls = (none, t, calls') ∧
        calls' = calls + t.preorder.length ∧
        Rejected (fun n _ => predicate n) calls t.preorder) ∨
      ∃ (e : MapEntry κ α ι) (t' : MapTree κ α ι) (pre post seen rest : List (MapEntry κ α ι))
          (n : Nat),
        t.findValueMut predicate write calls = (some e.value, t', n) ∧
        Written write pre e post t t' ∧ t.preorder = seen ++ e :: rest ∧
        Rejected (fun n _ => predicate n) calls seen ∧
        predicate (calls + seen.length) e.value = true := by
  induction t generalizing calls with
  | leaf => exact .inl ⟨calls, rfl, rfl, fun i h => absurd h (Nat.not_lt_zero i)⟩
  | node left priority current right ihLeft ihRight =>
    rw [findValueMut]
    split
    · rename_i hHit
      exact .inr ⟨current, _, _, _, [], _, _, rfl, .root, rfl,
        fun i h => absurd h (Nat.not_lt_zero i), hHit⟩
    · rename_i hMiss
      rcases ihLeft (calls + 1) with
        ⟨n, hEq, hCalls, hRejected⟩ |
          ⟨e, t', pre, post, seen, rest, n, hEq, hW, hOrder, hSeen, hHit⟩
      · rw [hEq]
        dsimp only
        rw [hCalls]
        rcases ihRight (calls + 1 + left.preorder.length) with
          ⟨n', hEq', hCalls', hRejected'⟩ |
            ⟨e, t', pre, post, seen, rest, n', hEq', hW, hOrder, hSeen, hHit⟩
        · rw [hEq']
          refine .inl ⟨n', rfl, ?_, .cons hMiss (hRejected.append hRejected')⟩
          rw [hCalls', preorder, List.length_cons, List.length_append]
          omega
        · rw [hEq']
          refine .inr ⟨e, _, _, _, current :: (left.preorder ++ seen), rest, n', rfl, hW.inRight,
            ?_, .cons hMiss (hRejected.append hSeen), ?_⟩
          · rw [preorder, hOrder, List.cons_append, List.append_assoc]
          · rw [← hHit, List.length_cons, List.length_append]
            congr 1
            omega
      · rw [hEq]
        refine .inr ⟨e, _, _, _, current :: seen, rest ++ right.preorder, n, rfl, hW.inLeft, ?_,
          .cons hMiss hSeen, ?_⟩
        · rw [preorder, hOrder, List.cons_append, List.append_assoc, List.cons_append]
        · rw [← hHit, List.length_cons]
          congr 1
          omega

/-! ## Searching by key -/

section Search

variable [LinearOrder κ]

def Sorted (entries : List (MapEntry κ α ι)) : Prop :=
  entries.Pairwise fun a b => a.key < b.key

variable {pre post : List (MapEntry κ α ι)} {current e pivot : MapEntry κ α ι}

theorem Sorted.split (h : Sorted (pre ++ e :: post)) :
    (∀ a ∈ pre, a.key < e.key) ∧ ∀ b ∈ post, e.key < b.key := by
  obtain ⟨-, hPost, hPre⟩ := List.pairwise_append.mp h
  exact ⟨fun a ha => hPre a ha e List.mem_cons_self, (List.pairwise_cons.mp hPost).1⟩

variable {priority : Nat}

variable {t l r left right : MapTree κ α ι}

theorem Sorted.subtrees (h : Sorted (node left priority current right).toList) :
    Sorted left.toList ∧ Sorted right.toList ∧ (∀ a ∈ left.toList, a.key < current.key) ∧
      ∀ b ∈ right.toList, current.key < b.key := by
  obtain ⟨hLeft, hRight, -⟩ := List.pairwise_append.mp h
  exact ⟨hLeft, (List.pairwise_cons.mp hRight).2, h.split⟩

theorem Sorted.removed (h : Sorted (pre ++ e :: post)) : Sorted (pre ++ post) :=
  h.sublist ((List.Sublist.refl pre).append (List.sublist_cons_self e post))

theorem Sorted.written {e' : MapEntry κ α ι} (h : Sorted (pre ++ e :: post))
    (hKey : e'.key = e.key) : Sorted (pre ++ e' :: post) := by
  obtain ⟨hPre, hPost, hCross⟩ := List.pairwise_append.mp h
  obtain ⟨hHead, hTail⟩ := List.pairwise_cons.mp hPost
  refine List.pairwise_append.mpr ⟨hPre, List.pairwise_cons.mpr ⟨?_, hTail⟩, ?_⟩
  · rw [hKey]
    exact hHead
  · intro a ha b hb
    rcases List.mem_cons.mp hb with rfl | hb
    · rw [hKey]
      exact hCross a ha e List.mem_cons_self
    · exact hCross a ha b (List.mem_cons_of_mem e hb)

/-- Entries with other keys around a key leave it to the middle. -/
theorem find?_middle {key : κ} (h : Sorted (pre ++ e :: post)) (hKey : e.key = key) :
    (pre ++ e :: post).find? (fun a => a.key == key) = some e := by
  rw [List.find?_append, List.find?_eq_none.mpr, Option.none_or, List.find?_cons_of_pos]
  · simp [hKey]
  · intro a ha
    have := h.split.1 a ha
    simp only [beq_iff_eq]
    intro hEq
    exact absurd (hEq.trans hKey.symm) (ne_of_lt this)

theorem find?_left (h : Sorted (node left priority current right).toList) {key : κ}
    (hLt : key < current.key) :
    (node left priority current right).toList.find? (fun a => a.key == key) =
      left.toList.find? fun a => a.key == key := by
  obtain ⟨-, -, -, hRight⟩ := h.subtrees
  have hNone : (current :: right.toList).find? (fun a => a.key == key) = none := by
    refine List.find?_eq_none.mpr fun b hb => ?_
    have hAbove : key < b.key := by
      rcases List.mem_cons.mp hb with rfl | hb
      · exact hLt
      · exact lt_trans hLt (hRight b hb)
    simp only [beq_iff_eq]
    exact ne_of_gt hAbove
  rw [toList, List.find?_append, hNone, Option.or_none]

theorem find?_right (h : Sorted (node left priority current right).toList) {key : κ}
    (hGt : current.key < key) :
    (node left priority current right).toList.find? (fun a => a.key == key) =
      right.toList.find? fun a => a.key == key := by
  obtain ⟨-, -, hLeft, -⟩ := h.subtrees
  have hNone : (left.toList ++ [current]).find? (fun a => a.key == key) = none := by
    refine List.find?_eq_none.mpr fun b hb => ?_
    have hBelow : b.key < key := by
      rcases List.mem_append.mp hb with hb | hb
      · exact lt_trans (hLeft b hb) hGt
      · rw [List.mem_singleton.mp hb]
        exact hGt
    simp only [beq_iff_eq]
    exact ne_of_lt hBelow
  rw [toList, ← List.singleton_append, ← List.append_assoc, List.find?_append, hNone,
    Option.none_or]

/-- **A lookup** finds the entry with that key. -/
theorem find_eq (h : Sorted t.toList) (key : κ) :
    t.find key = t.toList.find? fun a => a.key == key := by
  induction t with
  | leaf => rfl
  | node left priority current right ihLeft ihRight =>
    obtain ⟨hLeft, hRight, -⟩ := h.subtrees
    rw [find]
    cases hCmp : compare key current.key with
    | lt => rw [find?_left h (compare_lt_iff_lt.mp hCmp), ← ihLeft hLeft]
    | gt => rw [find?_right h (compare_gt_iff_gt.mp hCmp), ← ihRight hRight]
    | eq => exact (find?_middle h (compare_eq_iff_eq.mp hCmp).symm).symm

/-- **A removal** detaches the entry with that key, or changes nothing. -/
theorem removeNode_spec (h : Sorted t.toList) (key : κ) :
    (t.removeNode key = (none, t) ∧ t.toList.find? (fun a => a.key == key) = none) ∨
      ∃ (gone : MapEntry κ α ι) (t' : MapTree κ α ι) (pre post : List (MapEntry κ α ι)),
        t.removeNode key = (some gone, t') ∧ Removed pre gone post t t' ∧ gone.key = key := by
  induction t with
  | leaf => exact .inl ⟨rfl, rfl⟩
  | node left priority current right ihLeft ihRight =>
    obtain ⟨hLeft, hRight, -⟩ := h.subtrees
    rw [removeNode]
    cases hCmp : compare key current.key with
    | lt =>
      rw [find?_left h (compare_lt_iff_lt.mp hCmp)]
      rcases ihLeft hLeft with ⟨hEq, hNone⟩ | ⟨gone, t', pre, post, hEq, hR, hKey⟩
      · rw [hEq]
        exact .inl ⟨rfl, hNone⟩
      · rw [hEq]
        exact .inr ⟨gone, _, _, _, rfl, hR.inLeft, hKey⟩
    | gt =>
      rw [find?_right h (compare_gt_iff_gt.mp hCmp)]
      rcases ihRight hRight with ⟨hEq, hNone⟩ | ⟨gone, t', pre, post, hEq, hR, hKey⟩
      · rw [hEq]
        exact .inl ⟨rfl, hNone⟩
      · rw [hEq]
        exact .inr ⟨gone, _, _, _, rfl, hR.inRight, hKey⟩
    | eq => exact .inr ⟨current, _, _, _, rfl, .root, (compare_eq_iff_eq.mp hCmp).symm⟩

/-- **A write through `get_mut`** changes the value under that key only. -/
theorem writeAt_spec (h : Sorted t.toList) (key : κ) (write : α → α) :
    (t.writeAt key write = t ∧ t.toList.find? (fun a => a.key == key) = none) ∨
      ∃ (e : MapEntry κ α ι) (pre post : List (MapEntry κ α ι)),
        Written write pre e post t (t.writeAt key write) ∧ e.key = key := by
  induction t with
  | leaf => exact .inl ⟨rfl, rfl⟩
  | node left priority current right ihLeft ihRight =>
    obtain ⟨hLeft, hRight, -⟩ := h.subtrees
    rw [writeAt]
    cases hCmp : compare key current.key with
    | lt =>
      rw [find?_left h (compare_lt_iff_lt.mp hCmp)]
      rcases ihLeft hLeft with ⟨hEq, hNone⟩ | ⟨e, pre, post, hW, hKey⟩
      · exact .inl ⟨by rw [hEq], hNone⟩
      · exact .inr ⟨e, _, _, hW.inLeft, hKey⟩
    | gt =>
      rw [find?_right h (compare_gt_iff_gt.mp hCmp)]
      rcases ihRight hRight with ⟨hEq, hNone⟩ | ⟨e, pre, post, hW, hKey⟩
      · exact .inl ⟨by rw [hEq], hNone⟩
      · exact .inr ⟨e, _, _, hW.inRight, hKey⟩
    | eq => exact .inr ⟨current, _, _, .root, (compare_eq_iff_eq.mp hCmp).symm⟩

/-- **The successor walk** finds the first entry beyond the cursor. -/
theorem successorLoop_eq (h : Sorted t.toList) (after : Option κ) (best : Option (κ × α)) :
    t.successorLoop after best =
      ((t.toList.find? fun e => after.all (· < e.key)).map fun e => (e.key, e.value)).or best := by
  induction t generalizing best with
  | leaf => rfl
  | node left priority current right ihLeft ihRight =>
    obtain ⟨hLeft, hRight, hBelow, -⟩ := h.subtrees
    rw [successorLoop, toList, List.find?_append]
    split
    · rename_i hAhead
      rw [ihLeft hLeft, List.find?_cons_of_pos
        (p := fun e : MapEntry κ α ι => after.all (· < e.key)) hAhead]
      cases left.toList.find? fun e => after.all (· < e.key) <;> rfl
    · rename_i hBehind
      have hNone : left.toList.find? (fun e => after.all (· < e.key)) = none := by
        refine List.find?_eq_none.mpr fun a ha => ?_
        cases after with
        | none => exact absurd rfl hBehind
        | some cursor =>
          simp only [Option.all_some, decide_eq_true_eq] at hBehind ⊢
          exact fun hLt => hBehind (lt_trans hLt (hBelow a ha))
      rw [ihRight hRight, hNone, Option.none_or,
        List.find?_cons_of_neg (p := fun e : MapEntry κ α ι => after.all (· < e.key)) hBehind]

/-! ## Inserting -/

/-- A new node takes its place between the smaller and the greater keys. Its root
is that of the old tree, or the new node above children the old root bounds. -/
structure Placed (priorities : κ → Nat) (new : MapEntry κ α ι) (t t' : MapTree κ α ι) :
    Prop where
  list : ∃ pre post : List (MapEntry κ α ι), t.toList = pre ++ post ∧
    t'.toList = pre ++ new :: post ∧ (∀ a ∈ pre, a.key < new.key) ∧ ∀ b ∈ post, new.key < b.key
  heap : t.Heap priorities → t'.Heap priorities
  root : ∀ bound, t.Heap priorities → t.Under bound → t'.Under bound ∨
    ∃ left right : MapTree κ α ι, t' = node left (priorities new.key) new right ∧
      left.Under bound ∧ right.Under bound

variable {currentPriority : Nat} {new current : MapEntry κ α ι}
  {left left' right right' : MapTree κ α ι}

/-- A list with a new entry between the smaller and the greater keys. -/
private def PlacedIn (new : MapEntry κ α ι) (old list : List (MapEntry κ α ι)) : Prop :=
  ∃ pre post, old = pre ++ post ∧ list = pre ++ new :: post ∧ (∀ a ∈ pre, a.key < new.key) ∧
    ∀ b ∈ post, new.key < b.key

private theorem Placed.listLeft (h : Placed priorities new left left')
    (hSorted : Sorted (node left currentPriority current right).toList)
    (hLt : new.key < current.key) :
    PlacedIn new (node left currentPriority current right).toList
      (node left' currentPriority current right).toList := by
  obtain ⟨pre, post, hOld, hNew, hPre, hPost⟩ := h.list
  obtain ⟨-, -, -, hRight⟩ := hSorted.subtrees
  refine ⟨pre, post ++ current :: right.toList, ?_, ?_, hPre, fun b hb => ?_⟩
  · rw [toList, hOld, List.append_assoc]
  · rw [toList, hNew, List.append_assoc, List.cons_append]
  · rcases List.mem_append.mp hb with hb | hb
    · exact hPost b hb
    · rcases List.mem_cons.mp hb with rfl | hb
      · exact hLt
      · exact lt_trans hLt (hRight b hb)

private theorem Placed.listRight (h : Placed priorities new right right')
    (hSorted : Sorted (node left currentPriority current right).toList)
    (hGt : current.key < new.key) :
    PlacedIn new (node left currentPriority current right).toList
      (node left currentPriority current right').toList := by
  obtain ⟨pre, post, hOld, hNew, hPre, hPost⟩ := h.list
  obtain ⟨-, -, hLeft, -⟩ := hSorted.subtrees
  refine ⟨left.toList ++ current :: pre, post, ?_, ?_, fun a ha => ?_, hPost⟩
  · rw [toList, hOld, List.append_assoc, List.cons_append]
  · rw [toList, hNew, List.append_assoc, List.cons_append]
  · rcases List.mem_append.mp ha with ha | ha
    · exact lt_trans (hLeft a ha) hGt
    · rcases List.mem_cons.mp ha with rfl | ha
      · exact hGt
      · exact hPre a ha

omit [LinearOrder κ] in
private theorem toList_rotate (l : MapTree κ α ι) (p q : Nat) (a b : MapEntry κ α ι)
    (m r : MapTree κ α ι) :
    (node l p a (node m q b r)).toList = (node (node l p a m) q b r).toList := by
  simp only [toList, List.append_assoc, List.cons_append]

/-- Inserting below on the left, the new node staying below. -/
private theorem Placed.leftBelow (h : Placed priorities new left left')
    (hSorted : Sorted (node left currentPriority current right).toList)
    (hLt : new.key < current.key) (hRank : left'.outranks currentPriority = false) :
    Placed priorities new (node left currentPriority current right)
      (node left' currentPriority current right) where
  list := h.listLeft hSorted hLt
  heap hHeap := by
    refine ⟨?_, hHeap.2.1, h.heap hHeap.2.2.1, hHeap.2.2.2⟩
    cases left' with
    | leaf => trivial
    | node => exact Nat.not_lt.mp (of_decide_eq_false hRank)
  root bound _ hUnder := .inl hUnder

/-- Inserting below on the left, the new node rising above this one. -/
private theorem Placed.leftAbove {p : Nat} (h : Placed priorities new left (node l p pivot r))
    (hSorted : Sorted (node left currentPriority current right).toList)
    (hLt : new.key < current.key) (hRank : currentPriority < p) :
    Placed priorities new (node left currentPriority current right)
      (node l p pivot (node r currentPriority current right)) where
  list := toList_rotate l p currentPriority pivot current r right ▸ h.listLeft hSorted hLt
  heap hHeap := by
    have hPivot := h.heap hHeap.2.2.1
    rcases h.root currentPriority hHeap.2.2.1 hHeap.1 with hUnder | ⟨l', r', hEq, -, hUnder⟩
    · exact absurd hUnder (Nat.not_le.mpr hRank)
    · cases hEq
      exact ⟨hPivot.1, Nat.le_of_lt hRank, hPivot.2.2.1,
        ⟨hUnder, hHeap.2.1, hPivot.2.2.2.1, hHeap.2.2.2⟩, hPivot.2.2.2.2⟩
  root bound hHeap hUnder := by
    rcases h.root currentPriority hHeap.2.2.1 hHeap.1 with hLow | ⟨l', r', hEq, hLeft, -⟩
    · exact absurd hLow (Nat.not_le.mpr hRank)
    · cases hEq
      exact .inr ⟨l, _, rfl, hLeft.mono hUnder, hUnder⟩

private theorem Placed.rightBelow (h : Placed priorities new right right')
    (hSorted : Sorted (node left currentPriority current right).toList)
    (hGt : current.key < new.key) (hRank : right'.outranks currentPriority = false) :
    Placed priorities new (node left currentPriority current right)
      (node left currentPriority current right') where
  list := h.listRight hSorted hGt
  heap hHeap := by
    refine ⟨hHeap.1, ?_, hHeap.2.2.1, h.heap hHeap.2.2.2.1, hHeap.2.2.2.2⟩
    cases right' with
    | leaf => trivial
    | node => exact Nat.not_lt.mp (of_decide_eq_false hRank)
  root bound _ hUnder := .inl hUnder

private theorem Placed.rightAbove {p : Nat} (h : Placed priorities new right (node l p pivot r))
    (hSorted : Sorted (node left currentPriority current right).toList)
    (hGt : current.key < new.key) (hRank : currentPriority < p) :
    Placed priorities new (node left currentPriority current right)
      (node (node left currentPriority current l) p pivot r) where
  list := toList_rotate left currentPriority p current pivot l r ▸ h.listRight hSorted hGt
  heap hHeap := by
    have hPivot := h.heap hHeap.2.2.2.1
    rcases h.root currentPriority hHeap.2.2.2.1 hHeap.2.1 with hUnder | ⟨l', r', hEq, hUnder, -⟩
    · exact absurd hUnder (Nat.not_le.mpr hRank)
    · cases hEq
      exact ⟨Nat.le_of_lt hRank, hPivot.2.1,
        ⟨hHeap.1, hUnder, hHeap.2.2.1, hPivot.2.2.1, hHeap.2.2.2.2⟩, hPivot.2.2.2⟩
  root bound hHeap hUnder := by
    rcases h.root currentPriority hHeap.2.2.2.1 hHeap.2.1 with hLow | ⟨l', r', hEq, -, hRight⟩
    · exact absurd hLow (Nat.not_le.mpr hRank)
    · cases hEq
      exact .inr ⟨_, r, rfl, hUnder, hRight.mono hUnder⟩

/-- **An insertion** places the node, or hands it back over an unchanged tree; no
rotation panics. -/
theorem insertNode_spec (h : Sorted t.toList) :
    (t.insertNode (priorities new.key) new = some (some new, t) ∧ ∃ e ∈ t.toList, e.key = new.key) ∨
      ∃ t' : MapTree κ α ι, t.insertNode (priorities new.key) new = some (none, t') ∧
        Placed priorities new t t' := by
  induction t with
  | leaf =>
    refine .inr ⟨_, rfl, ⟨[], [], rfl, rfl, by simp, by simp⟩, fun _ => ?_, fun _ _ _ => ?_⟩
    · exact ⟨trivial, trivial, trivial, trivial, rfl⟩
    · exact .inr ⟨leaf, leaf, rfl, trivial, trivial⟩
  | node left currentPriority current right ihLeft ihRight =>
    obtain ⟨hLeft, hRight, -⟩ := h.subtrees
    rw [insertNode]
    cases hCmp : compare new.key current.key with
    | eq =>
      refine .inl ⟨rfl, current, ?_, (compare_eq_iff_eq.mp hCmp).symm⟩
      rw [toList]
      exact List.mem_append_right _ List.mem_cons_self
    | lt =>
      have hLt := compare_lt_iff_lt.mp hCmp
      rcases ihLeft hLeft with ⟨hEq, e, he, hKey⟩ | ⟨t', hEq, hPlaced⟩
      · refine .inl ⟨?_, e, ?_, hKey⟩
        · simp only [hEq, Option.bind_eq_bind, Option.bind_some, Option.isNone_some,
            Bool.false_and, Bool.false_eq_true, if_false, Option.pure_def]
        · rw [toList]
          exact List.mem_append_left _ he
      · simp only [hEq, Option.bind_eq_bind, Option.bind_some, Option.isNone_none, Bool.true_and,
          Option.pure_def]
        cases hRank : t'.outranks currentPriority with
        | false => exact .inr ⟨_, rfl, hPlaced.leftBelow h hLt hRank⟩
        | true =>
          cases t' with
          | leaf => cases hRank
          | node l p pivot r =>
            exact .inr ⟨_, rfl, hPlaced.leftAbove h hLt (of_decide_eq_true hRank)⟩
    | gt =>
      have hGt := compare_gt_iff_gt.mp hCmp
      rcases ihRight hRight with ⟨hEq, e, he, hKey⟩ | ⟨t', hEq, hPlaced⟩
      · refine .inl ⟨?_, e, ?_, hKey⟩
        · simp only [hEq, Option.bind_eq_bind, Option.bind_some, Option.isNone_some,
            Bool.false_and, Bool.false_eq_true, if_false, Option.pure_def]
        · rw [toList]
          exact List.mem_append_right _ (List.mem_cons_of_mem _ he)
      · simp only [hEq, Option.bind_eq_bind, Option.bind_some, Option.isNone_none, Bool.true_and,
          Option.pure_def]
        cases hRank : t'.outranks currentPriority with
        | false => exact .inr ⟨_, rfl, hPlaced.rightBelow h hGt hRank⟩
        | true =>
          cases t' with
          | leaf => cases hRank
          | node l p pivot r =>
            exact .inr ⟨_, rfl, hPlaced.rightAbove h hGt (of_decide_eq_true hRank)⟩

end Search

end MapTree

end MyOwnMesh.Resource
