import MyOwnMesh.Resource.LeasedMap
import MyOwnMesh.Resource.LeasedQueue

/-!
# Runs of the leased map

The owner of a `LeasedMap` inserts, removes and mutates entries, and holds the
candidates its inserts refused. `FlatMap` is the finite map it stands for: the
entries in key order. Every call answers what the finite map answers, and every
lease is held by one entry or was released.
-/

namespace MyOwnMesh.Resource

open MapTree

variable {κ α ι : Type}

namespace MapEntry

def pair (e : MapEntry κ α ι) : κ × α := (e.key, e.value)

/-- Drop a node: its key and value, its allocation, then its lease. -/
def drop (e : MapEntry κ α ι) : List (Departure (κ × α) ι) :=
  [.destroyed e.pair, .released e.entry]

end MapEntry

/-- An ordered map whose every entry is separately funded. The priority of a key
is the hash of a random state that the map keeps. -/
structure LeasedMap (κ α ι : Type) where
  root : MapTree κ α ι
  len : Nat
  priorities : κ → Nat

namespace LeasedMap

def new (priorities : κ → Nat) : LeasedMap κ α ι := ⟨.leaf, 0, priorities⟩

/-- The map after a node came out of its tree, or none did. -/
def detached (m : LeasedMap κ α ι) (removed : Option (MapEntry κ α ι))
    (root : MapTree κ α ι) : Option (Option (MapEntry κ α ι) × LeasedMap κ α ι) :=
  match removed with
  | none => some (none, { m with root })
  | some removed => do
    return (some removed, { m with root, len := ← LeasedQueue.checkedPred m.len })

/-- Remove and return the first ordered entry. -/
def popFirstEntry (m : LeasedMap κ α ι) :
    Option (Option (MapEntry κ α ι) × LeasedMap κ α ι) := do
  let (removed, root) ← m.root.removeFirstNode
  m.detached removed root

/-- Remove and return the first ordered entry accepted by `predicate`. -/
def popFirstWhere (m : LeasedMap κ α ι) (predicate : Nat → κ → α → Bool) :
    Option (Option (MapEntry κ α ι) × LeasedMap κ α ι) :=
  let (removed, root, _) := m.root.removeFirstWhereNode predicate 0
  m.detached removed root

/-- Borrow one value satisfying `predicate` and write to it. -/
def findValueMut (m : LeasedMap κ α ι) (predicate : Nat → α → Bool) (write : α → α) :
    Option α × LeasedMap κ α ι :=
  let (value, root, _) := m.root.findValueMut predicate write 0
  (value, { m with root })

/-- Dropping the map drops every entry it still holds. -/
def drop (m : LeasedMap κ α ι) : List (Departure (κ × α) ι) :=
  m.root.dropLoop.flatMap MapEntry.drop

variable [LinearOrder κ]

/-- Insert one entry; a key already present refuses the candidate. -/
def insert (m : LeasedMap κ α ι) (key : κ) (value : α) (entry : ι) :
    Option (Option (MapEntry κ α ι) × LeasedMap κ α ι) := do
  match ← m.root.insertNode (m.priorities key) ⟨key, value, entry⟩ with
  | (some refused, root) => return (some refused, { m with root })
  | (none, root) => return (none, { m with root, len := m.len + 1 })

def get (m : LeasedMap κ α ι) (key : κ) : Option α := (m.root.find key).map MapEntry.value

def containsKey (m : LeasedMap κ α ι) (key : κ) : Bool := (m.root.find key).isSome

/-- Borrow the value under `key` and write to it. -/
def getMut (m : LeasedMap κ α ι) (key : κ) (write : α → α) : Option α × LeasedMap κ α ι :=
  (m.get key, { m with root := m.root.writeAt key write })

/-- Remove one entry and hand back both halves. -/
def removeEntry (m : LeasedMap κ α ι) (key : κ) :
    Option (Option (MapEntry κ α ι) × LeasedMap κ α ι) :=
  let (removed, root) := m.root.removeNode key
  m.detached removed root

/-- The least live key strictly greater than `after`, and its value. -/
def successorAfter (m : LeasedMap κ α ι) (after : Option κ) : Option (κ × α) :=
  m.root.successorLoop after none

end LeasedMap

/-- One call of the owner of a map. `dropRefusal` drops one of the refused
candidates the owner holds. -/
inductive MapCall (κ α ι : Type) where
  | insert (key : κ) (value : α) (entry : ι)
  | removeEntry (key : κ)
  | popFirstEntry
  | popFirstWhere (predicate : Nat → κ → α → Bool)
  | getMut (key : κ) (write : α → α)
  | findValueMut (predicate : Nat → α → Bool) (write : α → α)
  | get (key : κ)
  | containsKey (key : κ)
  | lastKeyValue
  | successorAfter (after : Option κ)
  | forEach
  | dropRefusal (index : Nat)

/-- What a call returns. -/
inductive MapAnswer (κ α : Type) where
  | done
  | inserted (taken : Bool)
  | value (value : Option α)
  | present (answer : Bool)
  | entry (entry : Option (κ × α))
  | entries (entries : List (κ × α))

/-! ## The finite map -/

/-- A finite map as its entries in key order, the refused candidates and the
departures so far. -/
structure FlatMap (κ α ι : Type) where
  entries : List (MapEntry κ α ι)
  refused : List (MapEntry κ α ι)
  gone : List (Departure (κ × α) ι)

namespace FlatMap

/-- One entry leaves the map and its lease is released. -/
def Leaves (s : FlatMap κ α ι) (pre : List (MapEntry κ α ι)) (e : MapEntry κ α ι)
    (post : List (MapEntry κ α ι)) (answer : MapAnswer κ α) (s' : FlatMap κ α ι) : Prop :=
  s.entries = pre ++ e :: post ∧ answer = .entry (some e.pair) ∧
    s' = { s with entries := pre ++ post, gone := s.gone ++ [.released e.entry] }

/-- A call that writes the value of one entry. -/
def Writes (s : FlatMap κ α ι) (write : α → α) (pre : List (MapEntry κ α ι))
    (e : MapEntry κ α ι) (post : List (MapEntry κ α ι)) (answer : MapAnswer κ α)
    (s' : FlatMap κ α ι) : Prop :=
  s.entries = pre ++ e :: post ∧ answer = .value (some e.value) ∧
    s' = { s with entries := pre ++ { e with value := write e.value } :: post }

variable [LinearOrder κ]

def lookup (s : FlatMap κ α ι) (key : κ) : Option (MapEntry κ α ι) :=
  s.entries.find? fun e => e.key == key

/-- What a call on a finite map may answer and leave. The order in which
`find_value_mut` meets the entries is not that of the keys. -/
def Meets (s : FlatMap κ α ι) (c : MapCall κ α ι) (answer : MapAnswer κ α)
    (s' : FlatMap κ α ι) : Prop :=
  match c with
  | .insert key value entry =>
    ((∃ e ∈ s.entries, e.key = key) ∧ answer = .inserted false ∧
      s' = { s with refused := s.refused ++ [⟨key, value, entry⟩] }) ∨
    ((∀ e ∈ s.entries, e.key ≠ key) ∧ answer = .inserted true ∧
      s'.entries.Perm (⟨key, value, entry⟩ :: s.entries) ∧ s'.refused = s.refused ∧
      s'.gone = s.gone)
  | .removeEntry key =>
    (s.lookup key = none ∧ answer = .entry none ∧ s' = s) ∨
      ∃ pre e post, e.key = key ∧ s.Leaves pre e post answer s'
  | .popFirstEntry =>
    (s.entries = [] ∧ answer = .entry none ∧ s' = s) ∨ ∃ e post, s.Leaves [] e post answer s'
  | .popFirstWhere predicate =>
    (Rejected predicate 0 s.entries ∧ answer = .entry none ∧ s' = s) ∨
      ∃ pre e post, Rejected predicate 0 pre ∧ predicate pre.length e.key e.value = true ∧
        s.Leaves pre e post answer s'
  | .getMut key write =>
    (s.lookup key = none ∧ answer = .value none ∧ s' = s) ∨
      ∃ pre e post, e.key = key ∧ s.Writes write pre e post answer s'
  | .findValueMut predicate write =>
    (∃ order, order.Perm s.entries ∧ Rejected (fun n _ => predicate n) 0 order ∧
      answer = .value none ∧ s' = s) ∨
    ∃ pre e post seen rest, (seen ++ e :: rest).Perm s.entries ∧
      Rejected (fun n _ => predicate n) 0 seen ∧ predicate seen.length e.value = true ∧
      s.Writes write pre e post answer s'
  | .get key => answer = .value ((s.lookup key).map MapEntry.value) ∧ s' = s
  | .containsKey key => answer = .present (s.lookup key).isSome ∧ s' = s
  | .lastKeyValue => answer = .entry (s.entries.getLast?.map MapEntry.pair) ∧ s' = s
  | .successorAfter after =>
    answer = .entry ((s.entries.find? fun e => after.all (· < e.key)).map MapEntry.pair) ∧ s' = s
  | .forEach => answer = .entries (s.entries.map MapEntry.pair) ∧ s' = s
  | .dropRefusal index =>
    answer = .done ∧
      s' = { s with
        refused := s.refused.eraseIdx index
        gone := s.gone ++ s.refused[index]?.toList.flatMap MapEntry.drop }

/-- What a list of calls may answer and leave. -/
inductive Runs : FlatMap κ α ι → List (MapCall κ α ι) → List (MapAnswer κ α) →
    FlatMap κ α ι → Prop
  | nil {s : FlatMap κ α ι} : Runs s [] [] s
  | cons {s s' s'' : FlatMap κ α ι} {c : MapCall κ α ι} {calls : List (MapCall κ α ι)}
      {answer : MapAnswer κ α} {answers : List (MapAnswer κ α)} :
      s.Meets c answer s' → Runs s' calls answers s'' →
      Runs s (c :: calls) (answer :: answers) s''

end FlatMap

/-! ## Runs of the owner -/

/-- The owner of a map, with the refused candidates it holds and what has left. -/
structure MapOwner (κ α ι : Type) where
  map : LeasedMap κ α ι
  refused : List (MapEntry κ α ι)
  gone : List (Departure (κ × α) ι)

namespace MapOwner

def new (priorities : κ → Nat) : MapOwner κ α ι := ⟨.new priorities, [], []⟩

/-- The answer to a removal; the node lease is released before it is seen. -/
def removed (o : MapOwner κ α ι) (e : Option (MapEntry κ α ι)) (map : LeasedMap κ α ι) :
    MapAnswer κ α × MapOwner κ α ι :=
  (.entry (e.map MapEntry.pair),
    { o with map, gone := o.gone ++ e.toList.map fun e => .released e.entry })

def toFlat (o : MapOwner κ α ι) : FlatMap κ α ι := ⟨o.map.root.toList, o.refused, o.gone⟩

variable [LinearOrder κ]

/-- One call; `none` is a panic. -/
def call (o : MapOwner κ α ι) : MapCall κ α ι → Option (MapAnswer κ α × MapOwner κ α ι)
  | .insert key value entry => do
    let (refused, map) ← o.map.insert key value entry
    return (.inserted refused.isNone, { o with map, refused := o.refused ++ refused.toList })
  | .removeEntry key => do
    let (e, map) ← o.map.removeEntry key
    return o.removed e map
  | .popFirstEntry => do
    let (e, map) ← o.map.popFirstEntry
    return o.removed e map
  | .popFirstWhere predicate => do
    let (e, map) ← o.map.popFirstWhere predicate
    return o.removed e map
  | .getMut key write =>
    let (value, map) := o.map.getMut key write
    some (.value value, { o with map })
  | .findValueMut predicate write =>
    let (value, map) := o.map.findValueMut predicate write
    some (.value value, { o with map })
  | .get key => some (.value (o.map.get key), o)
  | .containsKey key => some (.present (o.map.containsKey key), o)
  | .lastKeyValue => some (.entry o.map.root.lastKeyValue, o)
  | .successorAfter after => some (.entry (o.map.successorAfter after), o)
  | .forEach => some (.entries o.map.root.forEach, o)
  | .dropRefusal index =>
    some (.done,
      { o with
        refused := o.refused.eraseIdx index
        gone := o.gone ++ o.refused[index]?.toList.flatMap MapEntry.drop })

/-- The answers of a sequence of calls; `none` is a panic. -/
def run (o : MapOwner κ α ι) :
    List (MapCall κ α ι) → Option (List (MapAnswer κ α) × MapOwner κ α ι)
  | [] => some ([], o)
  | call :: calls => do
    let (answer, o) ← o.call call
    let (answers, o) ← o.run calls
    return (answer :: answers, o)

/-- A search tree by key and a heap by the priorities of the keys, of the counted size. -/
structure Valid (priorities : κ → Nat) (m : LeasedMap κ α ι) : Prop where
  sorted : Sorted m.root.toList
  heap : m.root.Heap priorities
  counted : m.len = m.root.size
  ranked : m.priorities = priorities

variable {priorities : κ → Nat} {o : MapOwner κ α ι}

variable {pre post : List (MapEntry κ α ι)} {e : MapEntry κ α ι} {root : MapTree κ α ι}

/-- A detached node is counted and its lease released. -/
theorem detached_spec (h : Valid priorities o.map) (hRemoved : Removed pre e post o.map.root root) :
    ∃ map : LeasedMap κ α ι, o.map.detached (some e) root = some (some e, map) ∧
      Valid priorities map ∧
      o.toFlat.Leaves pre e post (o.removed (some e) map).1 (o.removed (some e) map).2.toFlat := by
  have hBefore : o.map.root.size = (pre ++ post).length + 1 := by
    rw [← length_toList, hRemoved.before, List.length_append, List.length_cons,
      List.length_append]
    rfl
  have hAfter : root.size = (pre ++ post).length := by
    rw [← length_toList, hRemoved.after, List.nil_append]
  have hLen := h.counted
  refine ⟨{ o.map with root, len := o.map.len - 1 }, ?_,
    ⟨?_, hRemoved.heap h.heap, ?_, h.ranked⟩, ?_⟩
  · rw [LeasedMap.detached, LeasedQueue.checkedPred_eq (by omega)]
    rfl
  · rw [hRemoved.after]
    exact Sorted.removed (hRemoved.before ▸ h.sorted)
  · show o.map.len - 1 = root.size
    omega
  · refine ⟨hRemoved.before, rfl, ?_⟩
    show (⟨root.toList, _, _⟩ : FlatMap κ α ι) = _
    rw [hRemoved.after]
    rfl

omit [LinearOrder κ] in
theorem removed_none (o : MapOwner κ α ι) (map : LeasedMap κ α ι) (hRoot : map.root = o.map.root) :
    (o.removed none map).2.toFlat = o.toFlat := by
  show (⟨map.root.toList, _, o.gone ++ []⟩ : FlatMap κ α ι) = _
  rw [hRoot, List.append_nil]
  rfl

/-- A write in place keeps a valid map. -/
theorem written_spec (h : Valid priorities o.map) {write : α → α}
    (hWritten : Written write pre e post o.map.root root) :
    Valid priorities { o.map with root } ∧ o.toFlat.Writes write pre e post (.value (some e.value))
      (toFlat { o with map := { o.map with root } }) := by
  refine ⟨⟨?_, hWritten.heap h.heap, ?_, h.ranked⟩, hWritten.before, rfl, ?_⟩
  · show Sorted root.toList
    have hSorted : Sorted (pre ++ e :: post) := hWritten.before ▸ h.sorted
    rw [hWritten.after]
    exact hSorted.written rfl
  · show o.map.len = root.size
    rw [h.counted, ← length_toList, ← length_toList, hWritten.before, hWritten.after,
      List.length_append, List.length_append, List.length_cons, List.singleton_append,
      List.length_cons]
  · show (⟨root.toList, _, _⟩ : FlatMap κ α ι) = _
    rw [hWritten.after]
    rfl

/-- **Inserting** places the entry, or refuses it over an unchanged map. -/
theorem insert_spec (h : Valid priorities o.map) (key : κ) (value : α) (entry : ι) :
    ∃ (answer : MapAnswer κ α) (o' : MapOwner κ α ι),
      o.call (.insert key value entry) = some (answer, o') ∧
      o.toFlat.Meets (.insert key value entry) answer o'.toFlat ∧ Valid priorities o'.map := by
  obtain rfl := h.ranked
  have hInsert := @insertNode_spec _ _ _ o.map.priorities _ _ ⟨key, value, entry⟩ h.sorted
  dsimp only at hInsert
  rcases hInsert with ⟨hEq, hPresent⟩ | ⟨root, hEq, hPlaced⟩
  · refine ⟨.inserted false, { o with refused := o.refused ++ [⟨key, value, entry⟩] }, ?_,
      .inl ⟨hPresent, rfl, rfl⟩, h⟩
    simp only [call, LeasedMap.insert, hEq, Option.bind_eq_bind, Option.bind_some, Option.pure_def]
    rfl
  · obtain ⟨pre, post, hOld, hNew, hPre, hPost⟩ := hPlaced.list
    refine ⟨.inserted true, { o with map := { o.map with root, len := o.map.len + 1 } }, ?_,
      .inr ⟨?_, rfl, ?_, rfl, rfl⟩, ?_, hPlaced.heap h.heap, ?_, rfl⟩
    · simp only [call, LeasedMap.insert, hEq, Option.bind_eq_bind, Option.bind_some,
        Option.pure_def, Option.isNone_none, Option.toList_none, List.append_nil]
    · intro e he
      rw [show o.toFlat.entries = pre ++ post from hOld] at he
      rcases List.mem_append.mp he with he | he
      · exact ne_of_lt (hPre e he)
      · exact ne_of_gt (hPost e he)
    · show root.toList.Perm (_ :: o.map.root.toList)
      rw [hNew, hOld]
      exact List.perm_middle
    · show Sorted root.toList
      have hSorted : Sorted (pre ++ post) := hOld ▸ h.sorted
      obtain ⟨hSortedPre, hSortedPost, hCross⟩ := List.pairwise_append.mp hSorted
      rw [hNew]
      refine List.pairwise_append.mpr ⟨hSortedPre, List.pairwise_cons.mpr ⟨hPost, hSortedPost⟩, ?_⟩
      intro a ha b hb
      rcases List.mem_cons.mp hb with rfl | hb
      · exact hPre a ha
      · exact hCross a ha b hb
    · show o.map.len + 1 = root.size
      rw [h.counted, ← length_toList, ← length_toList, hOld, hNew, List.length_append,
        List.length_append, List.length_cons]
      rfl

/-- **One call of the map is a call on the finite map.** -/
theorem call_spec (h : Valid priorities o.map) (c : MapCall κ α ι) :
    ∃ (answer : MapAnswer κ α) (o' : MapOwner κ α ι), o.call c = some (answer, o') ∧
      o.toFlat.Meets c answer o'.toFlat ∧ Valid priorities o'.map := by
  cases c with
  | insert key value entry => exact insert_spec h key value entry
  | removeEntry key =>
    rcases removeNode_spec h.sorted key with ⟨hEq, hNone⟩ | ⟨e, root, pre, post, hEq, hR, hKey⟩
    · refine ⟨.entry none, (o.removed none o.map).2, ?_,
        .inl ⟨hNone, rfl, removed_none o _ rfl⟩, h⟩
      simp only [call, LeasedMap.removeEntry, hEq]
      rfl
    · obtain ⟨map, hMap, hValid, hLeaves⟩ := detached_spec h hR
      refine ⟨_, (o.removed (some e) map).2, ?_, .inr ⟨pre, e, post, hKey, hLeaves⟩, hValid⟩
      simp only [call, LeasedMap.removeEntry, hEq, hMap]
      rfl
  | popFirstEntry =>
    rcases removeFirstNode_spec o.map.root with ⟨hLeaf, hEq⟩ | ⟨e, root, post, hEq, hR⟩
    · refine ⟨.entry none, (o.removed none { o.map with root := .leaf }).2, ?_,
        .inl ⟨congrArg toList hLeaf, rfl, removed_none o _ hLeaf.symm⟩, ?_⟩
      · simp only [call, LeasedMap.popFirstEntry, hEq]
        rfl
      · show Valid priorities { o.map with root := .leaf }
        rw [← hLeaf]
        exact h
    · obtain ⟨map, hMap, hValid, hLeaves⟩ := detached_spec h hR
      refine ⟨_, (o.removed (some e) map).2, ?_, .inr ⟨e, post, hLeaves⟩, hValid⟩
      simp only [call, LeasedMap.popFirstEntry, hEq, Option.bind_eq_bind, Option.bind_some, hMap]
      rfl
  | popFirstWhere predicate =>
    rcases removeFirstWhereNode_spec predicate o.map.root 0 with
      ⟨n, hEq, -, hRejected⟩ | ⟨e, root, pre, post, n, hEq, hR, hPre, hHit⟩
    · refine ⟨.entry none, (o.removed none o.map).2, ?_,
        .inl ⟨hRejected, rfl, removed_none o _ rfl⟩, h⟩
      simp only [call, LeasedMap.popFirstWhere, hEq]
      rfl
    · obtain ⟨map, hMap, hValid, hLeaves⟩ := detached_spec h hR
      rw [Nat.zero_add] at hHit
      refine ⟨_, (o.removed (some e) map).2, ?_, .inr ⟨pre, e, post, hPre, hHit, hLeaves⟩, hValid⟩
      simp only [call, LeasedMap.popFirstWhere, hEq, hMap]
      rfl
  | getMut key write =>
    rcases writeAt_spec h.sorted key write with ⟨hEq, hNone⟩ | ⟨e, pre, post, hW, hKey⟩
    · refine ⟨.value none, o, ?_, .inl ⟨hNone, rfl, rfl⟩, h⟩
      simp only [call, LeasedMap.getMut, LeasedMap.get, hEq, find_eq h.sorted, hNone]
      rfl
    · have hFind : o.map.root.find key = some e := by
        rw [find_eq h.sorted, hW.before]
        exact find?_middle (hW.before ▸ h.sorted) hKey
      obtain ⟨hValid, hWrites⟩ := written_spec h hW
      refine ⟨_, _, ?_, .inr ⟨pre, e, post, hKey, hWrites⟩, hValid⟩
      simp only [call, LeasedMap.getMut, LeasedMap.get, hFind]
      rfl
  | findValueMut predicate write =>
    have hOrder := preorder_perm o.map.root
    rcases findValueMut_spec predicate write o.map.root 0 with
      ⟨n, hEq, -, hRejected⟩ | ⟨e, root, pre, post, seen, rest, n, hEq, hW, hSplit, hSeen, hHit⟩
    · refine ⟨.value none, o, ?_, .inl ⟨_, hOrder, hRejected, rfl, rfl⟩, h⟩
      simp only [call, LeasedMap.findValueMut, hEq]
    · obtain ⟨hValid, hWrites⟩ := written_spec h hW
      rw [Nat.zero_add] at hHit
      refine ⟨_, _, ?_, .inr ⟨pre, e, post, seen, rest, hSplit ▸ hOrder, hSeen, hHit, hWrites⟩,
        hValid⟩
      simp only [call, LeasedMap.findValueMut, hEq]
  | get key =>
    refine ⟨_, o, rfl, ⟨?_, rfl⟩, h⟩
    rw [LeasedMap.get, find_eq h.sorted]
    rfl
  | containsKey key =>
    refine ⟨_, o, rfl, ⟨?_, rfl⟩, h⟩
    rw [LeasedMap.containsKey, find_eq h.sorted]
    rfl
  | lastKeyValue => exact ⟨_, o, rfl, ⟨congrArg _ (lastKeyValue_eq _), rfl⟩, h⟩
  | successorAfter after =>
    refine ⟨_, o, rfl, ⟨?_, rfl⟩, h⟩
    rw [LeasedMap.successorAfter, successorLoop_eq h.sorted, Option.or_none]
    rfl
  | forEach => exact ⟨_, o, rfl, ⟨congrArg _ (forEach_eq _), rfl⟩, h⟩
  | dropRefusal index => exact ⟨_, _, rfl, ⟨rfl, rfl⟩, h⟩

/-- **A run of the map is a run of the finite map.** -/
theorem run_spec (calls : List (MapCall κ α ι)) (h : Valid priorities o.map) :
    ∃ (answers : List (MapAnswer κ α)) (o' : MapOwner κ α ι), o.run calls = some (answers, o') ∧
      FlatMap.Runs o.toFlat calls answers o'.toFlat ∧ Valid priorities o'.map := by
  induction calls generalizing o with
  | nil => exact ⟨[], o, rfl, .nil, h⟩
  | cons c calls ih =>
    obtain ⟨answer, mid, hCall, hMeets, hMid⟩ := call_spec h c
    obtain ⟨answers, last, hRun, hRuns, hLast⟩ := ih hMid
    refine ⟨answer :: answers, last, ?_, .cons hMeets hRuns, hLast⟩
    rw [run, hCall, Option.bind_eq_bind, Option.bind_some]
    dsimp only
    rw [hRun]
    rfl

end MapOwner

/-! ## Every lease is released once -/

def insertedLeases (calls : List (MapCall κ α ι)) : List ι :=
  calls.filterMap fun
    | .insert _ _ entry => some entry
    | _ => none

theorem releasedLeases_flatMap_entry (entries : List (MapEntry κ α ι)) :
    releasedLeases (entries.flatMap MapEntry.drop) = entries.map MapEntry.entry := by
  induction entries with
  | nil => rfl
  | cons e entries ih =>
    rw [List.flatMap_cons, releasedLeases_append, ih, List.map_cons]
    rfl

namespace FlatMap

/-- The leases that are still held, and those released so far. -/
def leases (s : FlatMap κ α ι) : List ι :=
  (s.entries ++ s.refused).map MapEntry.entry ++ releasedLeases s.gone

variable {s s' : FlatMap κ α ι} {pre post : List (MapEntry κ α ι)} {e : MapEntry κ α ι}
  {answer : MapAnswer κ α}

/-- An entry that leaves has its lease released. -/
theorem Leaves.leases_perm (h : s.Leaves pre e post answer s') : s'.leases.Perm s.leases := by
  classical
  obtain ⟨hEntries, -, rfl⟩ := h
  refine List.perm_iff_count.mpr fun lease => ?_
  simp only [leases, hEntries, List.map_append, List.map_cons, List.count_append,
    List.count_cons, releasedLeases_append,
    show releasedLeases [(.released e.entry : Departure (κ × α) ι)] = [e.entry] from rfl,
    List.count_nil]
  omega

/-- An entry that is written keeps its lease. -/
theorem Writes.leases_eq {write : α → α} (h : s.Writes write pre e post answer s') :
    s'.leases = s.leases := by
  obtain ⟨hEntries, -, rfl⟩ := h
  simp only [leases, hEntries, List.map_append, List.map_cons]

variable [LinearOrder κ]

/-- **One call** moves leases from the entries and the refused candidates to the
released ones, and adds the one it is given. -/
theorem Meets.leases_perm {c : MapCall κ α ι} (h : s.Meets c answer s') :
    s'.leases.Perm (insertedLeases [c] ++ s.leases) := by
  classical
  cases c with
  | insert key value entry =>
    refine List.perm_iff_count.mpr fun lease => ?_
    rcases h with ⟨-, -, rfl⟩ | ⟨-, -, hPerm, hRefused, hGone⟩
    · simp only [leases, insertedLeases, List.filterMap_cons, List.filterMap_nil, List.map_append,
        List.map_cons, List.map_nil, List.count_append]
      omega
    · have hCount := (hPerm.map MapEntry.entry).count_eq lease
      rw [List.map_cons, ← List.singleton_append, List.count_append] at hCount
      dsimp only at hCount
      simp only [leases, insertedLeases, List.filterMap_cons, List.filterMap_nil, List.map_append,
        List.count_append, hRefused, hGone]
      omega
  | removeEntry key =>
    rcases h with ⟨-, -, rfl⟩ | ⟨pre, e, post, -, hLeaves⟩
    · exact .refl _
    · exact hLeaves.leases_perm
  | popFirstEntry =>
    rcases h with ⟨-, -, rfl⟩ | ⟨e, post, hLeaves⟩
    · exact .refl _
    · exact hLeaves.leases_perm
  | popFirstWhere predicate =>
    rcases h with ⟨-, -, rfl⟩ | ⟨pre, e, post, -, -, hLeaves⟩
    · exact .refl _
    · exact hLeaves.leases_perm
  | getMut key write =>
    rcases h with ⟨-, -, rfl⟩ | ⟨pre, e, post, -, hWrites⟩
    · exact .refl _
    · exact .of_eq hWrites.leases_eq
  | findValueMut predicate write =>
    rcases h with ⟨order, -, -, -, rfl⟩ | ⟨pre, e, post, seen, rest, -, -, -, hWrites⟩
    · exact .refl _
    · exact .of_eq hWrites.leases_eq
  | dropRefusal index =>
    obtain ⟨-, rfl⟩ := h
    refine List.perm_iff_count.mpr fun lease => ?_
    have hSplit := ((getElem?_append_eraseIdx_perm s.refused index).map
      MapEntry.entry).count_eq lease
    simp only [List.map_append, List.count_append] at hSplit
    simp only [leases, insertedLeases, List.filterMap_cons, List.filterMap_nil, List.map_append,
      List.count_append, releasedLeases_append, releasedLeases_flatMap_entry, List.count_nil]
    omega
  | get _ | containsKey _ | lastKeyValue | successorAfter _ | forEach =>
    obtain ⟨-, rfl⟩ := h
    exact .refl _

/-- **A run** holds or has released each lease it was given. -/
theorem Runs.leases_perm {calls : List (MapCall κ α ι)} {answers : List (MapAnswer κ α)}
    (h : Runs s calls answers s') : s'.leases.Perm (insertedLeases calls ++ s.leases) := by
  induction h with
  | nil => exact .refl _
  | @cons s mid last c calls answer answers hMeets _ ih =>
    have hFirst : insertedLeases (c :: calls) = insertedLeases [c] ++ insertedLeases calls :=
      List.filterMap_append (l := [c]) ..
    rw [hFirst]
    refine ih.trans ((hMeets.leases_perm.append_left _).trans ?_)
    rw [← List.append_assoc]
    exact List.perm_append_comm.append_right _

end FlatMap

/-- **The leased map is a finite map.** For every key order, every priority function
and every sequence of calls on a new map, no call panics, the answers are those of
the finite map of the entries in key order, the tree stays a search tree by key and
a heap by the priorities of the keys, and the count is its size. Each lease given to
the map is held by one entry or one refused candidate, or was released, and counts
once among these; dropping the map visits the entries in key order, and after that
and the drop of the refused candidates each lease has been released once. -/
theorem leased_map_is_finite_map [LinearOrder κ] (priorities : κ → Nat)
    (calls : List (MapCall κ α ι)) :
    ∃ (answers : List (MapAnswer κ α)) (o : MapOwner κ α ι),
      (MapOwner.new priorities).run calls = some (answers, o) ∧
      FlatMap.Runs ⟨[], [], []⟩ calls answers o.toFlat ∧
      Sorted o.map.root.toList ∧ o.map.root.Heap priorities ∧ o.map.len = o.map.root.size ∧
      o.toFlat.leases.Perm (insertedLeases calls) ∧
      o.map.drop = o.map.root.toList.flatMap MapEntry.drop ∧
      (releasedLeases (o.gone ++ o.map.drop ++ o.refused.flatMap MapEntry.drop)).Perm
        (insertedLeases calls) := by
  have hNew : MapOwner.Valid priorities (MapOwner.new priorities : MapOwner κ α ι).map :=
    ⟨List.Pairwise.nil, trivial, rfl, rfl⟩
  obtain ⟨answers, o, hRun, hRuns, hValid⟩ := MapOwner.run_spec calls hNew
  have hLeases : o.toFlat.leases.Perm (insertedLeases calls) := by
    have hAll := hRuns.leases_perm
    rwa [show (MapOwner.new priorities : MapOwner κ α ι).toFlat.leases = [] from rfl,
      List.append_nil] at hAll
  have hDrop : o.map.drop = o.map.root.toList.flatMap MapEntry.drop := by
    rw [LeasedMap.drop, dropLoop_eq]
  refine ⟨answers, o, hRun, hRuns, hValid.sorted, hValid.heap, hValid.counted, hLeases, hDrop, ?_⟩
  refine List.Perm.trans ?_ hLeases
  rw [hDrop, releasedLeases_append, releasedLeases_append, releasedLeases_flatMap_entry,
    releasedLeases_flatMap_entry, FlatMap.leases, List.map_append, List.append_assoc]
  exact List.perm_append_comm

end MyOwnMesh.Resource
