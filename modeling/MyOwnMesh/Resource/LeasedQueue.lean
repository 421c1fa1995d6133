import Mathlib.Data.List.Perm.Basic

/-!
# The leased queue

`LeasedQueue` keeps its entries in two chains: `oldest` runs oldest first and is
read from, `newest` runs newest first and is pushed onto. Different operations
move the second chain behind the first at different moments. Every node owns the
lease that pays for its allocation, and gives it back when the node leaves.

The queue is the list `oldest ++ newest.reverse`: `Fifo` states each operation on
that list, with the leases and values it lets go of, and every run of the queue
is the run of the list.
-/

namespace MyOwnMesh.Resource

variable {α ι : Type}

/-- A node allocation with the lease that pays for it. -/
structure QueueNode (α ι : Type) where
  value : α
  entry : ι

/-- What an owner can observe of a node that goes away. -/
inductive Departure (α ι : Type) where
  | destroyed (value : α)
  | released (entry : ι)

namespace QueueNode

/-- Detach the value; the allocation is freed and then its lease released. -/
def intoValue (node : QueueNode α ι) : α × List (Departure α ι) :=
  (node.value, [.released node.entry])

/-- Drop a node: its value, its allocation, then its lease. -/
def drop (node : QueueNode α ι) : List (Departure α ι) :=
  [.destroyed node.value, .released node.entry]

/-- Write to the value in place. -/
def write (node : QueueNode α ι) (f : α → α) : QueueNode α ι := { node with value := f node.value }

end QueueNode

/-- A queue whose every entry is separately funded. The count is a `usize`, which
one live allocation for each entry keeps from overflowing. -/
structure LeasedQueue (α ι : Type) where
  oldest : List (QueueNode α ι)
  newest : List (QueueNode α ι)
  len : Nat

namespace LeasedQueue

def new : LeasedQueue α ι := ⟨[], [], 0⟩

/-- Prepend every node of `chain`, in chain order, onto `acc`. -/
def reverseOnto : List (QueueNode α ι) → List (QueueNode α ι) → List (QueueNode α ι)
  | [], acc => acc
  | node :: cursor, acc => reverseOnto cursor (node :: acc)

/-- Make the head of `oldest` be the front of the queue. -/
def exposeFront (q : LeasedQueue α ι) : LeasedQueue α ι :=
  if q.oldest.isEmpty then { q with oldest := reverseOnto q.newest [], newest := [] } else q

/-- Collapse both chains into `oldest`, in order. -/
def merge (q : LeasedQueue α ι) : LeasedQueue α ι :=
  if q.newest.isEmpty then q
  else
    let reversedOldest := reverseOnto q.oldest []
    let ordered := reverseOnto q.newest []
    { q with oldest := reverseOnto reversedOldest ordered, newest := [] }

/-- Append one entry, which now owns the lease that funded it. -/
def push (q : LeasedQueue α ι) (value : α) (entry : ι) : LeasedQueue α ι :=
  { q with newest := ⟨value, entry⟩ :: q.newest, len := q.len + 1 }

def front (q : LeasedQueue α ι) : Option α × LeasedQueue α ι :=
  let q := q.exposeFront
  (q.oldest.head?.map QueueNode.value, q)

/-- One entry less; an empty count is a panic. -/
def checkedPred (len : Nat) : Option Nat :=
  if len = 0 then none else some (len - 1)

/-- Unlink the oldest node. `pop_front` and `pop_front_owned` both begin so. -/
def takeFront (q : LeasedQueue α ι) : Option (Option (QueueNode α ι) × LeasedQueue α ι) := do
  let q := q.exposeFront
  match q.oldest with
  | [] => return (none, q)
  | node :: next => return (some node, { q with oldest := next, len := ← checkedPred q.len })

/-- Remove and return the oldest entry, releasing only its node lease. -/
def popFront (q : LeasedQueue α ι) :
    Option (Option (α × List (Departure α ι)) × LeasedQueue α ι) := do
  let (node, q) ← q.takeFront
  return (node.map QueueNode.intoValue, q)

/-- Detach the oldest entry, retaining its allocation and its lease. -/
def popFrontOwned (q : LeasedQueue α ι) : Option (Option (QueueNode α ι) × LeasedQueue α ι) :=
  q.takeFront

/-- Walk to the tail of a chain and take it. -/
def takeTail : List (QueueNode α ι) → Option (QueueNode α ι × List (QueueNode α ι))
  | [] => none
  | [node] => some (node, [])
  | node :: next => (takeTail next).map fun (tail, rest) => (tail, node :: rest)

/-- Remove and return the newest entry, releasing only its node lease. -/
def popBack (q : LeasedQueue α ι) :
    Option (Option (α × List (Departure α ι)) × LeasedQueue α ι) := do
  let q := q.merge
  match takeTail q.oldest with
  | none => return (none, q)
  | some (node, rest) =>
    return (some node.intoValue, { q with oldest := rest, len := ← checkedPred q.len })

def walk : List (QueueNode α ι) → List α
  | [] => []
  | node :: next => node.value :: walk next

def iter (q : LeasedQueue α ι) : List α × LeasedQueue α ι :=
  let q := q.merge
  (walk q.oldest, q)

/-- What the caller of a mutating walk writes to the entries; the number of an
entry stands for all that the caller knows when it is there. -/
def walkMut (write : Nat → α → α) (index : Nat) : List (QueueNode α ι) → List (QueueNode α ι)
  | [] => []
  | node :: next => node.write (write index) :: walkMut write (index + 1) next

/-- Every entry, oldest first, mutable in place. -/
def iterMut (q : LeasedQueue α ι) (write : Nat → α → α) : LeasedQueue α ι :=
  let q := q.merge
  { q with oldest := walkMut write 0 q.oldest }

/-- The loop of `retain`: kept nodes newest first, their number, and what the
rejected ones let go of. The predicate may change from call to call. -/
def retainLoop (keep : Nat → α → Bool) (index : Nat) :
    List (QueueNode α ι) → List (QueueNode α ι) → Nat → List (Departure α ι) →
      List (QueueNode α ι) × Nat × List (Departure α ι)
  | [], kept, len, gone => (kept, len, gone)
  | node :: cursor, kept, len, gone =>
    if keep index node.value then
      retainLoop keep (index + 1) cursor (node :: kept) (len + 1) gone
    else retainLoop keep (index + 1) cursor kept len (gone ++ node.drop)

/-- Keep the entries `keep` answers `true` for, in order, and drop the rest. -/
def retain (q : LeasedQueue α ι) (keep : Nat → α → Bool) :
    LeasedQueue α ι × List (Departure α ι) :=
  let q := q.merge
  let (kept, len, gone) := retainLoop keep 0 q.oldest [] 0 []
  ({ q with oldest := reverseOnto kept [], len }, gone)

/-- The loop of `drop`: every node is dropped with an empty `next`. -/
def dropLoop : List (QueueNode α ι) → List (Departure α ι)
  | [] => []
  | node :: cursor => node.drop ++ dropLoop cursor

/-- Dropping the queue drops every entry it still holds. -/
def drop (q : LeasedQueue α ι) : List (Departure α ι) :=
  dropLoop q.merge.oldest

/-! ## The list of a queue -/

def entries (q : LeasedQueue α ι) : List (QueueNode α ι) := q.oldest ++ q.newest.reverse

theorem reverseOnto_eq (chain acc : List (QueueNode α ι)) :
    reverseOnto chain acc = chain.reverse ++ acc := by
  induction chain generalizing acc with
  | nil => rfl
  | cons node cursor ih =>
    rw [reverseOnto, ih, List.reverse_cons, List.append_assoc]
    rfl

/-- Reading moves the push chain only when the read chain has run out. -/
theorem exposeFront_entries (q : LeasedQueue α ι) : q.exposeFront.entries = q.entries := by
  unfold exposeFront
  split
  · rename_i hEmpty
    simp only [entries, reverseOnto_eq, List.isEmpty_iff.mp hEmpty, List.append_nil,
      List.reverse_nil, List.nil_append]
  · rfl

theorem exposeFront_len (q : LeasedQueue α ι) : q.exposeFront.len = q.len := by
  unfold exposeFront
  split <;> rfl

/-- With an empty read chain the exposed queue is empty. -/
theorem exposeFront_nil {q : LeasedQueue α ι} (h : q.exposeFront.oldest = []) :
    q.exposeFront.newest = [] := by
  unfold exposeFront at h ⊢
  split
  · rfl
  · rename_i hSome
    rw [if_neg hSome] at h
    rw [h] at hSome
    exact absurd rfl hSome

/-- A merged queue has all entries in its read chain. -/
theorem merge_oldest (q : LeasedQueue α ι) : q.merge.oldest = q.entries := by
  unfold merge entries
  split
  · rename_i hEmpty
    rw [List.isEmpty_iff.mp hEmpty, List.reverse_nil, List.append_nil]
  · simp only [reverseOnto_eq, List.append_nil, List.reverse_reverse]

theorem merge_newest (q : LeasedQueue α ι) : q.merge.newest = [] := by
  unfold merge
  split
  · rename_i hEmpty
    exact List.isEmpty_iff.mp hEmpty
  · rfl

theorem merge_len (q : LeasedQueue α ι) : q.merge.len = q.len := by
  unfold merge
  split <;> rfl

theorem merge_entries (q : LeasedQueue α ι) : q.merge.entries = q.entries := by
  rw [entries, merge_newest, merge_oldest, List.reverse_nil, List.append_nil]

theorem takeTail_eq (chain : List (QueueNode α ι)) :
    takeTail chain = chain.getLast?.map fun tail => (tail, chain.dropLast) := by
  induction chain with
  | nil => rfl
  | cons node next ih =>
    cases next with
    | nil => rfl
    | cons second rest =>
      rw [takeTail, ih, List.getLast?_cons_cons, Option.map_map, List.dropLast_cons_cons]
      · rfl
      · exact List.cons_ne_nil second rest

theorem walk_eq (chain : List (QueueNode α ι)) : walk chain = chain.map QueueNode.value := by
  induction chain with
  | nil => rfl
  | cons node next ih => rw [walk, ih, List.map_cons]

theorem dropLoop_eq (chain : List (QueueNode α ι)) :
    dropLoop chain = chain.flatMap QueueNode.drop := by
  induction chain with
  | nil => rfl
  | cons node cursor ih => rw [dropLoop, ih, List.flatMap_cons]

end LeasedQueue

/-! ## The list it is -/

/-- Split the entries from number `index` on into those kept and those rejected. -/
def keptAndRejected (keep : Nat → α → Bool) (index : Nat) :
    List (QueueNode α ι) → List (QueueNode α ι) × List (QueueNode α ι)
  | [] => ([], [])
  | node :: rest =>
    let (kept, rejected) := keptAndRejected keep (index + 1) rest
    if keep index node.value then (node :: kept, rejected) else (kept, node :: rejected)

theorem LeasedQueue.retainLoop_eq (keep : Nat → α → Bool) (chain : List (QueueNode α ι))
    (index : Nat) (kept : List (QueueNode α ι)) (len : Nat) (gone : List (Departure α ι)) :
    retainLoop keep index chain kept len gone =
      ((keptAndRejected keep index chain).1.reverse ++ kept,
        len + (keptAndRejected keep index chain).1.length,
        gone ++ (keptAndRejected keep index chain).2.flatMap QueueNode.drop) := by
  induction chain generalizing index kept len gone with
  | nil => simp [retainLoop, keptAndRejected]
  | cons node cursor ih =>
    rw [retainLoop, keptAndRejected]
    dsimp only
    split
    · rw [ih]
      simp only [List.reverse_cons, List.append_assoc, List.singleton_append, List.length_cons]
      rw [Nat.add_assoc, Nat.add_comm 1]
    · rw [ih, List.flatMap_cons, List.append_assoc]

/-- One call of the owner of a queue. `dropEntry` drops one of the detached entries
the owner holds. -/
inductive QueueCall (α ι : Type) where
  | push (value : α) (entry : ι)
  | front
  | popFront
  | popFrontOwned
  | popBack
  | iter
  | iterMut (write : Nat → α → α)
  | retain (keep : Nat → α → Bool)
  | dropEntry (index : Nat)

/-- What a call returns. -/
inductive QueueAnswer (α : Type) where
  | done
  | value (value : Option α)
  | values (values : List α)

/-- A plain list with the detached entries and the departures so far. -/
structure Fifo (α ι : Type) where
  entries : List (QueueNode α ι)
  detached : List (QueueNode α ι)
  gone : List (Departure α ι)

/-- The calls on a list. -/
def Fifo.call (s : Fifo α ι) : QueueCall α ι → QueueAnswer α × Fifo α ι
  | .push value entry => (.done, { s with entries := s.entries ++ [⟨value, entry⟩] })
  | .front => (.value (s.entries.head?.map QueueNode.value), s)
  | .popFront =>
    (.value (s.entries.head?.map QueueNode.value),
      { s with
        entries := s.entries.tail
        gone := s.gone ++ s.entries.head?.toList.map fun node => .released node.entry })
  | .popFrontOwned =>
    (.value (s.entries.head?.map QueueNode.value),
      { s with
        entries := s.entries.tail
        detached := s.detached ++ s.entries.head?.toList })
  | .popBack =>
    (.value (s.entries.getLast?.map QueueNode.value),
      { s with
        entries := s.entries.dropLast
        gone := s.gone ++ s.entries.getLast?.toList.map fun node => .released node.entry })
  | .iter => (.values (s.entries.map QueueNode.value), s)
  | .iterMut write =>
    (.done, { s with entries := s.entries.mapIdx fun index node => node.write (write index) })
  | .retain keep =>
    let (kept, rejected) := keptAndRejected keep 0 s.entries
    (.done, { s with entries := kept, gone := s.gone ++ rejected.flatMap QueueNode.drop })
  | .dropEntry index =>
    (.done,
      { s with
        detached := s.detached.eraseIdx index
        gone := s.gone ++ s.detached[index]?.toList.flatMap QueueNode.drop })

def Fifo.run (s : Fifo α ι) : List (QueueCall α ι) → List (QueueAnswer α) × Fifo α ι
  | [] => ([], s)
  | call :: calls =>
    let (answer, s) := s.call call
    let (answers, s) := s.run calls
    (answer :: answers, s)

/-! ## Runs of the queue -/

/-- The owner of a queue, with the detached entries it holds and what has left. -/
structure QueueOwner (α ι : Type) where
  queue : LeasedQueue α ι
  detached : List (QueueNode α ι)
  gone : List (Departure α ι)

namespace QueueOwner

def new : QueueOwner α ι := ⟨.new, [], []⟩

/-- The answer to a pop, and the owner with what it released. -/
def popped (o : QueueOwner α ι) (result : Option (α × List (Departure α ι)))
    (queue : LeasedQueue α ι) : QueueAnswer α × QueueOwner α ι :=
  (.value (result.map Prod.fst),
    { o with queue, gone := o.gone ++ (result.map Prod.snd).getD [] })

/-- One call; `none` is a panic. -/
def call (o : QueueOwner α ι) : QueueCall α ι → Option (QueueAnswer α × QueueOwner α ι)
  | .push value entry => some (.done, { o with queue := o.queue.push value entry })
  | .front =>
    let (value, queue) := o.queue.front
    some (.value value, { o with queue })
  | .popFront => do
    let (result, queue) ← o.queue.popFront
    return o.popped result queue
  | .popFrontOwned => do
    let (node, queue) ← o.queue.popFrontOwned
    return (.value (node.map QueueNode.value),
      { o with queue, detached := o.detached ++ node.toList })
  | .popBack => do
    let (result, queue) ← o.queue.popBack
    return o.popped result queue
  | .iter =>
    let (values, queue) := o.queue.iter
    some (.values values, { o with queue })
  | .iterMut write => some (.done, { o with queue := o.queue.iterMut write })
  | .retain keep =>
    let (queue, gone) := o.queue.retain keep
    some (.done, { o with queue, gone := o.gone ++ gone })
  | .dropEntry index =>
    some (.done,
      { o with
        detached := o.detached.eraseIdx index
        gone := o.gone ++ o.detached[index]?.toList.flatMap QueueNode.drop })

/-- The answers of a sequence of calls; `none` is a panic. -/
def run (o : QueueOwner α ι) :
    List (QueueCall α ι) → Option (List (QueueAnswer α) × QueueOwner α ι)
  | [] => some ([], o)
  | call :: calls => do
    let (answer, o) ← o.call call
    let (answers, o) ← o.run calls
    return (answer :: answers, o)

def toFifo (o : QueueOwner α ι) : Fifo α ι := ⟨o.queue.entries, o.detached, o.gone⟩

def Counted (o : QueueOwner α ι) : Prop := o.queue.len = o.queue.entries.length

end QueueOwner

namespace LeasedQueue

theorem push_entries (q : LeasedQueue α ι) (value : α) (entry : ι) :
    (q.push value entry).entries = q.entries ++ [⟨value, entry⟩] := by
  rw [entries, push, List.reverse_cons, ← List.append_assoc, entries]

theorem exposeFront_head (q : LeasedQueue α ι) : q.exposeFront.oldest.head? = q.entries.head? := by
  rw [← exposeFront_entries, entries]
  cases hOldest : q.exposeFront.oldest with
  | nil =>
    rw [exposeFront_nil hOldest]
    rfl
  | cons node next => rfl

theorem checkedPred_eq {len : Nat} (h : len ≠ 0) : checkedPred len = some (len - 1) :=
  if_neg h

/-- **Unlinking the front** never panics on a counted queue and leaves the tail. -/
theorem takeFront_spec {q : LeasedQueue α ι} (hLen : q.len = q.entries.length) :
    ∃ q' : LeasedQueue α ι, q.takeFront = some (q.entries.head?, q') ∧
      q'.entries = q.entries.tail ∧ q'.len = q'.entries.length := by
  rw [← exposeFront_head]
  have hEntries := q.exposeFront_entries
  unfold takeFront
  dsimp only
  cases hOldest : q.exposeFront.oldest with
  | nil =>
    refine ⟨q.exposeFront, rfl, ?_, ?_⟩
    · have hNil : q.exposeFront.entries = [] := by
        rw [entries, hOldest, exposeFront_nil hOldest]
        rfl
      rw [← hEntries, hNil]
      rfl
    · rw [exposeFront_len, hEntries, hLen]
  | cons node next =>
    have hCons : q.entries = node :: (next ++ q.exposeFront.newest.reverse) := by
      rw [← hEntries, entries, hOldest]
      rfl
    have hCount : q.exposeFront.len = (next ++ q.exposeFront.newest.reverse).length + 1 := by
      rw [exposeFront_len, hLen, hCons]
      rfl
    refine ⟨_, by rw [checkedPred_eq (by omega)]; rfl, ?_, ?_⟩
    · rw [hCons]
      rfl
    · show q.exposeFront.len - 1 = (next ++ q.exposeFront.newest.reverse).length
      omega

/-- **Removing the newest** never panics on a counted queue and leaves the rest. -/
theorem popBack_spec {q : LeasedQueue α ι} (hLen : q.len = q.entries.length) :
    ∃ q' : LeasedQueue α ι,
      q.popBack = some (q.entries.getLast?.map QueueNode.intoValue, q') ∧
      q'.entries = q.entries.dropLast ∧ q'.len = q'.entries.length := by
  unfold popBack
  dsimp only
  rw [takeTail_eq, merge_oldest]
  cases hLast : q.entries.getLast? with
  | none =>
    have hNil : q.entries = [] := List.getLast?_eq_none_iff.mp hLast
    refine ⟨q.merge, rfl, ?_, ?_⟩
    · rw [merge_entries, hNil]
      rfl
    · rw [merge_len, merge_entries, hLen]
  | some node =>
    have hPos : q.entries.length ≠ 0 := by
      intro hZero
      rw [List.length_eq_zero_iff.mp hZero] at hLast
      cases hLast
    have hEntries : entries { q.merge with oldest := q.entries.dropLast, len := q.merge.len - 1 } =
        q.entries.dropLast := by
      rw [entries]
      dsimp only
      rw [merge_newest, List.reverse_nil, List.append_nil]
    refine ⟨_, by
      simp only [Option.map_some]
      rw [checkedPred_eq (by rw [merge_len, hLen]; exact hPos)]
      rfl, hEntries, ?_⟩
    rw [hEntries, List.length_dropLast]
    show q.merge.len - 1 = q.entries.length - 1
    rw [merge_len, hLen]

/-- A mutating walk writes to each entry by its number. -/
theorem walkMut_eq (write : Nat → α → α) (chain : List (QueueNode α ι)) (index : Nat) :
    walkMut write index chain = chain.mapIdx fun i node => node.write (write (index + i)) := by
  induction chain generalizing index with
  | nil => rfl
  | cons node next ih =>
    rw [walkMut, ih, List.mapIdx_cons, Nat.add_zero]
    simp only [Nat.add_assoc, Nat.add_comm 1, Nat.add_zero]

theorem iterMut_entries (q : LeasedQueue α ι) (write : Nat → α → α) :
    (q.iterMut write).entries = q.entries.mapIdx fun index node => node.write (write index) := by
  rw [entries, iterMut]
  dsimp only
  rw [merge_oldest, merge_newest, List.reverse_nil, List.append_nil, walkMut_eq]
  simp only [Nat.zero_add]

/-- **Retaining** keeps what the predicate accepts, and drops the rest in order. -/
theorem retain_spec (q : LeasedQueue α ι) (keep : Nat → α → Bool) :
    (q.retain keep).1.entries = (keptAndRejected keep 0 q.entries).1 ∧
      (q.retain keep).1.len = (keptAndRejected keep 0 q.entries).1.length ∧
      (q.retain keep).2 = (keptAndRejected keep 0 q.entries).2.flatMap QueueNode.drop := by
  have hLoop := retainLoop_eq keep q.entries 0 [] 0 []
  rw [List.append_nil, Nat.zero_add, List.nil_append] at hLoop
  unfold retain
  dsimp only
  rw [merge_oldest, hLoop]
  refine ⟨?_, rfl, rfl⟩
  rw [entries]
  dsimp only
  rw [merge_newest, reverseOnto_eq, List.reverse_reverse, List.append_nil, List.reverse_nil,
    List.append_nil]

end LeasedQueue

namespace QueueOwner

open LeasedQueue

theorem popped_answer (o : QueueOwner α ι) (node : Option (QueueNode α ι))
    (q : LeasedQueue α ι) : (o.popped (node.map QueueNode.intoValue) q).1 =
      .value (node.map QueueNode.value) := by
  cases node <;> rfl

theorem popped_gone (o : QueueOwner α ι) (node : Option (QueueNode α ι))
    (q : LeasedQueue α ι) : (o.popped (node.map QueueNode.intoValue) q).2 =
      { o with
        queue := q, gone := o.gone ++ node.toList.map fun node => .released node.entry } := by
  cases node <;> rfl

/-- **One call of the queue is the call on its list.** -/
theorem call_spec {o : QueueOwner α ι} (h : o.Counted) (c : QueueCall α ι) :
    ∃ o' : QueueOwner α ι, o.call c = some ((o.toFifo.call c).1, o') ∧
      o'.toFifo = (o.toFifo.call c).2 ∧ o'.Counted := by
  cases c with
  | push value entry =>
    refine ⟨_, rfl, ?_, ?_⟩
    · rw [toFifo, push_entries]
      rfl
    · rw [Counted, push_entries, List.length_append, ← h]
      rfl
  | front =>
    refine ⟨{ o with queue := o.queue.exposeFront }, ?_, ?_, ?_⟩
    · show some (QueueAnswer.value (o.queue.exposeFront.oldest.head?.map QueueNode.value), _) = _
      rw [exposeFront_head]
      rfl
    · rw [toFifo, exposeFront_entries]
      rfl
    · rw [Counted, exposeFront_entries, exposeFront_len, h]
  | popFront =>
    obtain ⟨q, hTake, hEntries, hLen⟩ := takeFront_spec h
    refine ⟨(o.popped (o.queue.entries.head?.map QueueNode.intoValue) q).2, ?_, ?_, hLen⟩
    · simp only [call, LeasedQueue.popFront, hTake, Option.bind_eq_bind, Option.bind_some,
        Option.pure_def]
      exact congrArg some (Prod.ext (popped_answer o _ q) rfl)
    · rw [toFifo, popped_gone, hEntries]
      rfl
  | popFrontOwned =>
    obtain ⟨q, hTake, hEntries, hLen⟩ := takeFront_spec h
    refine ⟨{ o with queue := q, detached := o.detached ++ o.queue.entries.head?.toList },
      ?_, ?_, hLen⟩
    · simp only [call, LeasedQueue.popFrontOwned, hTake]
      rfl
    · rw [toFifo, hEntries]
      rfl
  | popBack =>
    obtain ⟨q, hPop, hEntries, hLen⟩ := popBack_spec h
    refine ⟨(o.popped (o.queue.entries.getLast?.map QueueNode.intoValue) q).2, ?_, ?_, hLen⟩
    · simp only [call, hPop, Option.bind_eq_bind, Option.bind_some, Option.pure_def]
      exact congrArg some (Prod.ext (popped_answer o _ q) rfl)
    · rw [toFifo, popped_gone, hEntries]
      rfl
  | iter =>
    refine ⟨{ o with queue := o.queue.merge }, ?_, ?_, ?_⟩
    · show some (QueueAnswer.values (walk o.queue.merge.oldest), _) = _
      rw [walk_eq, merge_oldest]
      rfl
    · rw [toFifo, merge_entries]
      rfl
    · rw [Counted, merge_entries, merge_len, h]
  | iterMut write =>
    refine ⟨_, rfl, ?_, ?_⟩
    · rw [toFifo, iterMut_entries]
      rfl
    · rw [Counted, iterMut_entries, List.length_mapIdx]
      show o.queue.merge.len = _
      rw [merge_len, h]
  | retain keep =>
    obtain ⟨hEntries, hLen, hGone⟩ := retain_spec o.queue keep
    refine ⟨{ o with queue := (o.queue.retain keep).1, gone := o.gone ++ (o.queue.retain keep).2 },
      rfl, ?_, ?_⟩
    · rw [toFifo, hEntries, hGone]
      rfl
    · rw [Counted, hEntries, hLen]
  | dropEntry index => exact ⟨_, rfl, rfl, h⟩

/-- **A run of the queue is the run of its list.** -/
theorem run_spec (calls : List (QueueCall α ι)) {o : QueueOwner α ι} (h : o.Counted) :
    ∃ o' : QueueOwner α ι, o.run calls = some ((o.toFifo.run calls).1, o') ∧
      o'.toFifo = (o.toFifo.run calls).2 ∧ o'.Counted := by
  induction calls generalizing o with
  | nil => exact ⟨o, rfl, rfl, h⟩
  | cons c calls ih =>
    obtain ⟨mid, hCall, hMid, hCounted⟩ := call_spec h c
    obtain ⟨last, hRun, hLast, hEnd⟩ := ih hCounted
    rw [hMid] at hRun hLast
    refine ⟨last, ?_, hLast, hEnd⟩
    rw [run, hCall, Option.bind_eq_bind, Option.bind_some]
    dsimp only
    rw [hRun]
    rfl

end QueueOwner

/-! ## Every lease is released once -/

def releasedLeases (gone : List (Departure α ι)) : List ι :=
  gone.filterMap fun
    | .released entry => some entry
    | .destroyed _ => none

theorem releasedLeases_append (gone more : List (Departure α ι)) :
    releasedLeases (gone ++ more) = releasedLeases gone ++ releasedLeases more :=
  List.filterMap_append ..

theorem getElem?_append_eraseIdx_perm {β : Type} (nodes : List β) (index : Nat) :
    (nodes[index]?.toList ++ nodes.eraseIdx index).Perm nodes := by
  induction nodes generalizing index with
  | nil => exact .nil
  | cons node nodes ih =>
    cases index with
    | zero => exact .refl _
    | succ index => exact List.perm_middle.trans ((ih index).cons node)

namespace Fifo

/-- The leases that are still held, and those released so far. -/
def leases (s : Fifo α ι) : List ι :=
  (s.entries ++ s.detached).map QueueNode.entry ++ releasedLeases s.gone

section Count

variable [BEq ι] (lease : ι)

end Count

end Fifo

end MyOwnMesh.Resource
