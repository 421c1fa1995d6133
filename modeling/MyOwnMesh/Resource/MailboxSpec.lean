import MyOwnMesh.Resource.Mailbox
import Mathlib.Data.List.Nodup
import Mathlib.Data.List.Perm.Subperm

/-!
# What the mailbox keeps

Entries are delivered in the order of their acceptance and each at most once, and the
receiver's drop releases the leases of every entry it did not deliver; both hold in
every run. That `recv` reports the end only over a drained mailbox does not: an entry
accepted and a closure stored between its look at the queue and its look at `closed`
leave the entry queued (`recv_none_leaves_an_entry`). It does in the runs in which no
closure falls into that window over a nonempty queue (`closed_mailbox_loses_nothing`).
-/

namespace MyOwnMesh.Resource.Mailbox

open scoped List

variable {T : Type}

def accepted (replies : List (Reply T)) : List (QueueNode T) :=
  replies.filterMap Reply.accepted?

def delivered (replies : List (Reply T)) : List (MailboxEntry T) :=
  replies.filterMap Reply.delivered?

/-- The funded nodes the calls in progress carry. -/
def carried (calls : List (Call T)) : List (QueueNode T) :=
  calls.filterMap fun c => c.phase.node?

section Carried

@[simp] theorem carried_append (l r : List (Call T)) : carried (l ++ r) = carried l ++ carried r :=
  List.filterMap_append

theorem carried_cons (c : Call T) (calls : List (Call T)) :
    carried (c :: calls) = c.phase.node?.toList ++ carried calls := by
  unfold carried
  cases hNode : c.phase.node? <;> simp [hNode]

variable {calls : List (Call T)} {call : Nat} {c : Call T}

theorem carried_split (hCall : calls[call]? = some c) :
    carried calls ~ c.phase.node?.toList ++ carried (calls.eraseIdx call) := by
  obtain ⟨hLt, hGet⟩ := List.getElem?_eq_some_iff.mp hCall
  rw [← carried_cons, ← hGet]
  exact (List.getElem_cons_eraseIdx_perm hLt).symm.filterMap _

theorem carried_set (hCall : calls[call]? = some c) (c' : Call T) :
    carried (calls.set call c') ~ c'.phase.node?.toList ++ carried (calls.eraseIdx call) := by
  obtain ⟨hLt, -⟩ := List.getElem?_eq_some_iff.mp hCall
  rw [← carried_cons]
  exact (List.set_perm_cons_eraseIdx hLt c').filterMap _

/-- A call that moves on with its node changes nothing that is carried. -/
theorem carried_moved (hCall : calls[call]? = some c) {c' : Call T}
    (hNode : c'.phase.node? = c.phase.node?) : carried (calls.set call c') ~ carried calls :=
  (carried_set hCall c').trans (hNode ▸ (carried_split hCall).symm)

/-- A call that starts carries nothing yet. -/
theorem carried_started (handle : Nat) {phase : Phase T} (hNode : phase.node? = none) :
    carried (calls ++ [⟨handle, phase⟩]) = carried calls := by
  rw [carried_append, carried_cons, hNode]
  simp [carried]

theorem carried_finished : (carried (calls.eraseIdx call)).Subperm (carried calls) :=
  ((List.eraseIdx_sublist calls call).filterMap _).subperm

end Carried

/-! ## What a step can do -/

/-- The step stores `closed`: the lock section of `close`. -/
def closes (s : MailboxInner T) : Action T → Bool
  | .advance call => (s.calls[call]?).any fun c => match c.phase with
      | .closeLock => true
      | _ => false
  | _ => false

/-- No lease comes to life, and no later lease has the number of an earlier one. -/
structure LeasesKept (s t : MailboxInner T) : Prop where
  sub : ∀ lease ∈ t.leases, lease ∈ s.leases
  next : s.nextLease ≤ t.nextLease

/-- What one step does to the queue, to `closed`, to the receiver and to the leases. -/
inductive Effect (s : MailboxInner T) (a : Action T) : MailboxInner T → Reply T → Prop
  /-- A call starts, moves or ends and touches neither the queue nor `closed`. -/
  | call {t : MailboxInner T} {r : Reply T} (hQueue : t.queue = s.queue)
      (hClosed : t.closed = s.closed) (hReceiver : t.receiver = s.receiver)
      (hCarried : (carried t.calls).Subperm (carried s.calls)) (hLeases : LeasesKept s t)
      (hAccepted : r.accepted? = none) (hDelivered : r.delivered? = none)
      (hNone : r ≠ .received none) : Effect s a t r
  | funded {calls : List (Call T)} (node : QueueNode T)
      (hRetention : node.entry.retention = s.nextLease) (hLease : node.lease = s.nextLease + 1)
      (hCarried : carried calls ~ node :: carried s.calls) :
      Effect s a { s with
          calls
          leases := (s.nextLease + 1) :: s.nextLease :: s.leases
          nextLease := s.nextLease + 2 } .silent
  | accepted {calls : List (Call T)} (node : QueueNode T) (hOpen : s.closed = false)
      (hCarried : carried s.calls ~ node :: carried calls) :
      Effect s a { s with calls, queue := s.queue ++ [node] } (.accepted node)
  | closed {calls : List (Call T)} (hCloses : closes s a = true)
      (hCarried : carried s.calls ~ carried calls) :
      Effect s a { s with calls, closed := true } .silent
  | delivered {r : Reply T} (node : QueueNode T) (rest : List (QueueNode T))
      (hQueue : s.queue = node :: rest) (hReceiver : s.receiver ≠ .dropped)
      (hAccepted : r.accepted? = none) (hDelivered : r.delivered? = some node.entry) :
      Effect s a { s.release [node.lease] with queue := rest, receiver := .idle } r
  /-- The receiver moves, and stands at `empty` only over an empty queue. -/
  | receiver {r : Reply T} (next : Receiver) (hLive : s.receiver ≠ .dropped)
      (hNext : next ≠ .dropped) (hEmpty : next = .empty → s.queue = [])
      (hAccepted : r.accepted? = none) (hDelivered : r.delivered? = none)
      (hNone : r = .received none → s.receiver = .empty ∧ s.closed = true) :
      Effect s a { s with receiver := next } r
  | dropped (hLive : s.receiver ≠ .dropped) : Effect s a s.dropReceiver .silent

section Effects

variable {s t : MailboxInner T} {a : Action T} {r : Reply T}

theorem LeasesKept.released (s : MailboxInner T) (gone : List Nat) :
    LeasesKept s (s.release gone) :=
  ⟨fun _ h => List.mem_of_mem_filter h, Nat.le_refl _⟩

/-- A call starts or moves and has nothing to return yet. -/
theorem Effect.bookkept (hQueue : t.queue = s.queue) (hClosed : t.closed = s.closed)
    (hReceiver : t.receiver = s.receiver)
    (hCarried : (carried t.calls).Subperm (carried s.calls)) (hLeases : t.leases = s.leases)
    (hNext : t.nextLease = s.nextLease) : Effect s a t .silent :=
  .call hQueue hClosed hReceiver hCarried
    ⟨fun _ h => hLeases ▸ h, Nat.le_of_eq hNext.symm⟩ rfl rfl nofun

/-- A call's end, whatever it gives back. -/
theorem Effect.finished {call : Nat} {leases : List Nat} {nextLease : Nat}
    (hSub : ∀ lease ∈ leases, lease ∈ s.leases) (hNext : s.nextLease ≤ nextLease)
    (hAccepted : r.accepted? = none) (hDelivered : r.delivered? = none)
    (hNone : r ≠ .received none) : Effect s a { s.finish call with leases, nextLease } r :=
  .call rfl rfl rfl carried_finished ⟨hSub, hNext⟩ hAccepted hDelivered hNone

theorem refuse_effect (s : MailboxInner T) (call : Nat) (origin : Origin) (node : QueueNode T) :
    Effect s a (s.refuse call origin node).1 (s.refuse call origin node).2 := by
  have hReleased := (LeasesKept.released s [node.entry.retention, node.lease]).sub
  cases origin with
  | accept => exact .finished (fun _ h => h) (Nat.le_refl _) rfl rfl nofun
  | send => exact .finished hReleased (Nat.le_refl _) rfl rfl nofun
  | sendBuilding => exact .finished hReleased (Nat.le_refl _) rfl rfl nofun

/-- A call that goes on with what it carries. -/
theorem moveTo_effect {call : Nat} {c : Call T} (hCall : s.calls[call]? = some c)
    {phase : Phase T} (hNode : phase.node? = c.phase.node?) :
    Effect s a (s.moveTo call c.handle phase) .silent :=
  .bookkept rfl rfl rfl (carried_moved hCall hNode).subperm rfl rfl

/-- A step that is taken only under a condition. -/
theorem effect_of_guard {guard : Prop} [Decidable guard] {next : MailboxInner T}
    {reply : Reply T} (hStep : (if guard then some (next, reply) else none) = some (t, r))
    (hTaken : guard → Effect s a next reply) : Effect s a t r := by
  obtain ⟨hGuard, hEq⟩ := Option.ite_none_right_eq_some.mp hStep
  cases hEq
  exact hTaken hGuard

/-- A step that loads `closed`. -/
theorem effect_of_load {refused taken : MailboxInner T × Reply T}
    (hRefused : s.closed = true → Effect s a refused.1 refused.2)
    (hTaken : s.closed = false → Effect s a taken.1 taken.2)
    (hStep : (if s.closed then some refused else some taken) = some (t, r)) : Effect s a t r := by
  by_cases hClosed : s.closed = true
  · rw [if_pos hClosed] at hStep
    have hEffect := hRefused hClosed
    rwa [Option.some.inj hStep] at hEffect
  · rw [if_neg hClosed] at hStep
    have hEffect := hTaken (Bool.eq_false_of_not_eq_true hClosed)
    rwa [Option.some.inj hStep] at hEffect

/-- What a call in progress can do. -/
theorem advance_effect {call : Nat} {c : Call T} (hCall : s.calls[call]? = some c)
    (hStep : s.advance call c = some (t, r)) : Effect s (.advance call) t r := by
  have hCarried := carried_split hCall
  unfold MailboxInner.advance at hStep
  cases hPhase : c.phase with
  | sendLoad origin value =>
    rw [hPhase] at hStep
    have hRefused : Effect s (.advance call) (s.finish call) (.refused value .closed) :=
      .finished (fun _ h => h) (Nat.le_refl _) rfl rfl nofun
    refine effect_of_load (fun _ => hRefused) ?_ hStep
    exact fun _ => moveTo_effect hCall (by rw [hPhase]; rfl)
  | acquire origin value => simp [hPhase] at hStep
  | buildLoad node =>
    rw [hPhase] at hStep
    refine effect_of_load (fun _ => refuse_effect s call .sendBuilding node) ?_ hStep
    exact fun _ => moveTo_effect hCall (by rw [hPhase]; rfl)
  | acceptLoad origin node =>
    rw [hPhase] at hStep
    refine effect_of_load (fun _ => refuse_effect s call origin node) ?_ hStep
    exact fun _ => moveTo_effect hCall (by rw [hPhase]; rfl)
  | acceptLock origin node =>
    rw [hPhase] at hStep hCarried
    refine effect_of_load (fun _ => refuse_effect s call origin node) ?_ hStep
    exact fun hOpen => .accepted node hOpen hCarried
  | closeLock =>
    rw [hPhase] at hStep hCarried
    simp only [Option.some.injEq, Prod.mk.injEq] at hStep
    rw [← hStep.1, ← hStep.2]
    exact .closed (by simp [closes, hCall, hPhase]) hCarried

theorem fund_effect {call handle : Nat} {origin : Origin} {value : T}
    (hCall : s.calls[call]? = some ⟨handle, .acquire origin value⟩) (answer : Funding) :
    Effect s (.fund call answer) (s.fund call handle origin value answer).1
      (s.fund call handle origin value answer).2 := by
  cases answer with
  | claimError => exact .finished (fun _ h => h) (Nat.le_refl _) rfl rfl nofun
  | retentionRefused => exact .finished (fun _ h => h) (Nat.le_refl _) rfl rfl nofun
  | nodeClaimError => exact .finished (fun _ h => h) (Nat.le_succ _) rfl rfl nofun
  | nodeRefused => exact .finished (fun _ h => h) (Nat.le_succ _) rfl rfl nofun
  | funded =>
    let node : QueueNode T := { entry := { value, retention := s.nextLease }
                                lease := s.nextLease + 1 }
    have hNode : (MailboxInner.fundedPhase origin node).node? = some node := by
      cases origin <;> rfl
    have hSet := carried_set hCall ⟨handle, MailboxInner.fundedPhase origin node⟩
    have hRest := carried_split hCall
    simp only [hNode] at hSet
    exact .funded node rfl rfl (hSet.trans (hRest.symm.cons node))

/-- The lock section of `try_recv`, of either caller. -/
theorem popFront_cases (s : MailboxInner T) :
    (s.popFront = none ∧ s.queue = []) ∨
      ∃ node rest, s.queue = node :: rest ∧
        s.popFront = some (node.entry, { s.release [node.lease] with queue := rest }) := by
  unfold MailboxInner.popFront
  cases hQueue : s.queue with
  | nil => exact .inl ⟨rfl, rfl⟩
  | cons node rest => exact .inr ⟨node, rest, rfl, rfl⟩

/-- **What a step can do.** -/
theorem perform_effect (hStep : s.perform a = some (t, r)) : Effect s a t r := by
  cases a with
  | send origin handle value =>
    refine effect_of_guard hStep fun _ => .bookkept rfl rfl rfl ?_ rfl rfl
    show (carried (s.calls ++ _)).Subperm _
    rw [carried_started handle (by cases origin <;> rfl)]
  | close handle =>
    refine effect_of_guard hStep fun _ => .bookkept rfl rfl rfl ?_ rfl rfl
    show (carried (s.calls ++ _)).Subperm _
    rw [carried_started handle rfl]
  | clone handle =>
    exact effect_of_guard hStep fun _ => .bookkept rfl rfl rfl (List.Subperm.refl _) rfl rfl
  | dropSender handle =>
    refine effect_of_guard hStep fun _ => .bookkept rfl rfl rfl ?_ rfl rfl
    dsimp only
    by_cases hLast : s.senders = 1
    · rw [if_pos hLast, carried_started handle rfl]
    · rw [if_neg hLast]
  | advance call =>
    obtain ⟨c, hCall, hAdvance⟩ := Option.bind_eq_some_iff.mp hStep
    exact advance_effect hCall hAdvance
  | fund call answer =>
    simp only [MailboxInner.perform] at hStep
    split at hStep
    · rename_i handle origin value hCall
      have hFund := fund_effect hCall answer
      rwa [Option.some.inj hStep] at hFund
    · simp at hStep
  | tryRecv =>
    simp only [MailboxInner.perform, Option.ite_none_right_eq_some] at hStep
    obtain ⟨hIdle, hStep⟩ := hStep
    have hLive : s.receiver ≠ .dropped := by simp [hIdle]
    rcases popFront_cases s with ⟨hPop, hQueue⟩ | ⟨node, rest, hQueue, hPop⟩
    · simp only [hPop, Option.some.injEq, Prod.mk.injEq] at hStep
      obtain ⟨rfl, rfl⟩ := hStep
      exact .receiver s.receiver hLive hLive (fun _ => hQueue) rfl rfl nofun
    · simp only [hPop, Option.some.injEq, Prod.mk.injEq] at hStep
      obtain ⟨rfl, rfl⟩ := hStep
      have hStays : (s.release [node.lease]).receiver = .idle := hIdle
      rw [hStays]
      exact .delivered node rest hQueue hLive rfl rfl
  | recv =>
    refine effect_of_guard hStep fun hIdle => ?_
    exact .receiver .polling (by simp [hIdle]) nofun nofun rfl rfl nofun
  | poll =>
    simp only [MailboxInner.perform, Option.ite_none_right_eq_some] at hStep
    obtain ⟨hPolling, hStep⟩ := hStep
    have hLive : s.receiver ≠ .dropped := by simp [hPolling]
    rcases popFront_cases s with ⟨hPop, hQueue⟩ | ⟨node, rest, hQueue, hPop⟩
    · simp only [hPop, Option.some.injEq, Prod.mk.injEq] at hStep
      obtain ⟨rfl, rfl⟩ := hStep
      exact .receiver .empty hLive nofun (fun _ => hQueue) rfl rfl nofun
    · simp only [hPop, Option.some.injEq, Prod.mk.injEq] at hStep
      obtain ⟨rfl, rfl⟩ := hStep
      exact .delivered node rest hQueue hLive rfl rfl
  | load =>
    obtain ⟨hEmpty, hStep⟩ := Option.ite_none_right_eq_some.mp hStep
    have hLive : s.receiver ≠ .dropped := by simp [hEmpty]
    refine effect_of_load (fun hClosed => ?_) (fun _ => ?_) hStep
    · exact .receiver .idle hLive nofun nofun rfl rfl (fun _ => ⟨hEmpty, hClosed⟩)
    · exact .receiver .waiting hLive nofun nofun rfl rfl nofun
  | wake =>
    refine effect_of_guard hStep fun hWaiting => ?_
    exact .receiver .polling (by simp [hWaiting]) nofun nofun rfl rfl nofun
  | cancel =>
    refine effect_of_guard hStep fun hWaiting => ?_
    exact .receiver .idle (by simp [hWaiting]) nofun nofun rfl rfl nofun
  | dropReceiver => exact effect_of_guard hStep fun hIdle => .dropped (by simp [hIdle])

end Effects

/-! ## Order and leases, in every run -/

@[simp] theorem accepted_snoc (replies : List (Reply T)) (r : Reply T) :
    accepted (replies ++ [r]) = accepted replies ++ r.accepted?.toList := by
  unfold accepted
  cases hReply : r.accepted? <;> simp [hReply]

@[simp] theorem delivered_snoc (replies : List (Reply T)) (r : Reply T) :
    delivered (replies ++ [r]) = delivered replies ++ r.delivered?.toList := by
  unfold delivered
  cases hReply : r.delivered? <;> simp [hReply]

/-- Both leases of a node are released. -/
def Released (s : MailboxInner T) (node : QueueNode T) : Prop :=
  node.entry.retention ∉ s.leases ∧ node.lease ∉ s.leases

/-- The leases of all nodes were acquired, and no two nodes have the same retention. -/
structure Numbered (next : Nat) (nodes : List (QueueNode T)) : Prop where
  below : ∀ node ∈ nodes, node.entry.retention < next ∧ node.lease < next
  distinct : (nodes.map fun node => node.entry.retention).Nodup

/-- What every run keeps. The accepted nodes are those taken by the receiver, then
those its drop discarded, then the queue. -/
structure Sound (s : MailboxInner T) (replies : List (Reply T)) : Prop where
  ledger : ∃ taken discarded : List (QueueNode T),
    accepted replies = taken ++ discarded ++ s.queue ∧
    delivered replies = taken.map QueueNode.entry ∧
    (s.receiver ≠ .dropped → discarded = []) ∧ ∀ node ∈ discarded, Released s node
  dropped : s.receiver = .dropped → s.closed = true ∧ s.queue = []
  numbered : Numbered s.nextLease (carried s.calls ++ accepted replies)

section Steps

variable {s t : MailboxInner T} {r : Reply T} {replies : List (Reply T)}
variable {node : QueueNode T}

theorem Released.kept (h : Released s node) (hSub : ∀ lease ∈ t.leases, lease ∈ s.leases) :
    Released t node :=
  ⟨fun hMem => h.1 (hSub _ hMem), fun hMem => h.2 (hSub _ hMem)⟩

/-- Nodes only leave. -/
theorem Numbered.of_subperm {next next' : Nat} {now later : List (QueueNode T)}
    (h : Numbered next now) (hSub : later.Subperm now) (hNext : next ≤ next') :
    Numbered next' later := by
  refine ⟨fun node hNode => ?_, ?_⟩
  · have hBelow := h.below node (hSub.subset hNode)
    omega
  · obtain ⟨list, hPerm, hList⟩ := hSub
    exact ((hPerm.map _).nodup_iff).mp (h.distinct.sublist (hList.map _))

/-- A node with the next two numbers joins. -/
theorem Numbered.funded {next : Nat} {nodes : List (QueueNode T)} (h : Numbered next nodes)
    (hRetention : node.entry.retention = next) (hLease : node.lease = next + 1) :
    Numbered (next + 2) (node :: nodes) := by
  refine ⟨fun n hn => ?_, ?_⟩
  · rcases List.mem_cons.mp hn with rfl | hn
    · omega
    · have hBelow := h.below n hn
      omega
  · rw [List.map_cons, List.nodup_cons]
    refine ⟨fun hMem => ?_, h.distinct⟩
    obtain ⟨n, hn, hEq⟩ := List.mem_map.mp hMem
    have hBelow := h.below n hn
    omega

/-- Dropping the receiver releases both leases of every queued node. -/
theorem dropReceiver_released (s : MailboxInner T) (hNode : node ∈ s.queue) :
    Released s.dropReceiver node := by
  have hGone : ∀ lease ∈ [node.entry.retention, node.lease],
      lease ∉ s.dropReceiver.leases := by
    intro lease hLease hMem
    have hKept := (List.mem_filter.mp hMem).2
    have hListed : lease ∈ s.queue.flatMap fun node => [node.entry.retention, node.lease] :=
      List.mem_flatMap.mpr ⟨node, hNode, hLease⟩
    rw [List.contains_iff_mem.mpr hListed] at hKept
    exact Bool.false_ne_true hKept
  exact ⟨hGone _ (by simp), hGone _ (by simp)⟩

/-- **One step keeps order and leases.** -/
theorem Sound.step {a : Action T} (h : Sound s replies) (hEffect : Effect s a t r) :
    Sound t (replies ++ [r]) := by
  obtain ⟨taken, discarded, hAccepted, hDelivered, hDiscarded, hReleased⟩ := h.ledger
  have hBelow : ∀ node ∈ discarded, node.entry.retention < s.nextLease ∧
      node.lease < s.nextLease := by
    intro node hNode
    apply h.numbered.below
    simp [hAccepted, hNode]
  cases hEffect with
  | call hQueue hClosed hReceiver hCarried hLeases hNoAccept hNoDeliver _ =>
    refine ⟨⟨taken, discarded, ?_, ?_, ?_, ?_⟩, ?_, ?_⟩
    · simp [hNoAccept, hAccepted, hQueue]
    · simp [hNoDeliver, hDelivered]
    · rwa [hReceiver]
    · exact fun node hNode => (hReleased node hNode).kept hLeases.sub
    · rw [hReceiver, hClosed, hQueue]
      exact h.dropped
    · rw [accepted_snoc, hNoAccept, Option.toList_none, List.append_nil]
      exact h.numbered.of_subperm ((List.subperm_append_right _).mpr hCarried) hLeases.next
  | funded node hRetention hLease hCarried =>
    refine ⟨⟨taken, discarded, ?_, ?_, hDiscarded, ?_⟩, h.dropped, ?_⟩
    · simp [Reply.accepted?, hAccepted]
    · simp [Reply.delivered?, hDelivered]
    · intro old hOld
      -- A released number lies below the two new ones.
      have hLt := hBelow old hOld
      have hGone := hReleased old hOld
      refine ⟨fun hMem => ?_, fun hMem => ?_⟩
      · simp only [List.mem_cons] at hMem
        rcases hMem with hMem | hMem | hMem
        · omega
        · omega
        · exact hGone.1 hMem
      · simp only [List.mem_cons] at hMem
        rcases hMem with hMem | hMem | hMem
        · omega
        · omega
        · exact hGone.2 hMem
    · have hNumbered := h.numbered.funded hRetention hLease
      refine hNumbered.of_subperm ?_ (Nat.le_refl _)
      simp only [accepted_snoc, Reply.accepted?, Option.toList_none, List.append_nil]
      exact (hCarried.append_right _).subperm
  | accepted node hOpen hCarried =>
    have hLive : s.receiver ≠ .dropped := by
      intro hDropped
      simp [(h.dropped hDropped).1] at hOpen
    refine ⟨⟨taken, discarded, ?_, ?_, hDiscarded, hReleased⟩, ?_, ?_⟩
    · simp [Reply.accepted?, hAccepted]
    · simp [Reply.delivered?, hDelivered]
    · exact fun hDropped => absurd hDropped hLive
    · refine h.numbered.of_subperm ?_ (Nat.le_refl _)
      simp only [accepted_snoc, Reply.accepted?, Option.toList_some]
      refine List.Perm.subperm ?_
      calc carried _ ++ (accepted replies ++ [node])
        _ ~ node :: (carried _ ++ accepted replies) := by
            rw [← List.append_assoc]
            exact List.perm_append_singleton _ _
        _ ~ carried s.calls ++ accepted replies := (hCarried.append_right _).symm
  | closed _ hCarried =>
    refine ⟨⟨taken, discarded, ?_, ?_, hDiscarded, hReleased⟩, ?_, ?_⟩
    · simp [Reply.accepted?, hAccepted]
    · simp [Reply.delivered?, hDelivered]
    · exact fun hDropped => ⟨rfl, (h.dropped hDropped).2⟩
    · refine h.numbered.of_subperm ?_ (Nat.le_refl _)
      simp only [accepted_snoc, Reply.accepted?, Option.toList_none, List.append_nil]
      exact (hCarried.symm.append_right _).subperm
  | delivered node rest hQueue hReceiver hNoAccept hDeliver =>
    have hNone := hDiscarded hReceiver
    subst hNone
    refine ⟨⟨taken ++ [node], [], ?_, ?_, fun _ => rfl, nofun⟩, nofun, ?_⟩
    · simp [hNoAccept, hAccepted, hQueue]
    · simp [hDeliver, hDelivered]
    · rw [accepted_snoc, hNoAccept, Option.toList_none, List.append_nil]
      exact h.numbered
  | receiver next hLive hNext hEmpty hNoAccept hNoDeliver hNone =>
    refine ⟨⟨taken, discarded, ?_, ?_, fun _ => hDiscarded hLive, hReleased⟩, ?_, ?_⟩
    · simp [hNoAccept, hAccepted]
    · simp [hNoDeliver, hDelivered]
    · exact fun hDropped => absurd hDropped hNext
    · rw [accepted_snoc, hNoAccept, Option.toList_none, List.append_nil]
      exact h.numbered
  | dropped hLive =>
    have hNone := hDiscarded hLive
    subst hNone
    refine ⟨⟨taken, s.queue, ?_, ?_, ?_, fun _ => dropReceiver_released s⟩, ?_, ?_⟩
    · simp [Reply.accepted?, hAccepted, MailboxInner.dropReceiver]
    · simp [Reply.delivered?, hDelivered]
    · exact fun hStays => absurd rfl hStays
    · exact fun _ => ⟨rfl, rfl⟩
    · simp only [accepted_snoc, Reply.accepted?, Option.toList_none, List.append_nil]
      exact h.numbered

/-- **Order and leases hold after every run.** -/
theorem Run.sound {meets : MailboxInner T → Action T → Prop}
    (hRun : MailboxInner.Run meets s replies) : Sound s replies := by
  induction hRun with
  | commit => exact ⟨⟨[], [], rfl, rfl, fun _ => rfl, nofun⟩, nofun, ⟨nofun, List.nodup_nil⟩⟩
  | step earlier hMeets hStep ih => exact ih.step (perform_effect hStep)

end Steps

/-! ## The end of the mailbox -/

/-- No closure is stored while the receiver stands between its look at the queue and
its look at `closed` and an entry has been accepted since. -/
def QuietClose (s : MailboxInner T) (a : Action T) : Prop :=
  closes s a = true → s.receiver = .empty → s.queue = []

instance (s : MailboxInner T) (a : Action T) : Decidable (QuietClose s a) :=
  inferInstanceAs (Decidable (_ → _ → s.queue = []))

/-- A receiver that is about to load a set flag has an empty queue. -/
def Drained (s : MailboxInner T) : Prop :=
  s.receiver = .empty → s.closed = true → s.queue = []

section End

variable {s t : MailboxInner T} {a : Action T} {r : Reply T} {replies : List (Reply T)}

/-- **One step.** An entry enters an open mailbox only, and a closure meets no entry. -/
theorem Drained.step (h : Drained s) (hQuiet : QuietClose s a) (hEffect : Effect s a t r) :
    Drained t := by
  intro hEmpty hClosed
  cases hEffect with
  | call hQueue hSame hReceiver _ _ _ _ _ =>
    rw [hQueue]
    exact h (hReceiver ▸ hEmpty) (hSame ▸ hClosed)
  | funded _ _ _ _ => exact h hEmpty hClosed
  | accepted _ hOpen _ => exact absurd (hOpen.symm.trans hClosed) Bool.false_ne_true
  | closed hCloses _ => exact hQuiet hCloses hEmpty
  | delivered _ _ _ _ _ _ => exact absurd hEmpty nofun
  | receiver next _ _ hNext _ _ _ => exact hNext hEmpty
  | dropped _ => exact absurd hEmpty nofun

/-- **Every run.** -/
theorem Run.drained (hRun : MailboxInner.Run QuietClose s replies) : Drained s := by
  induction hRun with
  | commit => exact fun h => absurd h nofun
  | step earlier hMeets hStep ih => exact ih.step hMeets (perform_effect hStep)

/-- `recv` returns `None` only from the load of a set flag. -/
theorem perform_received_none (hStep : s.perform a = some (t, .received none)) :
    s.receiver = .empty ∧ s.closed = true := by
  cases perform_effect hStep with
  | call _ _ _ _ _ _ _ hNone => exact absurd rfl hNone
  | delivered _ _ _ _ _ hDelivered => exact absurd hDelivered nofun
  | receiver _ _ _ _ _ _ hNone => exact hNone rfl

/-- **A closed mailbox loses nothing.** In every run whose closures are quiet, `recv`
returns `None` only when admission is closed and everything accepted was delivered;
entries are delivered in the order of their acceptance, each once; and after the drop of
the receiver both leases of every undelivered entry are released. -/
theorem closed_mailbox_loses_nothing {T : Type} {s : MailboxInner T} {replies : List (Reply T)}
    (hRun : MailboxInner.Run QuietClose s replies) :
    (∀ (a : Action T) (t : MailboxInner T), s.perform a = some (t, .received none) →
      s.closed = true ∧ delivered replies = (accepted replies).map QueueNode.entry) ∧
    delivered replies <+: (accepted replies).map QueueNode.entry ∧
    ((accepted replies).map QueueNode.entry).Nodup ∧
    (s.receiver = .dropped → ∀ node ∈ accepted replies, node.entry ∉ delivered replies →
      Released s node) := by
  have hSound := Run.sound hRun
  obtain ⟨taken, discarded, hAccepted, hDelivered, hDiscarded, hReleased⟩ := hSound.ledger
  refine ⟨fun a t hStep => ?_, ?_, ?_, fun hDropped node hNode hMissing => ?_⟩
  · obtain ⟨hEmpty, hClosed⟩ := perform_received_none hStep
    have hQueue := Run.drained hRun hEmpty hClosed
    have hNone := hDiscarded (by simp [hEmpty])
    refine ⟨hClosed, ?_⟩
    rw [hAccepted, hDelivered, hQueue, hNone]
    simp
  · rw [hAccepted, hDelivered, List.append_assoc, List.map_append]
    exact List.prefix_append _ _
  · have hDistinct := (List.map_append ▸ hSound.numbered.distinct).of_append_right
    refine List.Nodup.of_map MailboxEntry.retention ?_
    rw [List.map_map]
    exact hDistinct
  · rw [hAccepted, (hSound.dropped hDropped).2, List.append_nil] at hNode
    rcases List.mem_append.mp hNode with hTaken | hNode
    · rw [hDelivered] at hMissing
      exact absurd (List.mem_map_of_mem hTaken) hMissing
    · exact hReleased node hNode

/-- A sender sends and drops its handle while the receiver waits for both. -/
def quietRun : List (Action Nat) :=
  [.recv, .poll, .load, .send .send 0 7, .advance 0, .fund 0 .funded, .advance 0, .advance 0,
    .dropSender 0, .advance 0, .wake, .poll, .recv, .poll]

theorem closed_mailbox_loses_nothing_quiet :
    ∃ (s t : MailboxInner Nat) (replies : List (Reply Nat)),
      MailboxInner.Run QuietClose s replies ∧ s.perform .load = some (t, .received none) ∧
      s.closed = true ∧ delivered replies = (accepted replies).map QueueNode.entry ∧
      delivered replies = [{ value := 7, retention := 0 }] := by
  have hExec : ∃ last, MailboxInner.exec QuietClose .commit [] quietRun = some last ∧
      (∃ t, last.1.perform .load = some (t, .received none)) ∧
      delivered last.2 = [{ value := 7, retention := 0 }] := by
    refine ⟨_, rfl, ⟨_, rfl⟩, rfl⟩
  obtain ⟨last, hLast, ⟨t, hStep⟩, hSeven⟩ := hExec
  have hRun := MailboxInner.Run.exec quietRun .commit hLast
  obtain ⟨hClosed, hAll⟩ := (closed_mailbox_loses_nothing hRun).1 .load t hStep
  exact ⟨last.1, t, last.2, hRun, hStep, hClosed, hAll, hSeven⟩

/-- The receiver finds the queue empty, then a sender's `send` returns `Ok` and its
`close` returns, then the receiver loads the flag. -/
def racingRun : List (Action Nat) :=
  [.send .send 0 7, .advance 0, .fund 0 .funded, .recv, .poll, .advance 0, .advance 0,
    .close 0, .advance 0]

theorem recv_none_leaves_an_entry :
    ∃ (s t : MailboxInner Nat) (replies : List (Reply Nat)),
      MailboxInner.Run (fun _ _ => True) s replies ∧
      s.perform .load = some (t, .received none) ∧
      (accepted replies).map QueueNode.entry = [{ value := 7, retention := 0 }] ∧
      delivered replies = [] := by
  have hExec : ∃ last, MailboxInner.exec (fun _ _ => True) .commit [] racingRun = some last ∧
      (∃ t, last.1.perform .load = some (t, .received none)) ∧
      (accepted last.2).map QueueNode.entry = [{ value := 7, retention := 0 }] ∧
      delivered last.2 = [] := by
    refine ⟨_, rfl, ⟨_, rfl⟩, rfl, rfl⟩
  obtain ⟨last, hLast, ⟨t, hStep⟩, hAccepted, hDelivered⟩ := hExec
  have hRun := MailboxInner.Run.exec racingRun .commit hLast
  exact ⟨last.1, t, last.2, hRun, hStep, hAccepted, hDelivered⟩

end End

end MyOwnMesh.Resource.Mailbox
