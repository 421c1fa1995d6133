import Mathlib.Algebra.Order.Ring.Nat

/-!
# The resource mailbox

One funded queue between any number of senders and one receiver. Each lock section
of the queue and each load or store of `closed` is one step, so a call is a sequence
of phases and the calls of all handles interleave freely. Acquiring and measuring
touch no part of the mailbox; the provider's answer is a choice of the environment.
Handles and leases are numbers, given out in order.

`recv` looks at the queue in one step and at `closed` in another. An entry that is
accepted between the two is not seen by the first, and a closure between the two is
seen by the second; `Resource.MailboxSpec` says what follows for the receiver.
-/

namespace MyOwnMesh.Resource.Mailbox

/-- `MailboxEntry`, which is also what a `ResourceMailboxDelivery` holds. -/
structure MailboxEntry (T : Type) where
  value : T
  retention : Nat
deriving DecidableEq, Repr

/-- A node of the `LeasedQueue`: its value and the lease that funds the node. -/
structure QueueNode (T : Type) where
  entry : MailboxEntry T
  lease : Nat
deriving DecidableEq, Repr

/-- Which public function a call into `accept` came from. -/
inductive Origin where
  | send
  | sendBuilding
  | accept
deriving DecidableEq, Repr

/-- `ResourceMailboxSendError` without the value it gives back. -/
inductive SendError where
  | claim
  | pressure
  | closed
deriving DecidableEq, Repr

/-- What the measurement and the two acquisitions of a send come to. -/
inductive Funding where
  | claimError
  | retentionRefused
  | nodeClaimError
  | nodeRefused
  | funded
deriving DecidableEq, Repr

/-- Where a sender's call stands, named by the step it takes next. -/
inductive Phase (T : Type) where
  | sendLoad (origin : Origin) (value : T)
  | acquire (origin : Origin) (value : T)
  | buildLoad (node : QueueNode T)
  | acceptLoad (origin : Origin) (node : QueueNode T)
  | acceptLock (origin : Origin) (node : QueueNode T)
  | closeLock
deriving DecidableEq, Repr

/-- The funded node a call carries. -/
def Phase.node? {T : Type} : Phase T → Option (QueueNode T)
  | .sendLoad _ _ | .acquire _ _ | .closeLock => none
  | .buildLoad node | .acceptLoad _ node | .acceptLock _ node => some node

/-- A call in progress on a sender handle. -/
structure Call (T : Type) where
  handle : Nat
  phase : Phase T
deriving DecidableEq, Repr

/-- Where the receiver stands: `polling` is `recv` before its `try_recv`, `empty` is
between a `try_recv` that found nothing and the load of `closed`. -/
inductive Receiver where
  | idle
  | polling
  | empty
  | waiting
  | dropped
deriving DecidableEq, Repr

/-- `MailboxInner` with the calls in progress and the leases not yet released. -/
structure MailboxInner (T : Type) where
  queue : List (QueueNode T)
  closed : Bool
  senders : Nat
  handles : List Nat
  nextHandle : Nat
  calls : List (Call T)
  receiver : Receiver
  leases : List Nat
  nextLease : Nat
deriving DecidableEq, Repr

def MailboxInner.commit {T : Type} : MailboxInner T :=
  { queue := [], closed := false, senders := 1, handles := [0], nextHandle := 1, calls := []
    receiver := .idle, leases := [], nextLease := 0 }

/-- What senders, the receiver and the funder can do next. -/
inductive Action (T : Type) where
  | send (origin : Origin) (handle : Nat) (value : T)
  | close (handle : Nat)
  | clone (handle : Nat)
  | dropSender (handle : Nat)
  | advance (call : Nat)
  | fund (call : Nat) (answer : Funding)
  | tryRecv
  | recv
  | poll
  | load
  | wake
  | cancel
  | dropReceiver
deriving DecidableEq, Repr

/-- What a step returns to its caller; most steps return nothing yet. -/
inductive Reply (T : Type) where
  | silent
  | accepted (node : QueueNode T)
  | refused (value : T) (error : SendError)
  | handedBack (node : QueueNode T)
  | tried (delivery : Option (MailboxEntry T))
  | received (delivery : Option (MailboxEntry T))
deriving DecidableEq, Repr

/-- The node a step accepted. -/
def Reply.accepted? {T : Type} : Reply T → Option (QueueNode T)
  | .accepted node => some node
  | _ => none

/-- The entry a step handed to the receiver's caller. -/
def Reply.delivered? {T : Type} : Reply T → Option (MailboxEntry T)
  | .tried delivery | .received delivery => delivery
  | _ => none

namespace MailboxInner

variable {T : Type}

/-! ## The steps -/

def release (s : MailboxInner T) (gone : List Nat) : MailboxInner T :=
  { s with leases := s.leases.filter fun lease => !gone.contains lease }

def finish (s : MailboxInner T) (call : Nat) : MailboxInner T :=
  { s with calls := s.calls.eraseIdx call }

def moveTo (s : MailboxInner T) (call : Nat) (handle : Nat) (phase : Phase T) : MailboxInner T :=
  { s with calls := s.calls.set call { handle, phase } }

/-- A closed mailbox: `accept` hands value and leases back, and `send` and
`send_building` drop the leases. -/
def refuse (s : MailboxInner T) (call : Nat) (origin : Origin) (node : QueueNode T) :
    MailboxInner T × Reply T :=
  match origin with
  | .accept => (s.finish call, .handedBack node)
  | .send | .sendBuilding =>
    ((s.finish call).release [node.entry.retention, node.lease],
      .refused node.entry.value .closed)

/-- One step of a sender's call, other than its acquisitions. -/
def advance (s : MailboxInner T) (call : Nat) (c : Call T) : Option (MailboxInner T × Reply T) :=
  match c.phase with
  | .sendLoad origin value =>
    if s.closed then some (s.finish call, .refused value .closed)
    else some (s.moveTo call c.handle (.acquire origin value), .silent)
  | .acquire _ _ => none
  | .buildLoad node =>
    if s.closed then some (s.refuse call .sendBuilding node)
    else some (s.moveTo call c.handle (.acceptLoad .sendBuilding node), .silent)
  | .acceptLoad origin node =>
    if s.closed then some (s.refuse call origin node)
    else some (s.moveTo call c.handle (.acceptLock origin node), .silent)
  | .acceptLock origin node =>
    if s.closed then some (s.refuse call origin node)
    else some ({ s.finish call with queue := s.queue ++ [node] }, .accepted node)
  | .closeLock => some ({ s.finish call with closed := true }, .silent)

/-- The phase a funded call goes on to: `send_building` loads `closed` once more. -/
def fundedPhase (origin : Origin) (node : QueueNode T) : Phase T :=
  match origin with
  | .sendBuilding => .buildLoad node
  | .send | .accept => .acceptLoad origin node

/-- The two acquisitions of a send: the retention lease, then the node lease. A
refused node drops the retention lease again. -/
def fund (s : MailboxInner T) (call : Nat) (handle : Nat) (origin : Origin) (value : T)
    (answer : Funding) : MailboxInner T × Reply T :=
  match answer with
  | .claimError => (s.finish call, .refused value .claim)
  | .retentionRefused => (s.finish call, .refused value .pressure)
  | .nodeClaimError => ({ s.finish call with nextLease := s.nextLease + 1 }, .refused value .claim)
  | .nodeRefused => ({ s.finish call with nextLease := s.nextLease + 1 }, .refused value .pressure)
  | .funded =>
    let node : QueueNode T := { entry := { value, retention := s.nextLease }
                                lease := s.nextLease + 1 }
    ({ s.moveTo call handle (fundedPhase origin node) with
        leases := (s.nextLease + 1) :: s.nextLease :: s.leases
        nextLease := s.nextLease + 2 }, .silent)

/-- The lock section of `try_recv`: the node lease leaves with the node. -/
def popFront (s : MailboxInner T) : Option (MailboxEntry T × MailboxInner T) :=
  match s.queue with
  | [] => none
  | node :: rest => some (node.entry, { s.release [node.lease] with queue := rest })

/-- The lock section of the receiver's drop. -/
def dropReceiver (s : MailboxInner T) : MailboxInner T :=
  { s.release (s.queue.flatMap fun node => [node.entry.retention, node.lease]) with
      queue := [], closed := true, receiver := .dropped }

/-- One step of the system; `none` where no call stands at that step. A handle lent to
a call in progress is not dropped, and `recv` borrows the receiver until it returns. -/
def perform (s : MailboxInner T) : Action T → Option (MailboxInner T × Reply T)
  | .send origin handle value =>
    if handle ∈ s.handles then
      some ({ s with calls := s.calls ++ [{ handle, phase := match origin with
        -- A caller of `accept` comes with both leases: it has only to acquire them.
        | .accept => .acquire .accept value
        | origin => .sendLoad origin value }] }, .silent)
    else none
  | .close handle =>
    if handle ∈ s.handles then
      some ({ s with calls := s.calls ++ [{ handle, phase := .closeLock }] }, .silent)
    else none
  | .clone handle =>
    if handle ∈ s.handles then
      some ({ s with senders := s.senders + 1, handles := s.handles ++ [s.nextHandle]
                     nextHandle := s.nextHandle + 1 }, .silent)
    else none
  | .dropSender handle =>
    if handle ∈ s.handles ∧ ∀ c ∈ s.calls, c.handle ≠ handle then
      let calls := if s.senders = 1 then s.calls ++ [{ handle, phase := .closeLock }]
        else s.calls
      some ({ s with senders := s.senders - 1, handles := s.handles.erase handle, calls },
        .silent)
    else none
  | .advance call => (s.calls[call]?).bind fun c => s.advance call c
  | .fund call answer =>
    match s.calls[call]? with
    | some ⟨handle, .acquire origin value⟩ => some (s.fund call handle origin value answer)
    | _ => none
  | .tryRecv =>
    if s.receiver = .idle then
      match s.popFront with
      | some (entry, s) => some (s, .tried (some entry))
      | none => some (s, .tried none)
    else none
  | .recv => if s.receiver = .idle then some ({ s with receiver := .polling }, .silent) else none
  | .poll =>
    if s.receiver = .polling then
      match s.popFront with
      | some (entry, s) => some ({ s with receiver := .idle }, .received (some entry))
      | none => some ({ s with receiver := .empty }, .silent)
    else none
  | .load =>
    if s.receiver = .empty then
      if s.closed then some ({ s with receiver := .idle }, .received none)
      else some ({ s with receiver := .waiting }, .silent)
    else none
  | .wake =>
    if s.receiver = .waiting then some ({ s with receiver := .polling }, .silent) else none
  | .cancel =>
    if s.receiver = .waiting then some ({ s with receiver := .idle }, .silent) else none
  | .dropReceiver => if s.receiver = .idle then some (s.dropReceiver, .silent) else none

/-- A run of the mailbox whose steps all meet a condition, with its replies in order. -/
inductive Run (meets : MailboxInner T → Action T → Prop) : MailboxInner T → List (Reply T) → Prop
  | commit : Run meets commit []
  | step {s t : MailboxInner T} {replies : List (Reply T)} {a : Action T} {r : Reply T}
      (earlier : Run meets s replies) (hMeets : meets s a) (hStep : s.perform a = some (t, r)) :
      Run meets t (replies ++ [r])

/-- Run a list of actions, as far as each is enabled and meets the condition. -/
def exec (meets : MailboxInner T → Action T → Prop) [∀ s a, Decidable (meets s a)] :
    MailboxInner T → List (Reply T) → List (Action T) → Option (MailboxInner T × List (Reply T))
  | s, replies, [] => some (s, replies)
  | s, replies, a :: later =>
    if meets s a then
      (s.perform a).bind fun next => exec meets next.1 (replies ++ [next.2]) later
    else none

/-- What `exec` reaches is reached by a run. -/
theorem Run.exec {meets : MailboxInner T → Action T → Prop} [∀ s a, Decidable (meets s a)]
    (actions : List (Action T)) : ∀ {s : MailboxInner T} {replies : List (Reply T)}
    {last : MailboxInner T × List (Reply T)}, Run meets s replies →
      MailboxInner.exec meets s replies actions = some last → Run meets last.1 last.2 := by
  induction actions with
  | nil =>
    intro s replies last hRun hExec
    rw [← Option.some.inj hExec]
    exact hRun
  | cons a later ih =>
    intro s replies last hRun hExec
    simp only [MailboxInner.exec, Option.ite_none_right_eq_some,
      Option.bind_eq_some_iff] at hExec
    obtain ⟨hMeets, next, hStep, hExec⟩ := hExec
    exact ih (hRun.step hMeets hStep) hExec

end MailboxInner

end MyOwnMesh.Resource.Mailbox
