import Mathlib.Data.List.Basic
import MyOwnMesh.Foundation.Transition

/-!
# Recovery demands

A session that loses its peer arms one recovery demand. The demand is shared: the session
record holds one handle, terminal paths and the recovery cohort hold clones, and any of them
can finish it. A handle is the number of its demand in `demands`; arming decides from the
record alone whether there is a demand.
-/

namespace MyOwnMesh.Recovery

open Foundation

/-! ## One demand -/

/-- Where a demand stands. -/
inductive DemandStatus where
  | armed
  | terminal
  | satisfied
  | cancelled
deriving DecidableEq

/-- `RecoveryDemandInner`; the lease by its number. -/
structure RecoveryDemandInner where
  status : DemandStatus
  lease : Option Nat
deriving DecidableEq

inductive RecoveryAttempt where
  | accepted
  | refused
deriving DecidableEq

/-- What a settlement returns. -/
inductive RecoveryDemandSettlement where
  | preTerminal
  | unsatisfied
  | satisfied
  | noDemand
deriving DecidableEq

namespace RecoveryDemandInner

def markTerminal (demand : RecoveryDemandInner) : RecoveryDemandInner :=
  if demand.status = .armed then { demand with status := .terminal } else demand

/-- Only an accepted attempt satisfies a terminal demand. -/
def settlePostTerminal (demand : RecoveryDemandInner) (attempt : RecoveryAttempt) :
    RecoveryDemandSettlement × RecoveryDemandInner :=
  match demand.status with
  | .armed => (.preTerminal, demand)
  | .terminal =>
    if attempt ≠ .accepted then (.unsatisfied, demand)
    else (.satisfied, { status := .satisfied, lease := none })
  | .satisfied | .cancelled => (.noDemand, demand)

def cancel (demand : RecoveryDemandInner) : Bool × RecoveryDemandInner :=
  match demand.status with
  | .armed | .terminal => (true, { status := .cancelled, lease := none })
  | .satisfied | .cancelled => (false, demand)

/-- Neither satisfied nor cancelled. -/
def Unfinished (demand : RecoveryDemandInner) : Prop :=
  demand.status = .armed ∨ demand.status = .terminal

/-- Unfinished, and its lease is held. -/
def Live (demand : RecoveryDemandInner) : Prop :=
  demand.Unfinished ∧ demand.lease.isSome = true

/-- A demand holds its lease until it is finished. -/
def Funded (demand : RecoveryDemandInner) : Prop :=
  demand.Unfinished → demand.lease.isSome = true

variable {demand : RecoveryDemandInner}

theorem Funded.markTerminal (h : demand.Funded) : demand.markTerminal.Funded := by
  unfold RecoveryDemandInner.markTerminal
  split
  · next hArmed => exact fun _ => h (.inl hArmed)
  · exact h

theorem Funded.settlePostTerminal (h : demand.Funded) (attempt : RecoveryAttempt) :
    (demand.settlePostTerminal attempt).2.Funded := by
  unfold RecoveryDemandInner.settlePostTerminal
  split
  · exact h
  · split
    · exact h
    · exact fun hUnfinished => by simp [Unfinished] at hUnfinished
  · exact h
  · exact h

theorem Funded.cancel (h : demand.Funded) : demand.cancel.2.Funded := by
  unfold RecoveryDemandInner.cancel
  split
  · exact fun hUnfinished => by simp [Unfinished] at hUnfinished
  · exact fun hUnfinished => by simp [Unfinished] at hUnfinished
  · exact h
  · exact h

/-- A live demand that has become terminal is satisfied by an accepted attempt. -/
theorem Live.announced (h : demand.Live) :
    (demand.markTerminal.settlePostTerminal .accepted).1 = .satisfied := by
  have hStatus : demand.markTerminal.status = .terminal := by
    unfold RecoveryDemandInner.markTerminal
    rcases h.1 with hArmed | hTerminal
    · rw [if_pos hArmed]
    · rw [if_neg (by simp [hTerminal]), hTerminal]
  simp [settlePostTerminal, hStatus]

end RecoveryDemandInner

/-! ## The record of a session -/

/-- `RecoveryDemandState`; the demand by its handle. -/
structure RecoveryDemandState where
  demand : Option Nat
  terminal : Bool

/-- The record with all demands it has ever created. -/
structure DemandWorld where
  record : RecoveryDemandState
  demands : List RecoveryDemandInner

inductive RecoveryDemandError where
  | terminal
  | resourceUnavailable
  | arithmetic
deriving DecidableEq

/-- A new demand, or the one that is armed. -/
inductive RecoveryDemandAdmission where
  | created (handle : Nat)
  | coalesced (handle : Nat)
deriving DecidableEq

def RecoveryDemandAdmission.intoHandle : RecoveryDemandAdmission → Nat
  | .created handle | .coalesced handle => handle

namespace DemandWorld

def new : DemandWorld := ⟨⟨none, false⟩, []⟩

/-- Through a handle: the demand it names changes. -/
def through (s : DemandWorld) (handle : Nat) (change : RecoveryDemandInner → RecoveryDemandInner) :
    DemandWorld :=
  { s with demands := s.demands.modify handle change }

/-- `arm`; `answer` is what the reservation would return. -/
def arm (s : DemandWorld) (answer : Except RecoveryDemandError Nat) :
    Except RecoveryDemandError RecoveryDemandAdmission × DemandWorld :=
  if s.record.terminal then (.error .terminal, s)
  else
    match s.record.demand with
    | some handle => (.ok (.coalesced handle), s)
    | none =>
      match answer with
      | .error error => (.error error, s)
      | .ok lease =>
        let handle := s.demands.length
        (.ok (.created handle), { record := { s.record with demand := some handle }
                                  demands := s.demands ++ [⟨.armed, some lease⟩] })

/-- `mark_terminal` of the record. -/
def markTerminal (s : DemandWorld) : DemandWorld :=
  let s := { s with record := { s.record with terminal := true } }
  match s.record.demand with
  | some handle => s.through handle RecoveryDemandInner.markTerminal
  | none => s

/-- `cancel_for_shutdown` and `cancel_for_usable_successor`. -/
def cancelRecord (s : DemandWorld) : DemandWorld :=
  match s.record.demand with
  | some handle =>
    ({ s with record := { s.record with demand := none } }).through handle (·.cancel.2)
  | none => s

end DemandWorld

/-- The calls on the record and on the handles. -/
inductive DemandMove where
  | arm (answer : Except RecoveryDemandError Nat)
  | markTerminal
  | cancelRecord
  | markTerminalThrough (handle : Nat)
  | settlePostTerminal (handle : Nat) (attempt : RecoveryAttempt)
  | cancel (handle : Nat)

/-- One call on the registry or through a handle. -/
def DemandWorld.step (s : DemandWorld) : DemandMove → Option DemandWorld
  | .arm answer => some (s.arm answer).2
  | .markTerminal => some s.markTerminal
  | .cancelRecord => some s.cancelRecord
  | .markTerminalThrough handle => some (s.through handle RecoveryDemandInner.markTerminal)
  | .settlePostTerminal handle attempt =>
    some (s.through handle fun demand => (demand.settlePostTerminal attempt).2)
  | .cancel handle => some (s.through handle (·.cancel.2))

/-! ## When arming yields a live demand -/

/-- The record names a demand, and demands hold their leases until they are finished. -/
structure DemandWorld.Sound (s : DemandWorld) : Prop where
  known : ∀ handle ∈ s.record.demand, handle < s.demands.length
  funded : ∀ (handle : Nat) (demand : RecoveryDemandInner),
    s.demands[handle]? = some demand → demand.Funded

namespace DemandWorld

variable {s : DemandWorld}

theorem Sound.through (h : s.Sound) (handle : Nat)
    {change : RecoveryDemandInner → RecoveryDemandInner}
    (hChange : ∀ demand : RecoveryDemandInner, demand.Funded → (change demand).Funded) :
    (s.through handle change).Sound := by
  refine ⟨fun held hHeld => (h.known held hHeld).trans_eq (List.length_modify ..).symm, ?_⟩
  intro held demand hGet
  change (s.demands.modify handle change)[held]? = some demand at hGet
  rw [List.getElem?_modify] at hGet
  obtain ⟨old, hOld, rfl⟩ := Option.map_eq_some_iff.mp hGet
  split
  · exact hChange old (h.funded held old hOld)
  · exact h.funded held old hOld

/-- Arming keeps the invariant, and returns the demand of the record or a new live one. -/
theorem Sound.arm (h : s.Sound) (answer : Except RecoveryDemandError Nat) :
    (s.arm answer).2.Sound ∧ ∀ admission, (s.arm answer).1 = .ok admission →
      (s.record.demand = some admission.intoHandle ∧ (s.arm answer).2 = s) ∨
      (s.record.demand = none ∧ ∃ lease,
        (s.arm answer).2.demands[admission.intoHandle]? = some ⟨.armed, some lease⟩) := by
  unfold DemandWorld.arm
  split
  · exact ⟨h, by simp⟩
  · split
    · next held hHeld =>
      refine ⟨h, ?_⟩
      rintro admission ⟨⟩
      exact .inl ⟨hHeld, rfl⟩
    · next hNone =>
      cases answer with
      | error error => exact ⟨h, by simp⟩
      | ok lease =>
        refine ⟨⟨?_, fun handle demand hGet => ?_⟩, ?_⟩
        · rintro held ⟨⟩
          simp
        · rcases List.mem_append.mp (List.mem_of_getElem? hGet) with hOld | hNew
          · obtain ⟨old, hOld⟩ := List.getElem?_of_mem hOld
            exact h.funded old demand hOld
          · rw [List.mem_singleton.mp hNew]
            exact fun _ => rfl
        · rintro admission ⟨⟩
          exact .inr ⟨hNone, lease, by simp [RecoveryDemandAdmission.intoHandle]⟩

/-- **Every move keeps the invariant.** -/
theorem Sound.step {t : DemandWorld} {move : DemandMove} (h : s.Sound)
    (hStep : s.step move = some t) : t.Sound := by
  cases move with
  | arm answer =>
    obtain rfl := Option.some.inj hStep
    exact (h.arm answer).1
  | markTerminal =>
    obtain rfl := Option.some.inj hStep
    have hMarked : ({ s with record := { s.record with terminal := true } } : DemandWorld).Sound :=
      ⟨h.known, h.funded⟩
    unfold DemandWorld.markTerminal
    dsimp only
    split
    · exact hMarked.through _ fun _ => .markTerminal
    · exact hMarked
  | cancelRecord =>
    obtain rfl := Option.some.inj hStep
    have hCleared : ({ s with record := { s.record with demand := none } } : DemandWorld).Sound :=
      ⟨by simp, h.funded⟩
    unfold DemandWorld.cancelRecord
    split
    · exact hCleared.through _ fun _ => .cancel
    · exact h
  | markTerminalThrough handle =>
    obtain rfl := Option.some.inj hStep
    exact h.through _ fun _ => .markTerminal
  | settlePostTerminal handle attempt =>
    obtain rfl := Option.some.inj hStep
    exact h.through _ fun _ hFunded => hFunded.settlePostTerminal attempt
  | cancel handle =>
    obtain rfl := Option.some.inj hStep
    exact h.through _ fun _ => .cancel

end DemandWorld

/-- **Arming yields a live demand** exactly when the demand of the record, if it has one, is
unfinished at the call, after every sequence of calls. A live handle is neither satisfied nor
cancelled and holds its lease, and an accepted announcement after the terminal boundary
satisfies it. -/
theorem arm_yields_live_demand (s : DemandWorld)
    (hRun : Runs DemandWorld.step (fun _ _ => True) DemandWorld.new s)
    (answer : Except RecoveryDemandError Nat) (admission : RecoveryDemandAdmission)
    (hArm : (s.arm answer).1 = .ok admission) :
    ∃ demand, (s.arm answer).2.demands[admission.intoHandle]? = some demand ∧
      ((demand.Live ∧ (demand.markTerminal.settlePostTerminal .accepted).1 = .satisfied) ↔
        ∀ handle ∈ s.record.demand, ∀ held, s.demands[handle]? = some held →
          held.Unfinished) := by
  have hNew : DemandWorld.new.Sound := ⟨by simp [DemandWorld.new], by simp [DemandWorld.new]⟩
  have hSound : s.Sound :=
    Runs.invariant (fun _ _ _ h _ hStep => DemandWorld.Sound.step h hStep) hNew hRun
  rcases (hSound.arm answer).2 admission hArm with ⟨hHeld, hSame⟩ | ⟨hNone, lease, hFresh⟩
  · obtain ⟨demand, hDemand⟩ : ∃ demand, s.demands[admission.intoHandle]? = some demand :=
      ⟨_, List.getElem?_eq_getElem (hSound.known _ hHeld)⟩
    refine ⟨demand, by rw [hSame, hDemand], fun hLive handle hHandle held hGet => ?_,
      fun hUnfinished => ?_⟩
    · cases hHeld.symm.trans hHandle
      cases hDemand.symm.trans hGet
      exact hLive.1.1
    · have hOpen := hUnfinished _ hHeld demand hDemand
      have hLive : demand.Live := ⟨hOpen, hSound.funded _ demand hDemand hOpen⟩
      exact ⟨hLive, hLive.announced⟩
  · have hLive : (⟨.armed, some lease⟩ : RecoveryDemandInner).Live := ⟨.inl rfl, rfl⟩
    exact ⟨_, hFresh, fun _ => by simp [hNone], fun _ => ⟨hLive, hLive.announced⟩⟩

/-- One of several channels is lost: the session arms, and the record itself withdraws. -/
def sampleWithdrawn : DemandWorld :=
  (play DemandWorld.step (fun _ _ => True) DemandWorld.new [.arm (.ok 7), .cancelRecord]).getD .new

theorem arm_yields_live_demand_again :
    (sampleWithdrawn.arm (.ok 8)).1 = .ok (.created 1) ∧
    ∃ demand, (sampleWithdrawn.arm (.ok 8)).2.demands[1]? = some demand ∧ demand.Live ∧
      (demand.markTerminal.settlePostTerminal .accepted).1 = .satisfied := by
  obtain ⟨demand, hDemand, hLive⟩ := arm_yields_live_demand sampleWithdrawn
    (Runs.play [.arm (.ok 7), .cancelRecord] .start rfl) (.ok 8) (.created 1) rfl
  exact ⟨rfl, demand, hDemand, hLive.mpr fun handle hHandle => by cases hHandle⟩

/-- One of several channels is lost as the engine does it: it arms, and cancels the handle. -/
def sampleLostChannel : DemandWorld :=
  (play DemandWorld.step (fun _ _ => True) DemandWorld.new [.arm (.ok 7), .cancel 0]).getD .new

/-- When the last channel is lost the record still names the cancelled demand: arming
succeeds, the handle has no lease, and a refused announcement leaves no demand to retry. -/
theorem arm_yields_cancelled_demand :
    Runs DemandWorld.step (fun _ _ => True) DemandWorld.new sampleLostChannel ∧
    (sampleLostChannel.arm (.ok 8)).1 = .ok (.coalesced 0) ∧
    (sampleLostChannel.arm (.ok 8)).2.demands[0]? = some ⟨.cancelled, none⟩ ∧
    ((⟨.cancelled, none⟩ : RecoveryDemandInner).markTerminal.settlePostTerminal .refused).1 =
      .noDemand :=
  ⟨Runs.play [.arm (.ok 7), .cancel 0] .start rfl, rfl, rfl, rfl⟩

end MyOwnMesh.Recovery
