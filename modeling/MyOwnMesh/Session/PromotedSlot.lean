import Mathlib.Algebra.BigOperators.Group.List.Basic
import Mathlib.Algebra.Order.Group.Multiset
import Mathlib.Algebra.Order.Sub.Basic
import Mathlib.Data.List.Perm.Basic
import Mathlib.Data.Multiset.OrderedMonoid
import Mathlib.Logic.Function.Basic
import Mathlib.Tactic.Abel
import MyOwnMesh.Foundation.KeyedList
import MyOwnMesh.Foundation.Transition

/-!
# The promoted session slot

A peer entry holds its promoted session in one slot: a map of channels by their worker, an
optional selection and one logical record, all of one validity lineage. Workers die and
lineages are revoked at any time, and the provider may refuse any reservation. What the
slot only carries along (flows, endpoint authentication, correlation, dedup tokens) is a
value of an arbitrary type `φ`; `ε` are the provider's reasons.
-/

namespace MyOwnMesh.Session

open Foundation

variable {χ φ ε : Type}

/-- `SessionCapability`. Its lineage is its validity record; the channel capability is only
carried, to be returned with a refused input. -/
structure SessionCapability (χ : Type) where
  channel : χ
  lineage : Nat
deriving DecidableEq

/-- What `install` and `add_channel` are given: the capability with the connector it was
promoted from, the worker, and the rest of the binding. -/
structure ChannelInput (χ φ : Type) where
  session : SessionCapability χ
  connector : Nat
  worker : Nat
  carried : φ

/-- A channel with the leases of its map entry and of its correlation text. -/
structure PromotedChannel (χ φ : Type) where
  input : ChannelInput χ φ
  entryLease : Nat
  correlationLease : Nat

def PromotedChannel.worker (channel : PromotedChannel χ φ) : Nat := channel.input.worker

/-- The channels are a map by worker. -/
structure PromotedSession (χ φ : Type) where
  selected : Option Nat
  channels : List (PromotedChannel χ φ)
  lineage : Nat
  logicalLease : Nat

/-- The slot with what it depends on: which workers are live, which lineages are, and the
leases the provider has outstanding for the slot. -/
structure SlotState (χ φ : Type) where
  slot : Option (PromotedSession χ φ)
  active : Nat → Bool
  live : Nat → Bool
  issued : Nat
  held : Multiset Nat

/-- Why a lease was not granted. -/
inductive ReservationRefusal (ε : Type) where
  | resourceUnavailable (error : ε)
  | claimArithmetic

inductive PromotedSessionAdmissionRefusalReason (ε : Type) where
  | slotUnavailable
  | logicalSessionUnavailable
  | duplicateWorker
  | reservation (refusal : ReservationRefusal ε)

/-- Whether the session in the slot can be used again. -/
inductive Reuse where
  | vacant
  | current
  | revoked
deriving DecidableEq

structure RemovedPromotedChannel (φ : Type) where
  worker : Nat
  carried : φ
  selectionNeeded : Bool
  sessionEmpty : Bool

/-- What a call on the slot returns. -/
inductive SlotOutcome (χ φ ε : Type) where
  | accepted
  | refused (reason : PromotedSessionAdmissionRefusalReason ε) (input : ChannelInput χ φ)
  | selected (answer : Bool)
  | unique (worker : Option Nat)
  | removed (channel : Option (RemovedPromotedChannel φ))
  | reuse (answer : Reuse)
  | done

/-! ## The operations -/

def PromotedChannel.leases (channel : PromotedChannel χ φ) : Multiset Nat :=
  {channel.entryLease, channel.correlationLease}

namespace PromotedSession

/-- The leases a session holds through its slot. -/
def leases (session : PromotedSession χ φ) : Multiset Nat :=
  session.logicalLease ::ₘ (session.channels.map PromotedChannel.leases).sum

/-- `channels.get`. -/
def channel (session : PromotedSession χ φ) (worker : Nat) : Option (PromotedChannel χ φ) :=
  session.channels.find? (·.worker = worker)

def containsWorker (session : PromotedSession χ φ) (worker : Nat) : Bool :=
  (session.channel worker).isSome

end PromotedSession

namespace SlotState

section

variable (incarnation : Nat → Nat)

def new (live : Nat → Bool) (active : Nat → Bool) : SlotState χ φ := ⟨none, active, live, 0, 0⟩

/-- A granted reservation, with number `issued`. -/
def reserve (s : SlotState χ φ) : SlotState χ φ :=
  { s with issued := s.issued + 1, held := s.issued ::ₘ s.held }

def dropSlot (s : SlotState χ φ) : SlotState χ φ :=
  { s with
    slot := none
    held := s.held - s.slot.elim 0 PromotedSession.leases }

/-- The connector of a worker that is live is the one its capability was promoted from. -/
def usable (s : SlotState χ φ) (channel : PromotedChannel χ φ) : Bool :=
  s.active channel.worker && incarnation channel.worker == channel.input.connector

/-- `install`: the reservations in their order, each refusal dropping those before it. -/
def install (s : SlotState χ φ) (input : ChannelInput χ φ)
    (logical entry correlation : Option (ReservationRefusal ε)) :
    SlotOutcome χ φ ε × SlotState χ φ :=
  match logical with
  | some refusal => (.refused (.reservation refusal) input, s)
  | none =>
    let logicalLease := s.issued
    let s := s.reserve
    match entry with
    | some refusal =>
      (.refused (.reservation refusal) input, { s with held := s.held.erase logicalLease })
    | none =>
      let entryLease := s.issued
      let s := s.reserve
      match correlation with
      | some refusal =>
        (.refused (.reservation refusal) input,
          { s with held := (s.held.erase entryLease).erase logicalLease })
      | none =>
        let correlationLease := s.issued
        let s := s.reserve
        let promoted : PromotedSession χ φ :=
          ⟨none, [⟨input, entryLease, correlationLease⟩], input.session.lineage, logicalLease⟩
        (.accepted, { s.dropSlot with slot := some promoted })

/-- Add a channel of the same live session, funded entry first. -/
def addChannel (s : SlotState χ φ) (input : ChannelInput χ φ)
    (entry correlation : Option (ReservationRefusal ε)) : SlotOutcome χ φ ε × SlotState χ φ :=
  match s.slot with
  | none => (.refused .slotUnavailable input, s)
  | some promoted =>
    if !s.live promoted.lineage || promoted.lineage ≠ input.session.lineage then
      (.refused .logicalSessionUnavailable input, s)
    else if promoted.containsWorker input.worker then (.refused .duplicateWorker input, s)
    else
      match entry with
      | some refusal => (.refused (.reservation refusal) input, s)
      | none =>
        let entryLease := s.issued
        let s := s.reserve
        match correlation with
        | some refusal =>
          (.refused (.reservation refusal) input, { s with held := s.held.erase entryLease })
        | none =>
          let correlationLease := s.issued
          let s := s.reserve
          (.accepted, { s with slot := some { promoted with
            channels := promoted.channels ++ [⟨input, entryLease, correlationLease⟩] } })

def selectChannel (s : SlotState χ φ) (worker : Nat) : SlotOutcome χ φ ε × SlotState χ φ :=
  match s.slot with
  | none => (.selected false, s)
  | some promoted =>
    if !s.active worker || !promoted.containsWorker worker then (.selected false, s)
    else (.selected true, { s with slot := some { promoted with selected := some worker } })

/-- The count of usable channels and the last of them. -/
def countUsable (s : SlotState χ φ) (channels : List (PromotedChannel χ φ)) :
    Nat × Option Nat :=
  channels.foldl (fun found channel =>
    if s.usable incarnation channel then (found.1 + 1, some channel.worker) else found) (0, none)

/-- Keep a usable selection, or select the only usable channel. -/
def selectUniqueUsable (s : SlotState χ φ) : SlotOutcome χ φ ε × SlotState χ φ :=
  match s.slot with
  | none => (.unique none, s)
  | some promoted =>
    if (promoted.selected.bind promoted.channel).any (s.usable incarnation) then
      (.unique promoted.selected, s)
    else
      let found := s.countUsable incarnation promoted.channels
      let candidate := if found.1 = 1 then found.2 else none
      (.unique candidate, { s with slot := some { promoted with selected := candidate } })

/-- `remove_channel`; the last channel takes the slot with it. -/
def removeChannel (s : SlotState χ φ) (worker : Nat) : SlotOutcome χ φ ε × SlotState χ φ :=
  match s.slot with
  | none => (.removed none, s)
  | some promoted =>
    match promoted.channel worker with
    | none => (.removed none, s)
    | some channel =>
      let selectionNeeded := promoted.selected == some worker
      let promoted := { promoted with channels := promoted.channels.filter (·.worker ≠ worker) }
      let s := { s with slot := some promoted, held := s.held - channel.leases }
      if promoted.channels.isEmpty then
        (.removed (some ⟨worker, channel.input.carried, false, true⟩), s.dropSlot)
      else
        (.removed (some ⟨worker, channel.input.carried, selectionNeeded, false⟩),
          { s with slot := some { promoted with
            selected := if selectionNeeded then none else promoted.selected } })

/-- `prepare_shutdown`: the lineage is revoked and the workers retired in place. -/
def prepareShutdown (s : SlotState χ φ) : SlotState χ φ :=
  match s.slot with
  | none => s
  | some promoted => { s with
      live := Function.update s.live promoted.lineage false
      active := fun worker => s.active worker && !promoted.containsWorker worker }

/-- A session of a dead lineage is dropped. -/
def reuseOrRevoke (s : SlotState χ φ) : SlotOutcome χ φ ε × SlotState χ φ :=
  match s.slot with
  | none => (.reuse .vacant, s)
  | some promoted =>
    if s.live promoted.lineage then (.reuse .current, s) else (.reuse .revoked, s.dropSlot)

end

end SlotState

/-- The operations, and what may happen beside them. -/
inductive SlotMove (χ φ ε : Type) where
  | install (input : ChannelInput χ φ) (logical entry correlation : Option (ReservationRefusal ε))
  | addChannel (input : ChannelInput χ φ) (entry correlation : Option (ReservationRefusal ε))
  | selectChannel (worker : Nat)
  | selectUniqueUsable
  | removeChannel (worker : Nat)
  | prepareShutdown
  | reuseOrRevoke
  | clear
  | workerDies (worker : Nat)
  | revoke (lineage : Nat)

namespace SlotState

variable (incarnation : Nat → Nat)

/-- One call on the slot. -/
def step (s : SlotState χ φ) : SlotMove χ φ ε → SlotOutcome χ φ ε × SlotState χ φ
  | .install input logical entry correlation => s.install input logical entry correlation
  | .addChannel input entry correlation => s.addChannel input entry correlation
  | .selectChannel worker => s.selectChannel worker
  | .selectUniqueUsable => s.selectUniqueUsable incarnation
  | .removeChannel worker => s.removeChannel worker
  | .prepareShutdown => (.done, s.prepareShutdown)
  | .reuseOrRevoke => s.reuseOrRevoke
  | .clear => (.done, s.dropSlot)
  | .workerDies worker => (.done, { s with active := Function.update s.active worker false })
  | .revoke lineage => (.done, { s with live := Function.update s.live lineage false })

def run (s : SlotState χ φ) (moves : List (SlotMove χ φ ε)) : SlotState χ φ :=
  moves.foldl (fun s move => (s.step incarnation move).2) s

end SlotState

/-! ## The invariant -/

/-- What an installed session is like. -/
structure PromotedSession.Sound (session : PromotedSession χ φ) : Prop where
  lineage : ∀ channel ∈ session.channels, channel.input.session.lineage = session.lineage
  workers : (session.channels.map PromotedChannel.worker).Nodup
  selected : ∀ worker ∈ session.selected,
    worker ∈ session.channels.map PromotedChannel.worker
  occupied : session.channels ≠ []

namespace PromotedSession

variable {session : PromotedSession χ φ}

theorem containsWorker_iff {worker : Nat} : session.containsWorker worker = true ↔
    worker ∈ session.channels.map PromotedChannel.worker := by
  unfold containsWorker channel
  rw [List.find?_isSome]
  simp

theorem Sound.select (h : session.Sound) {choice : Option Nat}
    (hChoice : ∀ worker ∈ choice, worker ∈ session.channels.map PromotedChannel.worker) :
    { session with selected := choice }.Sound :=
  ⟨h.lineage, h.workers, hChoice, h.occupied⟩

theorem Sound.append (h : session.Sound) {channel : PromotedChannel χ φ}
    (hLineage : channel.input.session.lineage = session.lineage)
    (hNew : ¬ session.containsWorker channel.worker = true) :
    { session with channels := session.channels ++ [channel] }.Sound := by
  rw [containsWorker_iff] at hNew
  refine ⟨fun other hOther => ?_, ?_, fun worker hWorker => ?_, by simp⟩
  · rcases List.mem_append.mp hOther with hOld | hLast
    · exact h.lineage other hOld
    · rw [List.mem_singleton.mp hLast]
      exact hLineage
  · rw [List.map_append, List.map_singleton, List.nodup_append_comm, List.singleton_append,
      List.nodup_cons]
    exact ⟨hNew, h.workers⟩
  · rw [List.map_append]
    exact List.mem_append_left _ (h.selected worker hWorker)

theorem Sound.remove (h : session.Sound) (worker : Nat)
    (hLeft : session.channels.filter (·.worker ≠ worker) ≠ []) :
    { session with
      channels := session.channels.filter (·.worker ≠ worker),
      selected := if session.selected == some worker then none else session.selected }.Sound := by
  refine ⟨fun other hOther => h.lineage other (List.mem_of_mem_filter hOther),
    h.workers.sublist (List.filter_sublist.map _), fun kept hKept => ?_, hLeft⟩
  by_cases hSame : session.selected = some worker
  · simp [hSame] at hKept
  · rw [if_neg (by simpa using hSame)] at hKept
    obtain ⟨channel, hChannel, rfl⟩ := List.mem_map.mp (h.selected kept hKept)
    refine List.mem_map_of_mem (List.mem_filter.mpr ⟨hChannel, ?_⟩)
    simpa using fun hWorker : channel.worker = worker => hSame (hWorker ▸ hKept)

/-- A removed channel takes its leases along. -/
theorem Sound.leases_remove (h : session.Sound) {worker : Nat} {found : PromotedChannel χ φ}
    (hFound : session.channel worker = some found) (choice : Option Nat) :
    session.leases - found.leases =
      { session with
        channels := session.channels.filter (·.worker ≠ worker), selected := choice }.leases := by
  have hPerm := (perm_cons_of_find h.workers hFound).map PromotedChannel.leases
  unfold leases
  rw [hPerm.sum_eq, List.map_cons, List.sum_cons, ← Multiset.add_cons, add_tsub_cancel_left]

end PromotedSession

namespace SlotState

/-- The session is sound and its leases are those held. -/
structure Sound (s : SlotState χ φ) : Prop where
  session : ∀ promoted ∈ s.slot, promoted.Sound
  held : s.held = s.slot.elim 0 PromotedSession.leases

variable {s : SlotState χ φ}

theorem Sound.dropSlot (h : s.Sound) : s.dropSlot.Sound :=
  ⟨by simp [SlotState.dropSlot], by rw [SlotState.dropSlot, h.held]; exact tsub_self _⟩

variable {promoted : PromotedSession χ φ}

theorem Sound.select (h : s.Sound) (hSlot : s.slot = some promoted) {choice : Option Nat}
    (hChoice : ∀ worker ∈ choice, worker ∈ promoted.channels.map PromotedChannel.worker) :
    { s with slot := some { promoted with selected := choice } }.Sound := by
  refine ⟨?_, ?_⟩
  · rintro _ ⟨⟩
    exact (h.session promoted hSlot).select hChoice
  · rw [h.held, hSlot]
    rfl

theorem Sound.install (h : s.Sound) (input : ChannelInput χ φ)
    (logical entry correlation : Option (ReservationRefusal ε)) :
    (s.install input logical entry correlation).2.Sound := by
  unfold SlotState.install
  split
  · exact h
  dsimp only
  split
  · exact ⟨h.session, by simp [reserve, h.held]⟩
  split
  · exact ⟨h.session, by simp [reserve, h.held]⟩
  · refine ⟨?_, ?_⟩
    · rintro _ ⟨⟩
      exact ⟨by simp, by simp, by simp, by simp⟩
    · simp only [SlotState.dropSlot, reserve, h.held, Option.elim_some, PromotedSession.leases,
        PromotedChannel.leases, List.map_singleton, List.sum_singleton]
      rw [← Multiset.singleton_add, ← Multiset.singleton_add (s.issued + 1),
        ← Multiset.singleton_add s.issued, ← add_assoc, ← add_assoc, add_tsub_cancel_right]
      simp only [Multiset.insert_eq_cons, ← Multiset.singleton_add]
      abel

theorem Sound.addChannel (h : s.Sound) (input : ChannelInput χ φ)
    (entry correlation : Option (ReservationRefusal ε)) :
    (s.addChannel input entry correlation).2.Sound := by
  unfold SlotState.addChannel
  split
  · exact h
  · next promoted hSlot =>
    split
    · exact h
    · next hLineage =>
      split
      · exact h
      · next hNew =>
        split
        · exact h
        dsimp only
        split
        · exact ⟨h.session, by simp [reserve, h.held]⟩
        · refine ⟨?_, ?_⟩
          · rintro _ ⟨⟩
            refine (h.session promoted hSlot).append ?_ hNew
            simp only [Bool.or_eq_true, decide_eq_true_eq, not_or, not_not] at hLineage
            exact hLineage.2.symm
          · simp only [reserve, h.held, hSlot, Option.elim_some, PromotedSession.leases,
              List.map_append, List.map_singleton, List.sum_append, List.sum_singleton,
              PromotedChannel.leases, Multiset.insert_eq_cons, ← Multiset.singleton_add]
            abel

theorem Sound.selectChannel (h : s.Sound) (worker : Nat) :
    (s.selectChannel worker : SlotOutcome χ φ ε × SlotState χ φ).2.Sound := by
  unfold SlotState.selectChannel
  split
  · exact h
  · next promoted hSlot =>
    split
    · exact h
    · next hFound =>
      refine h.select hSlot ?_
      rintro _ ⟨⟩
      simp only [Bool.or_eq_true, not_or, Bool.not_eq_true', Bool.not_eq_false] at hFound
      exact PromotedSession.containsWorker_iff.mp hFound.2

/-- The fold counts the usable channels and keeps the last one. -/
theorem countUsable_fold (incarnation : Nat → Nat) (channels : List (PromotedChannel χ φ)) :
    ∀ found : Nat × Option Nat, channels.foldl (fun found channel =>
        if s.usable incarnation channel then (found.1 + 1, some channel.worker) else found) found =
      (found.1 + (channels.filter (s.usable incarnation)).length,
        ((channels.filter (s.usable incarnation)).getLast?.map PromotedChannel.worker).or
          found.2) := by
  induction channels with
  | nil => simp
  | cons channel channels ih =>
    intro found
    rw [List.foldl_cons, ih]
    by_cases hUsable : s.usable incarnation channel = true
    · rw [if_pos hUsable, List.filter_cons_of_pos hUsable, List.length_cons, List.getLast?_cons]
      refine Prod.ext (by dsimp only; omega) ?_
      cases (channels.filter (s.usable incarnation)).getLast? <;> rfl
    · rw [if_neg hUsable, List.filter_cons_of_neg hUsable]

/-- The one usable channel, if there is exactly one. -/
theorem countUsable_eq (incarnation : Nat → Nat) (channels : List (PromotedChannel χ φ)) :
    s.countUsable incarnation channels = ((channels.filter (s.usable incarnation)).length,
      (channels.filter (s.usable incarnation)).getLast?.map PromotedChannel.worker) := by
  rw [countUsable, countUsable_fold]
  simp

theorem Sound.selectUniqueUsable (h : s.Sound) (incarnation : Nat → Nat) :
    (s.selectUniqueUsable incarnation : SlotOutcome χ φ ε × SlotState χ φ).2.Sound := by
  unfold SlotState.selectUniqueUsable
  split
  · exact h
  · next promoted hSlot =>
    split
    · exact h
    · refine h.select hSlot fun worker hWorker => ?_
      rw [countUsable_eq] at hWorker
      dsimp only at hWorker
      split at hWorker
      · obtain ⟨channel, hLast, rfl⟩ := Option.map_eq_some_iff.mp hWorker
        exact List.mem_map_of_mem (List.mem_of_mem_filter (List.mem_of_getLast? hLast))
      · simp at hWorker

theorem Sound.removeChannel (h : s.Sound) (worker : Nat) :
    (s.removeChannel worker : SlotOutcome χ φ ε × SlotState χ φ).2.Sound := by
  unfold SlotState.removeChannel
  split
  · exact h
  · next promoted hSlot =>
    have hPromoted := h.session promoted hSlot
    split
    · exact h
    · next channel hChannel =>
      have hLeases := hPromoted.leases_remove hChannel
      have hHeld : s.held - channel.leases = promoted.leases - channel.leases := by
        rw [h.held, hSlot]
        rfl
      dsimp only
      split
      · refine ⟨by simp [SlotState.dropSlot], ?_⟩
        simp only [SlotState.dropSlot, Option.elim_some, Option.elim_none]
        rw [hHeld, hLeases promoted.selected]
        exact tsub_self _
      · next hLeft =>
        refine ⟨?_, ?_⟩
        · rintro _ ⟨⟩
          exact hPromoted.remove worker (by simpa using hLeft)
        · simp only [Option.elim_some]
          rw [hHeld]
          exact hLeases _

theorem Sound.prepareShutdown (h : s.Sound) : s.prepareShutdown.Sound := by
  unfold SlotState.prepareShutdown
  split
  · exact h
  · exact ⟨h.session, h.held⟩

theorem Sound.reuseOrRevoke (h : s.Sound) :
    (s.reuseOrRevoke : SlotOutcome χ φ ε × SlotState χ φ).2.Sound := by
  unfold SlotState.reuseOrRevoke
  split
  · exact h
  split
  · exact h
  · exact h.dropSlot

/-- **Every move keeps the invariant.** -/
theorem Sound.step (h : s.Sound) (incarnation : Nat → Nat) (move : SlotMove χ φ ε) :
    (s.step incarnation move).2.Sound := by
  cases move with
  | install input logical entry correlation => exact h.install input logical entry correlation
  | addChannel input entry correlation => exact h.addChannel input entry correlation
  | selectChannel worker => exact h.selectChannel worker
  | selectUniqueUsable => exact h.selectUniqueUsable incarnation
  | removeChannel worker => exact h.removeChannel worker
  | prepareShutdown => exact h.prepareShutdown
  | reuseOrRevoke => exact h.reuseOrRevoke
  | clear => exact h.dropSlot
  | workerDies worker => exact ⟨h.session, h.held⟩
  | revoke lineage => exact ⟨h.session, h.held⟩

theorem Sound.run (incarnation : Nat → Nat) (moves : List (SlotMove χ φ ε)) :
    ∀ s : SlotState χ φ, s.Sound → (s.run incarnation moves).Sound := by
  induction moves with
  | nil => exact fun _ h => h
  | cons move moves ih => exact fun s h => ih _ (h.step incarnation move)

/-! ## Refusals -/

variable {input other : ChannelInput χ φ} {reason : PromotedSessionAdmissionRefusalReason ε}

theorem install_refused {logical entry correlation : Option (ReservationRefusal ε)}
    (h : (s.install input logical entry correlation).1 = .refused reason other) :
    other = input ∧ (s.install input logical entry correlation).2.slot = s.slot ∧
      (s.install input logical entry correlation).2.held = s.held := by
  unfold SlotState.install at h ⊢
  cases logical with
  | some refusal =>
    cases h
    exact ⟨rfl, rfl, rfl⟩
  | none =>
    cases entry with
    | some refusal =>
      cases h
      exact ⟨rfl, rfl, by simp [reserve]⟩
    | none =>
      cases correlation with
      | some refusal =>
        cases h
        exact ⟨rfl, rfl, by simp [reserve]⟩
      | none => simp at h

theorem addChannel_refused {entry correlation : Option (ReservationRefusal ε)}
    (h : (s.addChannel input entry correlation).1 = .refused reason other) :
    other = input ∧ (s.addChannel input entry correlation).2.slot = s.slot ∧
      (s.addChannel input entry correlation).2.held = s.held := by
  unfold SlotState.addChannel at h ⊢
  cases hSlot : s.slot with
  | none =>
    simp only [hSlot] at h ⊢
    cases h
    exact ⟨rfl, trivial, trivial⟩
  | some promoted =>
    simp only [hSlot] at h ⊢
    split at h
    · next hLineage =>
      rw [if_pos hLineage]
      cases h
      exact ⟨rfl, hSlot, rfl⟩
    · next hLineage =>
      rw [if_neg hLineage]
      split at h
      · next hSame =>
        rw [if_pos hSame]
        cases h
        exact ⟨rfl, hSlot, rfl⟩
      · next hSame =>
        rw [if_neg hSame]
        cases entry with
        | some refusal =>
          cases h
          exact ⟨rfl, hSlot, rfl⟩
        | none =>
          cases correlation with
          | some refusal =>
            cases h
            exact ⟨rfl, hSlot, by simp [reserve]⟩
          | none => simp at h

/-! ## The selection -/

/-- A selection that is still usable stays. -/
theorem selectUniqueUsable_kept (hSound : promoted.Sound) (hSlot : s.slot = some promoted)
    (incarnation : Nat → Nat) {channel : PromotedChannel χ φ} (hMem : channel ∈ promoted.channels)
    (hSelected : promoted.selected = some channel.worker)
    (hUsable : s.usable incarnation channel = true) :
    (s.selectUniqueUsable incarnation : SlotOutcome χ φ ε × SlotState χ φ) =
      (.unique (some channel.worker), s) := by
  have hFind : promoted.channel channel.worker = some channel := find_of_mem hSound.workers hMem
  unfold SlotState.selectUniqueUsable
  simp [hSlot, hSelected, hFind, hUsable]

/-- Otherwise the one usable channel is selected, or none. -/
theorem selectUniqueUsable_chosen
    (hSlot : s.slot = some promoted) (incarnation : Nat → Nat)
    (hNone : ∀ channel ∈ promoted.channels, promoted.selected = some channel.worker →
      s.usable incarnation channel = false) :
    ∃ choice : Option Nat,
      (s.selectUniqueUsable incarnation : SlotOutcome χ φ ε × SlotState χ φ) =
        (.unique choice, { s with slot := some { promoted with selected := choice } }) ∧
      (∀ channel, promoted.channels.filter (s.usable incarnation) = [channel] →
        choice = some channel.worker) ∧
      ((promoted.channels.filter (s.usable incarnation)).length ≠ 1 → choice = none) := by
  have hUnusable :
      ¬ (promoted.selected.bind promoted.channel).any (s.usable incarnation) = true := by
    intro hAny
    obtain ⟨channel, hChannel, hUsable⟩ := (Option.any_eq_true _ _).mp hAny
    obtain ⟨worker, hSelected, hFind⟩ := Option.bind_eq_some_iff.mp hChannel
    have hWorker : channel.worker = worker := key_of_find hFind
    have := hNone channel (List.mem_of_find?_eq_some hFind) (hSelected.trans (hWorker ▸ rfl))
    rw [this] at hUsable
    simp at hUsable
  refine ⟨if (s.countUsable incarnation promoted.channels).1 = 1 then
    (s.countUsable incarnation promoted.channels).2 else none, ?_, ?_, ?_⟩
  · unfold SlotState.selectUniqueUsable
    simp only [hSlot]
    rw [if_neg hUnusable]
  · intro channel hOne
    simp [countUsable_eq, hOne]
  · intro hNotOne
    rw [countUsable_eq]
    exact if_neg hNotOne

end SlotState

/-- **The promoted slot** after every sequence of moves. All channels and the logical
record are of one lineage, no worker occurs twice, the selection is an installed worker, a
session in the slot has a channel, and the leases held are those of the slot. A refused
`install` or `add_channel` hands back its input and changes neither slot nor leases.
`select_unique_usable` keeps a usable selection, else selects the one usable channel if
there is exactly one, else clears the selection. -/
theorem promoted_slot_sound (incarnation : Nat → Nat) (live active : Nat → Bool)
    (moves : List (SlotMove χ φ ε)) (s : SlotState χ φ)
    (hRun : s = (SlotState.new live active).run incarnation moves) :
    ((∀ promoted ∈ s.slot, promoted.Sound) ∧ s.held = s.slot.elim 0 PromotedSession.leases) ∧
    (∀ input logical entry correlation reason other,
      (s.install input logical entry correlation : SlotOutcome χ φ ε × _).1 =
        .refused reason other →
      other = input ∧ (s.install input logical entry correlation).2.slot = s.slot ∧
        (s.install input logical entry correlation).2.held = s.held) ∧
    (∀ input entry correlation reason other,
      (s.addChannel input entry correlation : SlotOutcome χ φ ε × _).1 = .refused reason other →
      other = input ∧ (s.addChannel input entry correlation).2.slot = s.slot ∧
        (s.addChannel input entry correlation).2.held = s.held) ∧
    ∀ promoted, s.slot = some promoted →
      (∀ channel ∈ promoted.channels, promoted.selected = some channel.worker →
        s.usable incarnation channel = true →
        (s.selectUniqueUsable incarnation : SlotOutcome χ φ ε × _) =
          (.unique (some channel.worker), s)) ∧
      ((∀ channel ∈ promoted.channels, promoted.selected = some channel.worker →
          s.usable incarnation channel = false) →
        ∃ choice : Option Nat, (s.selectUniqueUsable incarnation : SlotOutcome χ φ ε × _) =
            (.unique choice, { s with slot := some { promoted with selected := choice } }) ∧
          (∀ channel, promoted.channels.filter (s.usable incarnation) = [channel] →
            choice = some channel.worker) ∧
          ((promoted.channels.filter (s.usable incarnation)).length ≠ 1 → choice = none)) := by
  have hNew : (SlotState.new live active : SlotState χ φ).Sound :=
    ⟨by simp [SlotState.new], rfl⟩
  have hSound : s.Sound := hRun ▸ SlotState.Sound.run incarnation moves _ hNew
  refine ⟨⟨hSound.session, hSound.held⟩, fun _ _ _ _ _ _ h => SlotState.install_refused h,
    fun _ _ _ _ _ h => SlotState.addChannel_refused h, fun promoted hSlot => ⟨?_, ?_⟩⟩
  · intro channel hMem hSelected hUsable
    exact SlotState.selectUniqueUsable_kept (hSound.session promoted hSlot) hSlot incarnation hMem
      hSelected hUsable
  · exact SlotState.selectUniqueUsable_chosen hSlot incarnation

/-- A session is installed on worker 3, a second one is refused, worker 5 is added to the
first one, and worker 3 dies. -/
def sampleMoves : List (SlotMove Unit Unit Unit) :=
  [.install ⟨⟨(), 0⟩, 3, 3, ()⟩ none none none,
    .install ⟨⟨(), 1⟩, 4, 4, ()⟩ none (some .claimArithmetic) none,
    .addChannel ⟨⟨(), 0⟩, 5, 5, ()⟩ none none, .workerDies 3, .selectUniqueUsable]

def sampleSlot : SlotState Unit Unit :=
  (SlotState.new (fun _ => true) (fun _ => true)).run id sampleMoves

theorem promoted_slot_sound_installed : ∃ promoted, sampleSlot.slot = some promoted ∧
    promoted.channels.map PromotedChannel.worker = [3, 5] ∧
    sampleSlot.held = promoted.leases ∧
    (sampleSlot.selectUniqueUsable id : SlotOutcome Unit Unit Unit × _) =
      (.unique (some 5), sampleSlot) := by
  obtain ⟨⟨-, hHeld⟩, -, -, hSelect⟩ := promoted_slot_sound id (fun _ => true) (fun _ => true)
    sampleMoves sampleSlot rfl
  have hMem : (⟨⟨⟨(), 0⟩, 5, 5, ()⟩, 4, 5⟩ : PromotedChannel Unit Unit) ∈
      (sampleSlot.slot.elim [] PromotedSession.channels) := .tail _ (.head _)
  exact ⟨_, rfl, rfl, hHeld, (hSelect _ rfl).1 _ hMem rfl rfl⟩

end MyOwnMesh.Session
