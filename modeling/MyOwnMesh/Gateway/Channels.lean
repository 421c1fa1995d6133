import Mathlib.Data.Finset.Basic
import Mathlib.Data.Finset.Image
import Mathlib.Data.List.Nodup
import MyOwnMesh.Foundation.Transition

/-!
# Channel fan-out

The application gateway routes a frame to every live subscriber of its channel. It reserves
what all of them need before it queues anything, so that a refusal leaves every mailbox alone
and is reported to the subscribers as lag. `χ` are the payloads. The lease of the temporary
buffers lives inside the call, and the leases of the subscriptions themselves are left out. A
refusal of the temporary buffers is the one that no subscriber hears of.
-/

namespace MyOwnMesh.Gateway

open Foundation

variable {χ : Type}

/-! ## The gateway -/

/-- A queued frame with its two leases. -/
structure Delivery (χ : Type) where
  sender : String
  payload : χ
  retention : Nat
  node : Nat

/-- `ChannelSubscriber`; it is live while its subscription owns it. -/
structure ChannelSubscriber (χ : Type) where
  live : Bool
  mailbox : List (Delivery χ)
  pressure : Nat
  closed : Bool

/-- The channel registry: the subscribers of each name by number, and the leases held. -/
structure ApplicationGateway (χ : Type) where
  closed : Bool
  channels : String → List Nat
  subscriber : Nat → ChannelSubscriber χ
  issued : Nat
  held : Finset Nat
  nextLease : Nat

/-- Why an offered message was not accepted. -/
inductive GatewayRefusal where
  | noReceiver
  | malformed
  | pressure
deriving DecidableEq

/-- A frame for a channel, and the answers its reservations meet. -/
structure Offer (χ : Type) where
  name : String
  sender : String
  payload : χ
  scratchRepresentable : Bool
  scratchGranted : Bool
  entryRepresentable : Bool
  grants : Nat → Bool

/-- A copy funded for one subscriber. -/
structure PreparedDelivery where
  subscriber : Nat
  retention : Nat
  node : Nat

/-- One change for each item, at the subscriber it names. -/
def updateEach {α : Type} (items : List α) (place : α → Nat)
    (change : α → ChannelSubscriber χ → ChannelSubscriber χ)
    (subscriber : Nat → ChannelSubscriber χ) : Nat → ChannelSubscriber χ :=
  items.foldl (fun subscriber item =>
    Function.update subscriber (place item) (change item (subscriber (place item)))) subscriber

/-- The reservations for all subscribers, in turn; a refusal drops those made before. -/
def prepareDeliveries (grants : Nat → Bool) : List Nat → Finset Nat → Nat →
    Option (List PreparedDelivery) × Finset Nat × Nat
  | [], held, next => (some [], held, next)
  | subscriber :: rest, held, next =>
    if ¬ grants next then (none, held, next)
    else if ¬ grants (next + 1) then (none, (insert next held).erase next, next + 1)
    else
      match prepareDeliveries grants rest (insert (next + 1) (insert next held)) (next + 2) with
      | (some prepared, held, next') =>
        (some (⟨subscriber, next, next + 1⟩ :: prepared), held, next')
      | (none, held, next') => (none, (held.erase (next + 1)).erase next, next')

namespace ApplicationGateway

def new : ApplicationGateway χ :=
  { closed := false, channels := fun _ => [], subscriber := fun _ => ⟨false, [], 0, false⟩
    issued := 0, held := ∅, nextLease := 0 }

/-- The subscribers of a name that can receive. -/
def receivers (s : ApplicationGateway χ) (name : String) : List Nat :=
  (s.channels name).filter fun i => (s.subscriber i).live

/-- `retain_live_subscriber_count`. -/
def retainLive (s : ApplicationGateway χ) (name : String) : ApplicationGateway χ :=
  { s with channels := Function.update s.channels name (s.receivers name) }

/-- Fund one delivery per live receiver, all or none, then hand them over. -/
def acceptChannel (s : ApplicationGateway χ) (offer : Offer χ) :
    Except GatewayRefusal Unit × ApplicationGateway χ :=
  let receivers := s.receivers offer.name
  let pruned := s.retainLive offer.name
  if receivers = [] then (.error .noReceiver, pruned)
  else if ¬ offer.scratchRepresentable then (.error .malformed, pruned)
  else if ¬ offer.scratchGranted then (.error .pressure, pruned)
  else if ¬ offer.entryRepresentable then (.error .malformed, pruned)
  else
    match prepareDeliveries offer.grants receivers s.held s.nextLease with
    | (none, held, nextLease) =>
      (.error .pressure, { pruned with
        held, nextLease
        subscriber := updateEach receivers id
          (fun _ subscriber => { subscriber with
            pressure := (subscriber.pressure + 1) % 2 ^ 64 })
          s.subscriber })
    | (some prepared, held, nextLease) =>
      (.ok (), { pruned with
        held, nextLease
        subscriber := updateEach prepared PreparedDelivery.subscriber
          (fun ready subscriber => { subscriber with
            mailbox := subscriber.mailbox ++
              [⟨offer.sender, offer.payload, ready.retention, ready.node⟩] })
          s.subscriber })

/-- `subscribe_channel`, past every refusal. -/
def subscribeChannel (s : ApplicationGateway χ) (name : String) : ApplicationGateway χ :=
  { s with
    channels := Function.update s.channels name (s.channels name ++ [s.issued])
    subscriber := Function.update s.subscriber s.issued ⟨true, [], 0, false⟩
    issued := s.issued + 1 }

/-- `unsubscribe_channel`: dead candidates are dropped as well. -/
def unsubscribeChannel (s : ApplicationGateway χ) (name : String) (i : Nat) :
    ApplicationGateway χ :=
  { s with
    channels := Function.update s.channels name ((s.receivers name).filter (· ≠ i))
    subscriber := Function.update s.subscriber i { s.subscriber i with closed := true } }

/-- The subscription lets go of its subscriber; what is queued is dropped with it. -/
def dropSubscriber (s : ApplicationGateway χ) (i : Nat) : ApplicationGateway χ :=
  { s with
    subscriber := Function.update s.subscriber i
      { s.subscriber i with live := false, mailbox := [] }
    held := s.held \ ((s.subscriber i).mailbox.flatMap
      fun delivery => [delivery.retention, delivery.node]).toFinset }

/-- `close`: the registry is taken and closes its subscribers as it is dropped. A live
subscriber that is in no list was closed when it left it. -/
def close (s : ApplicationGateway χ) : ApplicationGateway χ :=
  { s with
    closed := true
    channels := fun _ => []
    subscriber := fun i =>
      { s.subscriber i with closed := (s.subscriber i).closed || (s.subscriber i).live } }

end ApplicationGateway

/-! ## Runs with their history -/

/-- The gateway, and for each subscriber the frames offered to it and not refused as
malformed, the frames and the lag that `recv` returned. -/
structure ChannelWorld (χ : Type) where
  gateway : ApplicationGateway χ
  offered : Nat → Nat
  returned : Nat → Nat
  reported : Nat → Nat

/-- The calls; `recv` looks at the lag and at the mailbox in two steps. -/
inductive ChannelMove (χ : Type) where
  | accept (offer : Offer χ)
  | subscribe (name : String)
  | unsubscribe (name : String) (i : Nat)
  | dropSubscriber (i : Nat)
  | recvLag (i : Nat)
  | recvFrame (i : Nat)
  | close

namespace ChannelWorld

def new : ChannelWorld χ := ⟨.new, fun _ => 0, fun _ => 0, fun _ => 0⟩

/-- One move; `none` where it is not possible. -/
def step (s : ChannelWorld χ) : ChannelMove χ → Option (ChannelWorld χ)
  | .accept offer =>
    let result := s.gateway.acceptChannel offer
    some { s with
      gateway := result.2
      offered := fun i => if i ∈ s.gateway.receivers offer.name ∧ result.1 ≠ .error .malformed
        then s.offered i + 1 else s.offered i }
  | .subscribe name =>
    if s.gateway.closed then none else some { s with gateway := s.gateway.subscribeChannel name }
  | .unsubscribe name i =>
    if (s.gateway.subscriber i).live then
      some { s with gateway := s.gateway.unsubscribeChannel name i }
    else none
  | .dropSubscriber i =>
    if (s.gateway.subscriber i).live then some { s with gateway := s.gateway.dropSubscriber i }
    else none
  | .recvLag i =>
    let subscriber := s.gateway.subscriber i
    if subscriber.live then some { s with
      gateway := { s.gateway with
        subscriber := Function.update s.gateway.subscriber i { subscriber with pressure := 0 } }
      reported := Function.update s.reported i (s.reported i + subscriber.pressure) }
    else none
  | .recvFrame i =>
    let subscriber := s.gateway.subscriber i
    match subscriber.mailbox with
    | [] => none
    -- The node goes with its lease, the retention leaves with the frame.
    | delivery :: mailbox => some { s with
        gateway := { s.gateway with
          subscriber := Function.update s.gateway.subscriber i { subscriber with mailbox }
          held := s.gateway.held.erase delivery.node }
        returned := Function.update s.returned i (s.returned i + 1) }
  | .close => some { s with gateway := s.gateway.close }

end ChannelWorld

/-! ## Changes at several subscribers -/

section Each

variable {α : Type} {place : α → Nat} {change : α → ChannelSubscriber χ → ChannelSubscriber χ}

theorem updateEach_of_not_mem (items : List α) :
    ∀ (subscriber : Nat → ChannelSubscriber χ) {i : Nat}, i ∉ items.map place →
      updateEach items place change subscriber i = subscriber i := by
  induction items with
  | nil => exact fun _ _ _ => rfl
  | cons item items ih =>
    intro subscriber i hi
    rw [List.map_cons, List.mem_cons, not_or] at hi
    show updateEach items place change (Function.update subscriber (place item) _) i = _
    rw [ih _ hi.2, Function.update_of_ne hi.1]

theorem updateEach_of_mem (items : List α) :
    ∀ (subscriber : Nat → ChannelSubscriber χ), (items.map place).Nodup → ∀ item ∈ items,
      updateEach items place change subscriber (place item) =
        change item (subscriber (place item)) := by
  induction items with
  | nil => simp
  | cons first items ih =>
    intro subscriber hNodup item hItem
    obtain ⟨hFirst, hRest⟩ := List.nodup_cons.mp hNodup
    show updateEach items place change (Function.update subscriber (place first) _) (place item) = _
    rcases List.mem_cons.mp hItem with rfl | hLater
    · rw [updateEach_of_not_mem items _ hFirst, Function.update_self]
    · have hNe : place item ≠ place first := fun hSame =>
        hFirst (hSame ▸ List.mem_map_of_mem hLater)
      rw [ih _ hRest item hLater, Function.update_of_ne hNe]

end Each

/-! ## Reservations -/

/-- All reservations are made, one pair for each subscriber, or none is kept. -/
theorem prepareDeliveries_spec (grants : Nat → Bool) (subscribers : List Nat) :
    ∀ (held : Finset Nat) (next : Nat), (∀ lease ∈ held, lease < next) →
      (∀ lease ∈ (prepareDeliveries grants subscribers held next).2.1,
        lease < (prepareDeliveries grants subscribers held next).2.2) ∧
      (∀ prepared, (prepareDeliveries grants subscribers held next).1 = some prepared →
        prepared.map PreparedDelivery.subscriber = subscribers) ∧
      ((prepareDeliveries grants subscribers held next).1 = none →
        (prepareDeliveries grants subscribers held next).2.1 = held) := by
  induction subscribers with
  | nil =>
    intro held next hHeld
    exact ⟨hHeld, by rintro prepared ⟨⟩; rfl, by rintro ⟨⟩⟩
  | cons subscriber rest ih =>
    intro held next hHeld
    have hNext : next ∉ held := fun hMem => (hHeld next hMem).false
    have hSecond : next + 1 ∉ insert next held := by
      rw [Finset.mem_insert, not_or]
      exact ⟨by omega, fun hMem => absurd (hHeld _ hMem) (by omega)⟩
    have hBoth : ∀ lease ∈ insert (next + 1) (insert next held), lease < next + 2 := by
      intro lease hLease
      rw [Finset.mem_insert, Finset.mem_insert] at hLease
      rcases hLease with rfl | rfl | hOld
      · omega
      · omega
      · exact (hHeld lease hOld).trans (by omega)
    rw [prepareDeliveries]
    split
    · exact ⟨hHeld, by rintro prepared ⟨⟩, fun _ => rfl⟩
    · split
      · dsimp only
        rw [Finset.erase_insert hNext]
        exact ⟨fun lease hLease => (hHeld lease hLease).trans (by omega), by rintro prepared ⟨⟩,
          fun _ => rfl⟩
      · obtain ⟨hAfter, hSome, hNone⟩ := ih _ _ hBoth
        split
        · next prepared held' next' hRest =>
          rw [hRest] at hAfter hSome
          refine ⟨hAfter, ?_, by rintro ⟨⟩⟩
          rintro all ⟨⟩
          rw [List.map_cons, hSome prepared rfl]
        · next held' next' hRest =>
          rw [hRest] at hAfter hNone
          refine ⟨fun lease hLease => hAfter lease ?_, by rintro all ⟨⟩, fun _ => ?_⟩
          · exact Finset.mem_of_mem_erase (Finset.mem_of_mem_erase hLease)
          · have hHeld' : held' = insert (next + 1) (insert next held) := hNone rfl
            show (held'.erase (next + 1)).erase next = held
            rw [hHeld', Finset.erase_insert hSecond, Finset.erase_insert hNext]

/-! ## One frame -/

/-- What `accept_channel` does to the subscribers. -/
structure FanOut (s : ApplicationGateway χ) (offer : Offer χ)
    (result : Except GatewayRefusal Unit × ApplicationGateway χ) : Prop where
  channels : result.2.channels = (s.retainLive offer.name).channels
  issued : result.2.issued = s.issued
  leases : ∀ lease ∈ result.2.held, lease < result.2.nextLease
  others : ∀ i, i ∉ s.receivers offer.name → result.2.subscriber i = s.subscriber i
  accepted : result.1 = .ok () → ∀ i ∈ s.receivers offer.name, ∃ retention node,
    result.2.subscriber i = { s.subscriber i with mailbox :=
      (s.subscriber i).mailbox ++ [⟨offer.sender, offer.payload, retention, node⟩] }
  lagged : result.1 = .error .pressure → offer.scratchGranted = true →
    ∀ i ∈ s.receivers offer.name, result.2.subscriber i =
      { s.subscriber i with pressure := ((s.subscriber i).pressure + 1) % 2 ^ 64 }
  refused : ∀ refusal, result.1 = .error refusal → result.2.held = s.held ∧
    (refusal = .noReceiver ∨ refusal = .malformed → result.2.subscriber = s.subscriber)
  reached : result.1 = .error .noReceiver → s.receivers offer.name = []

/-- What an offered message does to the subscribers. -/
theorem acceptChannel_fanOut (s : ApplicationGateway χ) (offer : Offer χ)
    (hNodup : (s.channels offer.name).Nodup) (hLeases : ∀ lease ∈ s.held, lease < s.nextLease) :
    FanOut s offer (s.acceptChannel offer) := by
  have hReceivers : (s.receivers offer.name).Nodup := hNodup.filter _
  obtain ⟨hHeld, hSome, hNone⟩ :=
    prepareDeliveries_spec offer.grants (s.receivers offer.name) s.held s.nextLease hLeases
  unfold ApplicationGateway.acceptChannel
  dsimp only
  split
  · next hEmpty =>
    exact ⟨rfl, rfl, hLeases, fun _ _ => rfl, by simp, by simp, fun _ _ => ⟨rfl, fun _ => rfl⟩,
      fun _ => hEmpty⟩
  · split
    · exact ⟨rfl, rfl, hLeases, fun _ _ => rfl, by simp, by simp, fun _ _ => ⟨rfl, fun _ => rfl⟩,
        by simp⟩
    · split
      · next hScratch =>
        exact ⟨rfl, rfl, hLeases, fun _ _ => rfl, by simp,
          fun _ hGranted => absurd hGranted hScratch, fun _ _ => ⟨rfl, fun _ => rfl⟩, by simp⟩
      · split
        · exact ⟨rfl, rfl, hLeases, fun _ _ => rfl, by simp, by simp,
            fun _ _ => ⟨rfl, fun _ => rfl⟩, by simp⟩
        · split
          · next held nextLease hPrepared =>
            rw [hPrepared] at hHeld hNone
            refine ⟨rfl, rfl, hHeld, fun i hi => ?_, by simp, fun _ _ i hi => ?_, ?_, by simp⟩
            · dsimp only
              rw [updateEach_of_not_mem]
              rwa [List.map_id]
            · dsimp only
              have hIds : ((s.receivers offer.name).map id).Nodup := by rwa [List.map_id]
              exact updateEach_of_mem _ s.subscriber hIds i hi
            · rintro refusal ⟨⟩
              exact ⟨hNone rfl, by simp⟩
          · next prepared held nextLease hPrepared =>
            rw [hPrepared] at hHeld hSome
            have hNames := hSome prepared rfl
            refine ⟨rfl, rfl, hHeld, fun i hi => ?_, fun _ i hi => ?_, by simp, by simp, by simp⟩
            · dsimp only
              rw [updateEach_of_not_mem]
              rwa [hNames]
            · rw [← hNames] at hi
              obtain ⟨ready, hReady, rfl⟩ := List.mem_map.mp hi
              refine ⟨ready.retention, ready.node, ?_⟩
              dsimp only
              rw [updateEach_of_mem prepared s.subscriber (hNames ▸ hReceivers) ready hReady]

/-! ## Whole runs -/

/-- The temporary buffers of the call are paid for, and no lag counter is about to wrap. -/
def Counted (s : ChannelWorld χ) : ChannelMove χ → Prop
  | .accept offer => offer.scratchGranted = true ∧
    ∀ i ∈ s.gateway.receivers offer.name, (s.gateway.subscriber i).pressure + 1 < 2 ^ 64
  | _ => True

instance (s : ChannelWorld χ) (move : ChannelMove χ) : Decidable (Counted s move) := by
  cases move <;> unfold Counted <;> infer_instance

namespace ChannelWorld

variable {s t : ChannelWorld χ}

/-- Every frame offered to a live subscriber is accounted for. -/
structure Sound (s : ChannelWorld χ) : Prop where
  nodup : ∀ name, (s.gateway.channels name).Nodup
  known : ∀ name, ∀ i ∈ s.gateway.channels name, i < s.gateway.issued
  fresh : ∀ i, s.gateway.issued ≤ i → (s.gateway.subscriber i).live = false ∧
    (s.gateway.subscriber i).mailbox = [] ∧ s.offered i = 0 ∧ s.returned i = 0 ∧ s.reported i = 0
  leases : ∀ lease ∈ s.gateway.held, lease < s.gateway.nextLease
  balance : ∀ i, (s.gateway.subscriber i).live = true →
    s.returned i + (s.gateway.subscriber i).mailbox.length + s.reported i +
      (s.gateway.subscriber i).pressure = s.offered i

theorem new_sound : (new : ChannelWorld χ).Sound :=
  ⟨by simp [new, ApplicationGateway.new], by simp [new, ApplicationGateway.new],
    by simp [new, ApplicationGateway.new], by simp [new, ApplicationGateway.new],
    by simp [new, ApplicationGateway.new]⟩

theorem mem_receivers {g : ApplicationGateway χ} {name : String} {i : Nat} :
    i ∈ g.receivers name ↔ i ∈ g.channels name ∧ (g.subscriber i).live = true := by
  simp [ApplicationGateway.receivers]

theorem Sound.accept (h : s.Sound) (offer : Offer χ) (hCounted : Counted s (.accept offer))
    (hStep : s.step (.accept offer) = some t) : t.Sound := by
  obtain rfl := Option.some.inj hStep
  obtain ⟨hScratch, hRoom⟩ := hCounted
  have hFan := acceptChannel_fanOut s.gateway offer (h.nodup offer.name) h.leases
  have hSublist : ∀ name, ((s.gateway.acceptChannel offer).2.channels name).Sublist
      (s.gateway.channels name) := by
    intro name
    rw [hFan.channels]
    by_cases hName : name = offer.name
    · subst hName
      simp [ApplicationGateway.retainLive, ApplicationGateway.receivers]
    · simp [ApplicationGateway.retainLive, hName]
  have hOut : ∀ i, s.gateway.issued ≤ i → i ∉ s.gateway.receivers offer.name := fun i hi hMem =>
    absurd (h.known _ i (mem_receivers.mp hMem).1) (not_lt.mpr hi)
  refine ⟨fun name => (hSublist name).nodup (h.nodup name),
    fun name i hi => hFan.issued ▸ h.known name i ((hSublist name).subset hi),
    fun i hi => ?_, hFan.leases, fun i hLive => ?_⟩
  · have hi : s.gateway.issued ≤ i := hFan.issued ▸ hi
    obtain ⟨hDead, hEmpty, hZero⟩ := h.fresh i hi
    dsimp only
    rw [hFan.others i (hOut i hi), if_neg fun hBoth => hOut i hi hBoth.1]
    exact ⟨hDead, hEmpty, hZero⟩
  · dsimp only at hLive ⊢
    by_cases hMem : i ∈ s.gateway.receivers offer.name
    · have hBalance := h.balance i (mem_receivers.mp hMem).2
      cases hResult : (s.gateway.acceptChannel offer).1 with
      | ok accepted =>
        obtain ⟨retention, node, hAfter⟩ := hFan.accepted hResult i hMem
        rw [hAfter, if_pos ⟨hMem, by simp⟩]
        simp only [List.length_append, List.length_singleton]
        omega
      | error refusal =>
        cases refusal with
        | noReceiver =>
          rw [hFan.reached hResult] at hMem
          exact absurd hMem List.not_mem_nil
        | malformed =>
          rw [(hFan.refused _ hResult).2 (.inr rfl), if_neg (by simp)]
          exact hBalance
        | pressure =>
          rw [hFan.lagged hResult hScratch i hMem, if_pos ⟨hMem, by simp⟩]
          dsimp only
          rw [Nat.mod_eq_of_lt (hRoom i hMem)]
          omega
    · rw [hFan.others i hMem] at hLive ⊢
      rw [if_neg fun hBoth => hMem hBoth.1]
      exact h.balance i hLive

theorem Sound.lt_issued {i : Nat} (h : s.Sound) (hLive : (s.gateway.subscriber i).live = true) :
    i < s.gateway.issued := by
  by_contra hFresh
  rw [(h.fresh i (not_lt.mp hFresh)).1] at hLive
  exact Bool.noConfusion hLive

/-- A step at one subscriber that was issued. -/
theorem Sound.change {i : Nat} (h : s.Sound)
    (hChannels : ∀ name, (t.gateway.channels name).Sublist (s.gateway.channels name))
    (hIssued : t.gateway.issued = s.gateway.issued)
    (hLeases : t.gateway.nextLease = s.gateway.nextLease) (hHeld : t.gateway.held ⊆ s.gateway.held)
    (hOffered : t.offered = s.offered)
    (hOthers : ∀ j, j ≠ i → t.gateway.subscriber j = s.gateway.subscriber j ∧
      t.returned j = s.returned j ∧ t.reported j = s.reported j)
    (hKnown : i < s.gateway.issued)
    (hBalance : (t.gateway.subscriber i).live = true →
      t.returned i + (t.gateway.subscriber i).mailbox.length + t.reported i +
        (t.gateway.subscriber i).pressure = s.offered i) : t.Sound := by
  refine ⟨fun name => (hChannels name).nodup (h.nodup name), fun name j hj => ?_, fun j hj => ?_,
    fun lease hLease => hLeases ▸ h.leases lease (hHeld hLease), fun j hLive => ?_⟩
  · rw [hIssued]
    exact h.known name j ((hChannels name).subset hj)
  · rw [hIssued] at hj
    obtain ⟨hSub, hReturned, hReported⟩ := hOthers j (by omega)
    rw [hSub, hOffered, hReturned, hReported]
    exact h.fresh j hj
  · rw [hOffered]
    by_cases hSame : j = i
    · subst hSame
      exact hBalance hLive
    · obtain ⟨hSub, hReturned, hReported⟩ := hOthers j hSame
      rw [hSub] at hLive
      rw [hSub, hReturned, hReported]
      exact h.balance j hLive

theorem Sound.subscribe (h : s.Sound) (name : String) :
    Sound { s with gateway := s.gateway.subscribeChannel name } := by
  have hNew : s.gateway.issued ∉ s.gateway.channels name := fun hMem =>
    (h.known name _ hMem).false
  refine ⟨fun other => ?_, fun other i hi => ?_, fun i hi => ?_, h.leases, fun i hLive => ?_⟩
  · by_cases hName : other = name
    · subst hName
      simp only [ApplicationGateway.subscribeChannel, Function.update_self]
      exact List.nodup_append.mpr ⟨h.nodup other, List.nodup_singleton _, by
        rintro i hi j hj rfl
        exact hNew (List.mem_singleton.mp hj ▸ hi)⟩
    · simpa [ApplicationGateway.subscribeChannel, hName] using h.nodup other
  · show i < s.gateway.issued + 1
    by_cases hName : other = name
    · subst hName
      simp only [ApplicationGateway.subscribeChannel, Function.update_self, List.mem_append,
        List.mem_singleton] at hi
      rcases hi with hOld | rfl
      · exact (h.known other i hOld).trans (Nat.lt_succ_self _)
      · exact Nat.lt_succ_self _
    · simp only [ApplicationGateway.subscribeChannel, Function.update_of_ne hName] at hi
      exact (h.known other i hi).trans (Nat.lt_succ_self _)
  · have hi : s.gateway.issued + 1 ≤ i := hi
    have hNe : i ≠ s.gateway.issued := by omega
    simp only [ApplicationGateway.subscribeChannel, Function.update_of_ne hNe]
    exact h.fresh i (by omega)
  · by_cases hSame : i = s.gateway.issued
    · obtain ⟨-, -, hOffered, hReturned, hReported⟩ := h.fresh i hSame.ge
      simp only [ApplicationGateway.subscribeChannel, hSame, Function.update_self]
      simp only [hSame] at hOffered hReturned hReported
      simp [hOffered, hReturned, hReported]
    · simp only [ApplicationGateway.subscribeChannel, Function.update_of_ne hSame] at hLive ⊢
      exact h.balance i hLive

/-- **Every move keeps the invariant.** -/
theorem Sound.step (h : s.Sound) {move : ChannelMove χ} (hCounted : Counted s move)
    (hStep : s.step move = some t) : t.Sound := by
  cases move with
  | accept offer => exact h.accept offer hCounted hStep
  | subscribe name =>
    obtain ⟨-, hStep⟩ := Option.ite_none_left_eq_some.mp hStep
    obtain rfl := Option.some.inj hStep
    exact h.subscribe name
  | unsubscribe name i =>
    obtain ⟨hLive, hStep⟩ := Option.ite_none_right_eq_some.mp hStep
    obtain rfl := Option.some.inj hStep
    refine h.change (fun other => ?_) rfl rfl (Finset.Subset.refl _) rfl (fun j hj => ?_)
      (h.lt_issued hLive) (fun _ => ?_)
    · by_cases hName : other = name
      · subst hName
        simp only [ApplicationGateway.unsubscribeChannel, Function.update_self]
        exact List.filter_sublist.trans List.filter_sublist
      · simp [ApplicationGateway.unsubscribeChannel, hName]
    · simp [ApplicationGateway.unsubscribeChannel, hj]
    · simpa [ApplicationGateway.unsubscribeChannel] using h.balance i hLive
  | dropSubscriber i =>
    obtain ⟨hLive, hStep⟩ := Option.ite_none_right_eq_some.mp hStep
    obtain rfl := Option.some.inj hStep
    refine h.change (fun other => List.Sublist.refl _) rfl rfl Finset.sdiff_subset rfl
      (fun j hj => ?_) (h.lt_issued hLive) (fun hAfter => ?_)
    · simp [ApplicationGateway.dropSubscriber, hj]
    · simp [ApplicationGateway.dropSubscriber] at hAfter
  | recvLag i =>
    obtain ⟨hLive, hStep⟩ := Option.ite_none_right_eq_some.mp hStep
    obtain rfl := Option.some.inj hStep
    refine h.change (fun other => List.Sublist.refl _) rfl rfl (Finset.Subset.refl _) rfl
      (fun j hj => ?_) (h.lt_issued hLive) (fun _ => ?_)
    · simp [hj]
    · have hBalance := h.balance i hLive
      simp only [Function.update_self]
      omega
  | recvFrame i =>
    unfold ChannelWorld.step at hStep
    dsimp only at hStep
    split at hStep
    · cases hStep
    · next delivery mailbox hMailbox =>
      obtain rfl := Option.some.inj hStep
      have hKnown : i < s.gateway.issued := by
        by_contra hFresh
        rw [(h.fresh i (not_lt.mp hFresh)).2.1] at hMailbox
        cases hMailbox
      refine h.change (fun other => List.Sublist.refl _) rfl rfl (Finset.erase_subset ..) rfl
        (fun j hj => ?_) hKnown (fun hLive => ?_)
      · simp [hj]
      · simp only [Function.update_self] at hLive ⊢
        have hBalance := h.balance i hLive
        rw [hMailbox, List.length_cons] at hBalance
        omega
  | close =>
    obtain rfl := Option.some.inj hStep
    exact ⟨fun _ => List.nodup_nil, fun _ _ hMem => absurd hMem List.not_mem_nil, h.fresh, h.leases,
      h.balance⟩

theorem sound (h : Runs ChannelWorld.step Counted new s) : s.Sound :=
  Runs.invariant (fun _ _ _ hSound hCounted hStep => hSound.step hCounted hStep) new_sound h

end ChannelWorld

/-- While the temporary buffers are paid for, a frame reaches the mailbox of every live
subscriber of its channel or of none, a refusal for pressure is counted by each of them and
keeps no lease, and what a live subscriber was offered is what it got, what waits for it, and
the lag it was or will be told. -/
theorem channel_fanOut_accounted (s : ChannelWorld χ)
    (hRun : Runs ChannelWorld.step Counted .new s) (offer : Offer χ)
    (hCounted : Counted s (.accept offer)) :
    ((s.gateway.acceptChannel offer).1 = .ok () → ∀ i,
      (i ∈ s.gateway.receivers offer.name → ∃ retention node,
        ((s.gateway.acceptChannel offer).2.subscriber i).mailbox =
          (s.gateway.subscriber i).mailbox ++
            [⟨offer.sender, offer.payload, retention, node⟩]) ∧
      (i ∉ s.gateway.receivers offer.name →
        (s.gateway.acceptChannel offer).2.subscriber i = s.gateway.subscriber i)) ∧
    ((s.gateway.acceptChannel offer).1 = .error .pressure →
      (s.gateway.acceptChannel offer).2.held = s.gateway.held ∧ ∀ i,
        ((s.gateway.acceptChannel offer).2.subscriber i).mailbox =
          (s.gateway.subscriber i).mailbox ∧
        ((s.gateway.acceptChannel offer).2.subscriber i).pressure =
          (s.gateway.subscriber i).pressure +
            if i ∈ s.gateway.receivers offer.name then 1 else 0) ∧
    ∀ i, (s.gateway.subscriber i).live = true →
      s.returned i + (s.gateway.subscriber i).mailbox.length + s.reported i +
        (s.gateway.subscriber i).pressure = s.offered i := by
  have h := ChannelWorld.sound hRun
  have hFan := acceptChannel_fanOut s.gateway offer (h.nodup offer.name) h.leases
  refine ⟨fun hOk i => ⟨fun hMem => ?_, hFan.others i⟩,
    fun hPressure => ⟨(hFan.refused _ hPressure).1, fun i => ?_⟩, h.balance⟩
  · obtain ⟨retention, node, hAfter⟩ := hFan.accepted hOk i hMem
    exact ⟨retention, node, by rw [hAfter]⟩
  · by_cases hMem : i ∈ s.gateway.receivers offer.name
    · rw [hFan.lagged hPressure hCounted.1 i hMem, if_pos hMem]
      exact ⟨rfl, Nat.mod_eq_of_lt (hCounted.2 i hMem)⟩
    · rw [hFan.others i hMem, if_neg hMem]
      exact ⟨rfl, rfl⟩

/-- A frame for `room` that meets these answers of the provider. -/
def sampleOffer (scratchGranted : Bool) (grants : Nat → Bool) : Offer Nat :=
  ⟨"room", "alice", 7, true, scratchGranted, true, grants⟩

/-- Two subscribers, and a frame that both get. -/
def sampleWorld : ChannelWorld Nat :=
  (play ChannelWorld.step Counted .new
    [.subscribe "room", .subscribe "room", .accept (sampleOffer true fun _ => true)]).getD .new

/-- The next frame is refused at the second node; the first subscriber sees lag only. -/
theorem channel_fanOut_accounted_second_node :
    (sampleWorld.gateway.acceptChannel (sampleOffer true (· ≠ 7))).1 = .error .pressure ∧
    ((sampleWorld.gateway.acceptChannel (sampleOffer true (· ≠ 7))).2.subscriber 0).pressure =
      1 := by
  have hRun : Runs ChannelWorld.step Counted .new sampleWorld :=
    Runs.play_getD _ _ (by decide +kernel)
  have hPressure :
      (sampleWorld.gateway.acceptChannel (sampleOffer true (· ≠ 7))).1 = .error .pressure := by
    decide +kernel
  have hLag := ((channel_fanOut_accounted sampleWorld hRun (sampleOffer true (· ≠ 7))
    (by decide +kernel)).2.1 hPressure).2 0
  exact ⟨hPressure, hLag.2.trans (by decide +kernel)⟩

/-- Without the buffers the frame is gone and the subscriber never hears of it. -/
theorem channel_loss_silent :
    ∃ s : ChannelWorld Nat, Runs ChannelWorld.step (fun _ _ => True) .new s ∧
      ∃ offer : Offer Nat, s.gateway.receivers offer.name = [0] ∧
        (s.gateway.acceptChannel offer).1 = .error .pressure ∧
        ((s.gateway.acceptChannel offer).2.subscriber 0).pressure = 0 ∧
        ((s.gateway.acceptChannel offer).2.subscriber 0).mailbox.length = 0 :=
  ⟨(play ChannelWorld.step (fun _ _ => True) .new [.subscribe "room"]).getD .new,
    Runs.play_getD _ _ rfl, sampleOffer false fun _ => true, by decide +kernel,
    by decide +kernel, by decide +kernel, by decide +kernel⟩

end MyOwnMesh.Gateway
