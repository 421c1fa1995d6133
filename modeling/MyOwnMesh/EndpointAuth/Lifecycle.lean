import Mathlib.Data.List.Induction
import MyOwnMesh.EndpointAuth.Task

/-!
# The lifecycle of an endpoint-authentication task

What holds along every sequence of calls on one task. `Outcome` says once what a
call can do; `Recorded` relates the state of the task to the calls it has answered,
and each outcome keeps it.
-/

namespace MyOwnMesh.EndpointAuth

/-! ## Sequences of calls -/

/-- The entry points of a task. -/
inductive Call where
  | hello (peerContribution : String)
  | proof (peerSignature : String)
  | retire
deriving DecidableEq

/-- What a call returns. -/
inductive Reply where
  | hello (answer : Except EndpointAuthError AcceptedPeerHello)
  | proof (answer : Except EndpointAuthError PeerProofAcceptance)
  | retired

/-- A call with its answer, its effects and what `isRetired` says after it. -/
structure Entry where
  call : Call
  reply : Reply
  effects : List Effect
  retired : Bool

/-- The cause a call records if none is recorded yet. -/
def Reply.cause : Reply → Option EndpointAuthError
  | .hello (.error e) => some e
  | .proof (.error e) => some e
  | .retired => some .channelNotCurrent
  | _ => none

namespace Entry

def signings (entry : Entry) : List (String × List UInt8) :=
  entry.effects.filterMap fun
    | .signed device message => some (device, message)
    | _ => none

def handoffs (entry : Entry) : List ConnectedChannelHandoff :=
  entry.effects.filterMap fun
    | .moved handoff => some handoff
    | .released handoff => some handoff
    | _ => none

def accepted (entry : Entry) : List (String × String) :=
  match entry.call, entry.reply with
  | .hello contribution, .hello (.ok hello) => [(contribution, hello.proof)]
  | _, _ => []

def promotions (entry : Entry) : List AuthenticatedChannelCapability :=
  match entry.reply with
  | .proof (.ok (.promoted capability)) => [capability]
  | _ => []

end Entry

def signings (trace : List Entry) : List (String × List UInt8) := trace.flatMap Entry.signings

def handoffs (trace : List Entry) : List ConnectedChannelHandoff := trace.flatMap Entry.handoffs

def accepted (trace : List Entry) : List (String × String) := trace.flatMap Entry.accepted

def promotions (trace : List Entry) : List AuthenticatedChannelCapability :=
  trace.flatMap Entry.promotions

def firstCause (trace : List Entry) : Option EndpointAuthError :=
  trace.findSome? fun entry => entry.reply.cause

namespace EndpointAuthTask

variable [EndpointCrypto]

/-- One call with what it records. -/
def perform (task : EndpointAuthTask) : Call → Entry × EndpointAuthTask
  | .hello contribution =>
    let result := task.acceptPeerHello contribution
    (⟨.hello contribution, .hello result.1, result.2.2, result.2.1.isRetired⟩, result.2.1)
  | .proof signature =>
    let result := task.acceptPeerProof signature
    (⟨.proof signature, .proof result.1, result.2.2, result.2.1.isRetired⟩, result.2.1)
  | .retire =>
    let result := task.retire
    (⟨.retire, .retired, result.2, result.1.isRetired⟩, result.1)

def trace : EndpointAuthTask → List Call → List Entry
  | _, [] => []
  | task, call :: calls => (task.perform call).1 :: (task.perform call).2.trace calls

def after : EndpointAuthTask → List Call → EndpointAuthTask
  | task, [] => task
  | task, call :: calls => (task.perform call).2.after calls

end EndpointAuthTask

section Traces

variable [EndpointCrypto]

theorem trace_concat (task : EndpointAuthTask) (calls : List Call) (call : Call) :
    task.trace (calls ++ [call]) = task.trace calls ++ [((task.after calls).perform call).1] ∧
      task.after (calls ++ [call]) = ((task.after calls).perform call).2 := by
  induction calls generalizing task with
  | nil => exact ⟨rfl, rfl⟩
  | cons first calls ih =>
    obtain ⟨hTrace, hAfter⟩ := ih (task.perform first).2
    exact ⟨congrArg (List.cons _) hTrace, hAfter⟩

variable {task : EndpointAuthTask}

/-- An entry of a trace is the answer of the task after the calls before it. -/
theorem trace_split {calls : List Call} {earlier later : List Entry} {entry : Entry}
    (h : task.trace calls = earlier ++ entry :: later) :
    ∃ prior call, earlier = task.trace prior ∧ entry = ((task.after prior).perform call).1 := by
  induction earlier generalizing task calls with
  | nil =>
    cases calls with
    | nil => cases h
    | cons call calls => exact ⟨[], call, rfl, (List.cons.inj h).1.symm⟩
  | cons first earlier ih =>
    cases calls with
    | nil => cases h
    | cons call calls =>
      obtain ⟨hFirst, hRest⟩ := List.cons.inj h
      obtain ⟨prior, next, hPrior, hEntry⟩ := ih hRest
      refine ⟨call :: prior, next, ?_, hEntry⟩
      rw [hPrior, ← hFirst]
      rfl

/-! ## What a call can do -/

/-- What a call can record, with the task it leaves. -/
inductive Outcome (task : EndpointAuthTask) : Entry → EndpointAuthTask → Prop
  /-- An exact duplicate is answered from the cache. -/
  | repeated (bound proof : String) : (task.state = .bound bound proof ∨
      ∃ issued, task.state = .promoted bound proof issued) →
      Outcome task ⟨.hello bound, .hello (.ok (.exactDuplicate proof)), [], task.retired⟩ task
  | already (bound proof signature : String) (issued : IssuedIdentity) :
      task.state = .promoted bound proof issued →
      Outcome task ⟨.proof signature, .proof (.ok .alreadyPromoted), [], task.retired⟩ task
  /-- A terminal task answers with the cause it recorded. -/
  | refused (call : Call) (reply : Reply) (error : EndpointAuthError) :
      task.state = .terminal error → reply = .hello (.error error) ∨ reply = .proof (.error error) →
      Outcome task ⟨call, reply, [], task.retired⟩ task
  | retiredAgain (error : EndpointAuthError) : task.state = .terminal error →
      Outcome task ⟨.retire, .retired, [], true⟩ { task with retired := true }
  | bind (contribution : String) : task.state = .awaitingPeerContribution →
      task.context.localDeviceId ≠ task.context.expectedRemoteDeviceId →
      Outcome task
        ⟨.hello contribution,
          .hello (.ok (.firstBinding (EndpointCrypto.sign task.signer
            (task.localTranscript contribution)))),
          [.signed task.signer (task.localTranscript contribution)], task.retired⟩
        { task with
          state := .bound contribution
            (EndpointCrypto.sign task.signer (task.localTranscript contribution)) }
  | promote (bound proof signature : String) (handoff : ConnectedChannelHandoff)
      (capability : AuthenticatedChannelCapability) (issued : IssuedIdentity) :
      task.state = .bound bound proof → task.handoff = some handoff →
      EndpointCrypto.verify task.context.expectedRemoteDeviceId (task.peerTranscript bound)
        signature = true →
      Outcome task
        ⟨.proof signature, .proof (.ok (.promoted capability)), [.moved handoff], task.retired⟩
        { task with handoff := none, state := .promoted bound proof issued }
  /-- The task ends; a held channel is released. -/
  | ended (call : Call) (reply : Reply) (cause : EndpointAuthError) :
      (∀ error, task.state ≠ .terminal error) → reply.cause = some cause →
      Outcome task ⟨call, reply, task.handoff.toList.map Effect.released, true⟩
        { task with retired := true, handoff := none, state := .terminal cause }

omit [EndpointCrypto] in
theorem terminalize_of_not_terminal (cause : EndpointAuthError)
    (h : ∀ error, task.state ≠ .terminal error) :
    task.terminalize cause = (cause,
      { task with retired := true, handoff := none, state := .terminal cause },
      task.handoff.toList.map Effect.released) := by
  unfold EndpointAuthTask.terminalize
  cases hState : task.state with
  | terminal error => exact absurd hState (h error)
  | awaitingPeerContribution => rfl
  | bound contribution proof => rfl
  | promoted contribution proof issued => rfl

omit [EndpointCrypto] in
theorem refuse_of_not_terminal {α : Type} (cause : EndpointAuthError)
    (h : ∀ error, task.state ≠ .terminal error) :
    (task.refuse cause : Except EndpointAuthError α × EndpointAuthTask × List Effect) =
      (.error cause, { task with retired := true, handoff := none, state := .terminal cause },
        task.handoff.toList.map Effect.released) := by
  unfold EndpointAuthTask.refuse
  rw [terminalize_of_not_terminal cause h]

/-- A Hello binds, repeats or ends the task. -/
theorem hello_outcome (task : EndpointAuthTask) (contribution : String) :
    Outcome task (task.perform (.hello contribution)).1 (task.perform (.hello contribution)).2 := by
  unfold EndpointAuthTask.perform EndpointAuthTask.acceptPeerHello
  cases hState : task.state with
  | terminal error => exact .refused _ _ error hState (.inl rfl)
  | bound bound proof =>
    by_cases hSame : bound = contribution
    · subst hSame
      simp only [if_pos]
      exact .repeated bound proof (.inl hState)
    · simp only [if_neg hSame]
      rw [refuse_of_not_terminal _ (by simp [hState])]
      exact .ended _ _ .conflictingPeerContribution (by simp [hState]) rfl
  | promoted bound proof issued =>
    by_cases hSame : bound = contribution
    · subst hSame
      simp only [if_pos]
      exact .repeated bound proof (.inr ⟨issued, hState⟩)
    · simp only [if_neg hSame]
      rw [refuse_of_not_terminal _ (by simp [hState])]
      exact .ended _ _ .conflictingPeerContribution (by simp [hState]) rfl
  | awaitingPeerContribution =>
    by_cases hFresh : contribution = task.localContribution
    · simp only [if_pos hFresh]
      rw [refuse_of_not_terminal _ (by simp [hState])]
      exact .ended _ _ .contributionNotFresh (by simp [hState]) rfl
    · by_cases hMutual : task.context.localDeviceId = task.context.expectedRemoteDeviceId
      · simp only [if_neg hFresh, if_pos hMutual]
        rw [refuse_of_not_terminal _ (by simp [hState])]
        exact .ended _ _ .notMutual (by simp [hState]) rfl
      · simp only [if_neg hFresh, if_neg hMutual]
        exact .bind contribution hState hMutual

/-- A proof promotes, repeats or ends the task. -/
theorem proof_outcome (task : EndpointAuthTask) (signature : String) :
    Outcome task (task.perform (.proof signature)).1 (task.perform (.proof signature)).2 := by
  unfold EndpointAuthTask.perform EndpointAuthTask.acceptPeerProof
  cases hState : task.state with
  | terminal error => exact .refused _ _ error hState (.inr rfl)
  | promoted bound proof issued => exact .already bound proof signature issued hState
  | awaitingPeerContribution =>
    dsimp only
    rw [refuse_of_not_terminal _ (by simp [hState])]
    exact .ended _ _ .noBoundTranscript (by simp [hState]) rfl
  | bound bound proof =>
    dsimp only
    cases hVerify : EndpointCrypto.verify task.context.expectedRemoteDeviceId
        (task.peerTranscript bound) signature with
    | false =>
      rw [if_neg (by simp), refuse_of_not_terminal _ (by simp [hState])]
      exact .ended _ _ .signatureInvalid (by simp [hState]) rfl
    | true =>
      rw [if_pos rfl]
      cases hHandoff : task.handoff with
      | none =>
        dsimp only
        rw [refuse_of_not_terminal _ (by simp [hState])]
        exact .ended _ _ .channelNotCurrent (by simp [hState]) rfl
      | some handoff =>
        dsimp only
        cases hCapability : handoff.capability with
        | none =>
          dsimp only
          rw [refuse_of_not_terminal _ (by simp)]
          have hEnded : Outcome task _ _ := .ended (.proof signature)
            (.proof (.error .channelNotCurrent)) .channelNotCurrent (by simp [hState]) rfl
          rw [hHandoff] at hEnded
          exact hEnded
        | some runtime => exact .promote bound proof signature handoff _ _ hState hHandoff hVerify

theorem perform_outcome (task : EndpointAuthTask) (call : Call) :
    Outcome task (task.perform call).1 (task.perform call).2 := by
  cases call with
  | hello contribution => exact hello_outcome task contribution
  | proof signature => exact proof_outcome task signature
  | retire =>
    unfold EndpointAuthTask.perform EndpointAuthTask.retire
    cases hState : task.state with
    | terminal error =>
      have hAgain : (task.terminalize .channelNotCurrent).2 =
          ({ task with retired := true }, []) := by
        unfold EndpointAuthTask.terminalize
        rw [hState]
      rw [hAgain]
      exact .retiredAgain error hState
    | awaitingPeerContribution =>
      rw [terminalize_of_not_terminal _ (by simp [hState])]
      exact .ended _ _ .channelNotCurrent (by simp [hState]) rfl
    | bound bound proof =>
      rw [terminalize_of_not_terminal _ (by simp [hState])]
      exact .ended _ _ .channelNotCurrent (by simp [hState]) rfl
    | promoted bound proof issued =>
      rw [terminalize_of_not_terminal _ (by simp [hState])]
      exact .ended _ _ .channelNotCurrent (by simp [hState]) rfl

namespace Outcome

variable {task next : EndpointAuthTask} {entry : Entry}

theorem fixed (h : Outcome task entry next) : next.context = task.context ∧
    next.signer = task.signer ∧ next.localContribution = task.localContribution := by
  cases h <;> exact ⟨rfl, rfl, rfl⟩

/-- A promotion verified the peer's half over the bound contribution. -/
theorem of_promoted (h : Outcome task entry next) {capability : AuthenticatedChannelCapability}
    (hReply : entry.reply = .proof (.ok (.promoted capability))) :
    ∃ bound proof signature, task.state = .bound bound proof ∧ entry.call = .proof signature ∧
      EndpointCrypto.verify task.context.expectedRemoteDeviceId (task.peerTranscript bound)
        signature = true := by
  cases h with
  | promote bound proof signature handoff _ _ hState _ hVerify =>
    exact ⟨bound, proof, signature, hState, rfl, hVerify⟩
  | refused call reply error hState hCause => rcases hCause with rfl | rfl <;> cases hReply
  | ended call reply cause hState hCause =>
    change reply = _ at hReply
    rw [hReply] at hCause
    cases hCause
  | repeated => cases hReply
  | already => cases hReply
  | retiredAgain => cases hReply
  | bind => cases hReply

/-- A terminal task only answers with its cause. -/
theorem of_terminal (h : Outcome task entry next) {cause : EndpointAuthError}
    (hTerminal : task.state = .terminal cause) :
    entry.effects = [] ∧ (entry.reply = .retired ∨ entry.reply = .hello (.error cause) ∨
      entry.reply = .proof (.error cause)) := by
  cases h with
  | refused call reply error hState hReply =>
    rw [hTerminal] at hState
    obtain rfl := ExchangeState.terminal.inj hState
    exact ⟨rfl, .inr hReply⟩
  | retiredAgain error hState => exact ⟨rfl, .inl rfl⟩
  | ended call reply other hState hReply => exact absurd hTerminal (hState cause)
  | repeated bound proof hState =>
    rcases hState with hState | ⟨issued, hState⟩
    · rw [hTerminal] at hState
      cases hState
    · rw [hTerminal] at hState
      cases hState
  | already bound proof signature issued hState =>
    rw [hTerminal] at hState
    cases hState
  | bind contribution hState hMutual =>
    rw [hTerminal] at hState
    cases hState
  | promote bound proof signature handoff capability issued hState =>
    rw [hTerminal] at hState
    cases hState

/-- Only a first binding signs, and it signs this task's transcript. -/
theorem of_signed (h : Outcome task entry next) {signing : String × List UInt8}
    (hSigned : signing ∈ entry.signings) :
    ∃ contribution, entry.call = .hello contribution ∧
      signing = (task.signer, task.localTranscript contribution) := by
  cases h with
  | bind contribution hState hMutual =>
    exact ⟨contribution, rfl, List.mem_singleton.mp hSigned⟩
  | ended call reply cause hState hReply =>
    unfold Entry.signings at hSigned
    cases hHandoff : task.handoff <;> rw [hHandoff] at hSigned <;> cases hSigned
  | repeated => cases hSigned
  | already => cases hSigned
  | refused => cases hSigned
  | retiredAgain => cases hSigned
  | promote => cases hSigned

end Outcome

/-! ## What the state records -/

section Concat

omit [EndpointCrypto]

variable (trace : List Entry) (entry : Entry)

theorem signings_concat : signings (trace ++ [entry]) = signings trace ++ entry.signings := by
  simp [signings]

theorem handoffs_concat : handoffs (trace ++ [entry]) = handoffs trace ++ entry.handoffs := by
  simp [handoffs]

theorem accepted_concat : accepted (trace ++ [entry]) = accepted trace ++ entry.accepted := by
  simp [accepted]

theorem promotions_concat :
    promotions (trace ++ [entry]) = promotions trace ++ entry.promotions := by
  simp [promotions]

theorem firstCause_concat :
    firstCause (trace ++ [entry]) = (firstCause trace).or entry.reply.cause := by
  unfold firstCause
  rw [List.findSome?_append]
  simp only [List.findSome?_cons, List.findSome?_nil]
  cases entry.reply.cause <;> rfl

end Concat

/-- The trace has bound the task to a contribution: one signature, one proof. -/
structure BoundTo (task : EndpointAuthTask) (trace : List Entry) (bound proof : String) :
    Prop where
  proof_eq : proof = EndpointCrypto.sign task.signer (task.localTranscript bound)
  signed : signings trace = [(task.signer, task.localTranscript bound)]
  hellos : ∀ hello ∈ accepted trace, hello = (bound, proof)
  first : ∃ entry ∈ trace, entry.call = .hello bound ∧
    entry.reply = .hello (.ok (.firstBinding proof))

/-- The trace has bound nothing. -/
structure Unbound (trace : List Entry) : Prop where
  signed : signings trace = []
  hellos : accepted trace = []
  promoted : promotions trace = []

/-- How the state of a task follows from the calls it has answered. -/
structure Recorded (trace : List Entry) (task : EndpointAuthTask) : Prop where
  retired : task.retired = (firstCause trace).isSome
  cause : ∀ error, task.state = .terminal error ↔ firstCause trace = some error
  unbound : task.state = .awaitingPeerContribution → Unbound trace
  bound : ∀ bound proof, task.state = .bound bound proof →
    BoundTo task trace bound proof ∧ promotions trace = []
  promoted : ∀ bound proof issued, task.state = .promoted bound proof issued →
    BoundTo task trace bound proof ∧ (promotions trace).length = 1
  ever : Unbound trace ∨
    ∃ bound proof, BoundTo task trace bound proof ∧ (promotions trace).length ≤ 1
  channel : (handoffs trace).length + task.handoff.toList.length = 1
  held : task.handoff = none ↔ promotions trace ≠ [] ∨ (firstCause trace).isSome

namespace BoundTo

variable {task : EndpointAuthTask} {trace : List Entry} {bound proof : String} {entry : Entry}

/-- A call that signs nothing and accepts no other Hello keeps the binding. -/
theorem concat (h : BoundTo task trace bound proof) (hSigned : entry.signings = [])
    (hHello : ∀ hello ∈ entry.accepted, hello = (bound, proof)) :
    BoundTo task (trace ++ [entry]) bound proof := by
  obtain ⟨first, hFirst, hCall⟩ := h.first
  refine ⟨h.proof_eq, ?_, fun hello hMem => ?_, first, List.mem_append_left _ hFirst, hCall⟩
  · rw [signings_concat, hSigned, List.append_nil]
    exact h.signed
  · rw [accepted_concat] at hMem
    rcases List.mem_append.mp hMem with hMem | hMem
    · exact h.hellos hello hMem
    · exact hHello hello hMem

/-- The first binding is an accepted Hello. -/
theorem mem_accepted (h : BoundTo task trace bound proof) : (bound, proof) ∈ accepted trace := by
  obtain ⟨first, hFirst, hCall, hReply⟩ := h.first
  refine List.mem_flatMap.mpr ⟨first, hFirst, ?_⟩
  unfold Entry.accepted
  rw [hCall, hReply]
  exact List.mem_cons_self

end BoundTo

omit [EndpointCrypto] in
theorem Unbound.concat {trace : List Entry} {entry : Entry} (h : Unbound trace)
    (hSigned : entry.signings = []) (hHello : entry.accepted = [])
    (hPromotions : entry.promotions = []) : Unbound (trace ++ [entry]) := by
  refine ⟨?_, ?_, ?_⟩
  · rw [signings_concat, h.signed, hSigned, List.append_nil]
  · rw [accepted_concat, h.hellos, hHello, List.append_nil]
  · rw [promotions_concat, h.promoted, hPromotions, List.append_nil]

namespace Recorded

variable {task : EndpointAuthTask} {trace : List Entry} {entry : Entry}

/-- A call that only answers from what is recorded. -/
theorem quiet (h : Recorded trace task) (hSigned : entry.signings = [])
    (hHandoffs : entry.handoffs = []) (hPromotions : entry.promotions = [])
    (hCause : firstCause (trace ++ [entry]) = firstCause trace)
    (hHello : ∀ hello ∈ entry.accepted, hello ∈ accepted trace) :
    Recorded (trace ++ [entry]) task := by
  have hSame : promotions (trace ++ [entry]) = promotions trace := by
    rw [promotions_concat, hPromotions, List.append_nil]
  have hBound {bound proof : String} (hBound : BoundTo task trace bound proof) :
      BoundTo task (trace ++ [entry]) bound proof :=
    hBound.concat hSigned fun hello hMem => hBound.hellos hello (hHello hello hMem)
  have hUnbound (hUnbound : Unbound trace) : Unbound (trace ++ [entry]) := by
    refine hUnbound.concat hSigned (List.eq_nil_iff_forall_not_mem.mpr fun hello hMem => ?_)
      hPromotions
    have hOld := hHello hello hMem
    rw [hUnbound.hellos] at hOld
    cases hOld
  refine ⟨?_, ?_, fun hState => hUnbound (h.unbound hState), fun bound proof hState => ?_,
    fun bound proof issued hState => ?_, ?_, ?_, ?_⟩
  · rw [hCause]
    exact h.retired
  · rw [hCause]
    exact h.cause
  · rw [hSame]
    exact ⟨hBound (h.bound bound proof hState).1, (h.bound bound proof hState).2⟩
  · rw [hSame]
    exact ⟨hBound (h.promoted bound proof issued hState).1, (h.promoted bound proof issued hState).2⟩
  · rw [hSame]
    rcases h.ever with hNone | ⟨bound, proof, hSome, hLe⟩
    · exact .inl (hUnbound hNone)
    · exact .inr ⟨bound, proof, hBound hSome, hLe⟩
  · rw [handoffs_concat, hHandoffs, List.append_nil]
    exact h.channel
  · rw [hSame, hCause]
    exact h.held

theorem retired_of_terminal (h : Recorded trace task) {error : EndpointAuthError}
    (hState : task.state = .terminal error) : task.retired = true := by
  rw [h.retired, (h.cause error).mp hState]
  rfl

theorem firstCause_none (h : Recorded trace task)
    (hState : ∀ error, task.state ≠ .terminal error) : firstCause trace = none := by
  cases hCause : firstCause trace with
  | none => rfl
  | some error => exact absurd ((h.cause error).mpr hCause) (hState error)

theorem ended (h : Recorded trace task) {call : Call} {reply : Reply} {cause : EndpointAuthError}
    (hState : ∀ error, task.state ≠ .terminal error) (hReply : reply.cause = some cause) :
    Recorded (trace ++ [⟨call, reply, task.handoff.toList.map Effect.released, true⟩])
      { task with retired := true, handoff := none, state := .terminal cause } := by
  generalize hEntry : Entry.mk call reply (task.handoff.toList.map Effect.released) true = entry
  have hSigned : entry.signings = [] := by
    subst hEntry
    unfold Entry.signings
    cases task.handoff <;> rfl
  have hHandoffs : entry.handoffs = task.handoff.toList := by
    subst hEntry
    unfold Entry.handoffs
    cases task.handoff <;> rfl
  have hPromotions : entry.promotions = [] := by
    subst hEntry
    unfold Entry.promotions
    dsimp only
    split
    · cases hReply
    · rfl
  have hHello : entry.accepted = [] := by
    subst hEntry
    unfold Entry.accepted
    dsimp only
    split
    · cases hReply
    · rfl
  have hCause : firstCause (trace ++ [entry]) = some cause := by
    subst hEntry
    rw [firstCause_concat, h.firstCause_none hState, hReply]
    rfl
  have hSame : promotions (trace ++ [entry]) = promotions trace := by
    rw [promotions_concat, hPromotions, List.append_nil]
  refine ⟨?_, fun error => ?_, ?_, ?_, ?_, ?_, ?_, ?_⟩
  · rw [hCause]
    rfl
  · rw [hCause, ExchangeState.terminal.injEq, Option.some.injEq]
  · intro hImpossible
    cases hImpossible
  · intro bound proof hImpossible
    cases hImpossible
  · intro bound proof issued hImpossible
    cases hImpossible
  · rw [hSame]
    rcases h.ever with hNone | ⟨bound, proof, hSome, hLe⟩
    · exact .inl (hNone.concat hSigned hHello hPromotions)
    · have hBound : BoundTo task (trace ++ [entry]) bound proof :=
        hSome.concat hSigned (by simp [hHello])
      exact .inr ⟨bound, proof,
        ⟨hBound.proof_eq, hBound.signed, hBound.hellos, hBound.first⟩, hLe⟩
  · rw [handoffs_concat, hHandoffs, List.length_append]
    have hChannel := h.channel
    simpa using hChannel
  · rw [hCause]
    simp

theorem bind (h : Recorded trace task) {contribution proof : String}
    (hState : task.state = .awaitingPeerContribution)
    (hProof : proof = EndpointCrypto.sign task.signer (task.localTranscript contribution))
    (hCall : entry.call = .hello contribution)
    (hReply : entry.reply = .hello (.ok (.firstBinding proof)))
    (hEffects : entry.effects = [.signed task.signer (task.localTranscript contribution)]) :
    Recorded (trace ++ [entry]) { task with state := .bound contribution proof } := by
  have hUnbound := h.unbound hState
  have hNone := h.firstCause_none (by simp [hState])
  have hCause : firstCause (trace ++ [entry]) = none := by
    rw [firstCause_concat, hNone, hReply]
    rfl
  have hPromotions : promotions (trace ++ [entry]) = [] := by
    rw [promotions_concat, hUnbound.promoted]
    simp [Entry.promotions, hReply]
  have hHandoffs : handoffs (trace ++ [entry]) = handoffs trace := by
    rw [handoffs_concat]
    simp [Entry.handoffs, hEffects]
  have hBound : BoundTo { task with state := .bound contribution proof } (trace ++ [entry])
      contribution proof := by
    refine ⟨hProof, ?_, fun hello hMem => ?_, entry, by simp, hCall, hReply⟩
    · rw [signings_concat, hUnbound.signed]
      simp only [Entry.signings, hEffects]
      rfl
    · rw [accepted_concat, hUnbound.hellos] at hMem
      simpa [Entry.accepted, hCall, hReply, AcceptedPeerHello.proof] using hMem
  refine ⟨?_, fun error => ?_, ?_, fun bound other hSame => ?_, ?_, ?_, ?_, ?_⟩
  · rw [hCause, ← hNone]
    exact h.retired
  · simp [hCause]
  · intro hImpossible
    cases hImpossible
  · obtain ⟨rfl, rfl⟩ := ExchangeState.bound.inj hSame
    exact ⟨hBound, hPromotions⟩
  · intro bound proof issued hImpossible
    cases hImpossible
  · exact .inr ⟨contribution, proof, hBound, by simp [hPromotions]⟩
  · rw [hHandoffs]
    exact h.channel
  · rw [hPromotions, hCause, h.held, hUnbound.promoted, hNone]

theorem promote (h : Recorded trace task) {bound proof : String} {issued : IssuedIdentity}
    {handoff : ConnectedChannelHandoff} {capability : AuthenticatedChannelCapability}
    (hState : task.state = .bound bound proof) (hHandoff : task.handoff = some handoff)
    (hReply : entry.reply = .proof (.ok (.promoted capability)))
    (hEffects : entry.effects = [.moved handoff]) :
    Recorded (trace ++ [entry])
      { task with handoff := none, state := .promoted bound proof issued } := by
  obtain ⟨hOld, hOldPromotions⟩ := h.bound bound proof hState
  have hNone := h.firstCause_none (by simp [hState])
  have hCause : firstCause (trace ++ [entry]) = none := by
    rw [firstCause_concat, hNone, hReply]
    rfl
  have hPromotions : promotions (trace ++ [entry]) = [capability] := by
    rw [promotions_concat, hOldPromotions]
    simp [Entry.promotions, hReply]
  have hBound : BoundTo task (trace ++ [entry]) bound proof := by
    apply hOld.concat
    · simp [Entry.signings, hEffects]
    · simp [Entry.accepted, hReply]
  have hNext : BoundTo { task with handoff := none, state := .promoted bound proof issued }
      (trace ++ [entry]) bound proof :=
    ⟨hBound.proof_eq, hBound.signed, hBound.hellos, hBound.first⟩
  refine ⟨?_, fun error => ?_, ?_, ?_, fun other otherProof otherIssued hSame => ?_, ?_, ?_, ?_⟩
  · rw [hCause, ← hNone]
    exact h.retired
  · simp [hCause]
  · intro hImpossible
    cases hImpossible
  · intro bound proof hImpossible
    cases hImpossible
  · obtain ⟨rfl, rfl, rfl⟩ := ExchangeState.promoted.inj hSame
    exact ⟨hNext, by simp [hPromotions]⟩
  · exact .inr ⟨bound, proof, hNext, by simp [hPromotions]⟩
  · have hChannel := h.channel
    rw [hHandoff] at hChannel
    rw [handoffs_concat, List.length_append]
    simp only [Entry.handoffs, hEffects]
    simpa using hChannel
  · simp [hPromotions]

theorem step (h : Recorded trace task) {next : EndpointAuthTask} (hOutcome : Outcome task entry next) :
    Recorded (trace ++ [entry]) next := by
  cases hOutcome with
  | repeated bound proof hState =>
    have hBound : BoundTo task trace bound proof := by
      rcases hState with hState | ⟨issued, hState⟩
      · exact (h.bound bound proof hState).1
      · exact (h.promoted bound proof issued hState).1
    apply h.quiet rfl rfl rfl
    · rw [firstCause_concat]
      exact Option.or_none
    · intro hello hMem
      obtain rfl := List.mem_singleton.mp hMem
      exact hBound.mem_accepted
  | already bound proof signature issued hState =>
    apply h.quiet rfl rfl rfl
    · rw [firstCause_concat]
      exact Option.or_none
    · intro hello hMem
      cases hMem
  | refused call reply error hState hReply =>
    have hCause := (h.cause error).mp hState
    apply h.quiet rfl rfl
    · rcases hReply with rfl | rfl <;> rfl
    · rw [firstCause_concat, hCause]
      rfl
    · intro hello hMem
      rcases hReply with rfl | rfl
      · cases call <;> cases hMem
      · cases call <;> cases hMem
  | retiredAgain error hState =>
    have hCause := (h.cause error).mp hState
    have hSame : { task with retired := true } = task := by
      rw [← h.retired_of_terminal hState]
    rw [hSame]
    apply h.quiet rfl rfl rfl
    · rw [firstCause_concat, hCause]
      rfl
    · intro hello hMem
      cases hMem
  | bind contribution hState hMutual => exact h.bind hState rfl rfl rfl rfl
  | promote bound proof signature handoff capability issued hState hHandoff hVerify =>
    exact h.promote hState hHandoff rfl rfl
  | ended call reply cause hState hReply => exact h.ended hState hReply

theorem begin (context : EndpointAuthContext) (handoff : ConnectedChannelHandoff)
    (signer contribution : String) :
    Recorded [] (EndpointAuthTask.begin context handoff signer contribution) := by
  have hUnbound : Unbound [] := ⟨rfl, rfl, rfl⟩
  constructor <;> simp [EndpointAuthTask.begin, firstCause, handoffs, promotions, hUnbound]

theorem after (h : Recorded [] task) (calls : List Call) :
    Recorded (task.trace calls) (task.after calls) := by
  induction calls using List.reverseRecOn with
  | nil => exact h
  | append_singleton calls call ih =>
    obtain ⟨hTrace, hAfter⟩ := trace_concat task calls call
    rw [hTrace, hAfter]
    exact ih.step (perform_outcome _ call)

end Recorded

theorem after_fixed (task : EndpointAuthTask) (calls : List Call) :
    (task.after calls).context = task.context ∧ (task.after calls).signer = task.signer ∧
      (task.after calls).localContribution = task.localContribution := by
  induction calls generalizing task with
  | nil => exact ⟨rfl, rfl, rfl⟩
  | cons call calls ih =>
    obtain ⟨hContext, hSigner, hContribution⟩ := ih (task.perform call).2
    have hFixed := (perform_outcome task call).fixed
    exact ⟨hContext.trans hFixed.1, hSigner.trans hFixed.2.1, hContribution.trans hFixed.2.2⟩

/-- **The lifecycle of one task** over every sequence of calls: it signs at most once, its own
transcript with the contribution it bound, and every accepted Hello returns that proof; it
promotes at most once, after a first binding and with a signature of the expected remote
over the peer transcript with exactly that contribution; once a cause is recorded every call
returns it, without effects, and `isRetired` is true exactly from then on; and the channel
is held, or was moved out or released once. -/
theorem endpoint_auth_lifecycle (context : EndpointAuthContext)
    (handoff : ConnectedChannelHandoff) (signer contribution : String) (calls : List Call) :
    let task := EndpointAuthTask.begin context handoff signer contribution
    let trace := task.trace calls
    let transcript := transcriptForContext context context.localRole contribution
    (signings trace = [] ∧ accepted trace = [] ∨
      ∃ bound, signings trace = [(signer, transcript bound)] ∧
        ∀ hello ∈ accepted trace, hello = (bound, EndpointCrypto.sign signer (transcript bound))) ∧
    ((promotions trace).length ≤ 1 ∧
      ∀ earlier entry later capability, trace = earlier ++ entry :: later →
        entry.reply = .proof (.ok (.promoted capability)) →
        ∃ bound proof signature,
          (∃ first ∈ earlier, first.call = .hello bound ∧
            first.reply = .hello (.ok (.firstBinding proof))) ∧
          (∀ hello ∈ accepted earlier, hello = (bound, proof)) ∧
          entry.call = .proof signature ∧
          EndpointCrypto.verify context.expectedRemoteDeviceId (transcriptForContext context
            context.localRole.peer contribution bound) signature = true) ∧
    ((∀ earlier entry later cause, trace = earlier ++ entry :: later →
        firstCause earlier = some cause →
        entry.effects = [] ∧ (entry.reply = .retired ∨ entry.reply = .hello (.error cause) ∨
          entry.reply = .proof (.error cause))) ∧
      ∀ earlier entry later, trace = earlier ++ entry :: later →
        entry.retired = (firstCause (earlier ++ [entry])).isSome) ∧
    (handoffs trace).length + (task.after calls).handoff.toList.length = 1 ∧
    ((task.after calls).handoff = none ↔ promotions trace ≠ [] ∨ (firstCause trace).isSome) := by
  intro task trace transcript
  have hStart : Recorded [] task := Recorded.begin context handoff signer contribution
  have hEnd : Recorded trace (task.after calls) := hStart.after calls
  refine ⟨?_, ⟨?_, ?_⟩, ⟨?_, ?_⟩, hEnd.channel, hEnd.held⟩
  · obtain ⟨hContext, hSigner, hContribution⟩ := after_fixed task calls
    rcases hEnd.ever with hNone | ⟨bound, proof, hBound, -⟩
    · exact .inl ⟨hNone.signed, hNone.hellos⟩
    · have hTranscript : (task.after calls).localTranscript bound = transcript bound := by
        unfold EndpointAuthTask.localTranscript
        rw [hContext, hContribution]
        rfl
      have hSigned := hBound.signed
      have hProof := hBound.proof_eq
      rw [hSigner, hTranscript] at hSigned hProof
      exact .inr ⟨bound, hSigned, fun hello hMem => hProof ▸ hBound.hellos hello hMem⟩
  · rcases hEnd.ever with hNone | ⟨bound, proof, -, hLe⟩
    · simp [hNone.promoted]
    · exact hLe
  · intro earlier entry later capability hTrace hReply
    obtain ⟨prior, call, rfl, rfl⟩ := trace_split hTrace
    have hPrior := hStart.after prior
    obtain ⟨hContext, -, hContribution⟩ := after_fixed task prior
    obtain ⟨bound, proof, signature, hState, hCall, hVerify⟩ :=
      (perform_outcome (task.after prior) call).of_promoted hReply
    obtain ⟨hBound, -⟩ := hPrior.bound bound proof hState
    refine ⟨bound, proof, signature, hBound.first, hBound.hellos, hCall, ?_⟩
    unfold EndpointAuthTask.peerTranscript at hVerify
    rw [hContext, hContribution] at hVerify
    exact hVerify
  · intro earlier entry later cause hTrace hCause
    obtain ⟨prior, call, rfl, rfl⟩ := trace_split hTrace
    have hState := ((hStart.after prior).cause cause).mpr hCause
    exact (perform_outcome (task.after prior) call).of_terminal hState
  · intro earlier entry later hTrace
    obtain ⟨prior, call, rfl, rfl⟩ := trace_split hTrace
    have hStep := (hStart.after prior).step (perform_outcome _ call)
    rw [← hStep.retired]
    cases call <;> rfl

end Traces

end MyOwnMesh.EndpointAuth
