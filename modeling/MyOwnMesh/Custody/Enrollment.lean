import MyOwnMesh.Custody.Lock

/-!
# Reported enrollments

`ProvisionalEnrollment::commit` and `enroll` answer success when the settlement of
their transaction succeeds, whatever it found. Between the transaction that installs
a record and the one that commits it any other caller may run, so the answer names a
committed record exactly when nobody removed it in between.
-/

namespace MyOwnMesh.Custody

open Foundation

/-! ## Callers -/

/-- `ProvisionalEnrollment::commit`: what the settlement found is dropped. -/
def Handle.commit (handle : Handle) (env : Conditions) : CustodyM PUnit := do
  let _ ← settleExactAt env handle.networkId handle.transactionId handle.enrolled.secretB32 .commit
  return ⟨⟩

def Handle.abort (handle : Handle) (env : Conditions) : CustodyM PUnit := do
  let _ ← settleExactAt env handle.networkId handle.transactionId handle.enrolled.secretB32 .abort
  return ⟨⟩

/-- What a caller owns between two of its transactions. -/
inductive Holding where
  | provisional (handle : Handle)
  /-- Inside `enroll`, after the record was installed. -/
  | enrolling (handle : Handle)

/-- The store and what its callers hold. -/
structure World where
  store : CustodyStore
  callers : Nat → Option Holding

/-- What a caller does. -/
inductive Action where
  /-- A call by itself; the handle of a fresh record is kept. -/
  | call (call : Call)
  | commit
  | abort
  /-- The two transactions of `enroll`. -/
  | enroll (networkId account : String)
  | finishEnroll

structure Move where
  caller : Nat
  action : Action
  env : Conditions

def World.hold (world : World) (caller : Nat) (holding : Option Holding) : World :=
  { world with callers := Function.update world.callers caller holding }

/-- Commit a handle, which is used up; success is reported. -/
def World.finish (world : World) (caller : Nat) (handle : Handle) (env : Conditions) :
    Option Handle × World :=
  let result := exec (handle.commit env) world.store
  (if result.1.isOk then some handle else none, { world.hold caller none with store := result.2 })

section Steps

variable [CustodyCrypto]

/-- One transaction: the enrollment it reports as existing, and the world after it. -/
def World.step (world : World) (move : Move) : Option Handle × World :=
  match move.action, world.callers move.caller with
  | .call call, holding =>
    let result := perform world.store ⟨call, move.env⟩
    (none, { world.hold move.caller ((result.1.fresh.map .provisional).or holding) with
      store := result.2 })
  | .commit, some (.provisional handle) => world.finish move.caller handle move.env
  | .abort, some (.provisional handle) =>
    (none, { world.hold move.caller none with
      store := (exec (handle.abort move.env) world.store).2 })
  | .enroll networkId account, _ =>
    let result := exec (installProvisionalEnrollAt move.env networkId account) world.store
    (none, { world.hold move.caller (result.1.toOption.map .enrolling) with store := result.2 })
  | .finishEnroll, some (.enrolling handle) => world.finish move.caller handle move.env
  | _, _ => (none, world)

def World.after (world : World) (moves : List Move) : World :=
  moves.foldl (fun world move => (world.step move).2) world

end Steps

/-! ## What a commit finds -/

/-- The record of exactly this transaction is in the file. -/
def IsInstalled (store : CustodyStore) (handle : Handle) : Prop :=
  ∃ record, store[handle.networkId]? = some record ∧ record.transactionId = handle.transactionId ∧
    record.secretB32 = handle.enrolled.secretB32

def IsCommitted (store : CustodyStore) (handle : Handle) : Prop :=
  ∃ record, store[handle.networkId]? = some record ∧ record.transactionId = handle.transactionId ∧
    record.secretB32 = handle.enrolled.secretB32 ∧ record.phase = .committed

theorem IsCommitted.isInstalled {store : CustodyStore} {handle : Handle}
    (h : IsCommitted store handle) : IsInstalled store handle := by
  obtain ⟨record, hRecord, hTransaction, hSecret, -⟩ := h
  exact ⟨record, hRecord, hTransaction, hSecret⟩

/-- **A settlement that answers.** It leaves the record committed, or the file as it
was because the record is not there. -/
theorem settle_commit_answers {store : CustodyStore} {env : Conditions} (handle : Handle)
    {answer : EnrollmentSettlementResult} {after : CustodyStore}
    (h : exec (settleExactAt env handle.networkId handle.transactionId handle.enrolled.secretB32
      .commit) store = (.ok answer, after)) :
    IsCommitted after handle ∧ IsInstalled store handle ∨
      ¬IsInstalled store handle ∧ after = store := by
  unfold settleExactAt at h
  rcases exec_opened _ with ⟨error, hFail⟩ | hOpened
  · rw [hFail] at h
    cases h
  rw [hOpened] at h
  cases hRecord : store[handle.networkId]? with
  | none =>
    simp only [hRecord] at h
    obtain ⟨-, rfl⟩ := Prod.mk.inj h
    exact .inr ⟨by simp [IsInstalled, hRecord], rfl⟩
  | some installed =>
    simp only [hRecord, constantEq_textBytes] at h
    by_cases hNames : ¬installed.secretB32 = handle.enrolled.secretB32 ∨
        ¬installed.transactionId = handle.transactionId
    · rw [if_pos hNames] at h
      obtain ⟨-, rfl⟩ := Prod.mk.inj h
      refine .inr ⟨fun hInstalled => ?_, rfl⟩
      obtain ⟨record, hSame, hTransaction, hSecret⟩ := hInstalled
      obtain rfl := Option.some.inj (hRecord.symm.trans hSame)
      exact hNames.elim (absurd hSecret) (absurd hTransaction)
    rw [if_neg hNames] at h
    push Not at hNames
    have hInstalled : IsInstalled store handle := ⟨installed, hRecord, hNames.2, hNames.1⟩
    refine .inl ⟨?_, hInstalled⟩
    by_cases hPrepared : installed.isPrepared = true
    · rw [if_neg (not_not.mpr hPrepared)] at h
      rcases exec_saveAt_bind (store.insert handle.networkId installed.committed) _ with
        ⟨error, hFail⟩ | hSave
      · rw [hFail] at h
        cases h
      · rw [hSave] at h
        obtain ⟨-, rfl⟩ := Prod.mk.inj h
        exact ⟨installed.committed, by simp, hNames.2, hNames.1, rfl⟩
    · rw [if_pos hPrepared] at h
      obtain ⟨-, rfl⟩ := Prod.mk.inj h
      refine ⟨installed, hRecord, hNames.2, hNames.1, ?_⟩
      cases hPhase : installed.phase with
      | prepared => simp [Enrollment.isPrepared, hPhase] at hPrepared
      | committed => rfl

/-- A commit that succeeds leaves a committed record exactly when it found one. -/
theorem finish_reported {world : World} {caller : Nat} {handle reported : Handle}
    {env : Conditions} (h : (world.finish caller handle env).1 = some reported) :
    IsCommitted (world.finish caller handle env).2.store reported ↔
      IsInstalled world.store reported := by
  unfold World.finish at h ⊢
  unfold Handle.commit at h ⊢
  simp only [exec_bind] at h ⊢
  cases hSettled : exec (settleExactAt env handle.networkId handle.transactionId
      handle.enrolled.secretB32 .commit) world.store with
  | mk answer after =>
    simp only [hSettled] at h ⊢
    cases answer with
    | error error => simp [Except.isOk, Except.toBool] at h
    | ok answer =>
      obtain rfl : handle = reported := by simpa [exec_pure, Except.isOk, Except.toBool] using h
      show IsCommitted after handle ↔ IsInstalled world.store handle
      rcases settle_commit_answers handle hSettled with ⟨hCommitted, hInstalled⟩ | ⟨hGone, rfl⟩
      · exact ⟨fun _ => hInstalled, fun _ => hCommitted⟩
      · exact ⟨fun hCommitted => absurd hCommitted.isInstalled hGone,
          fun hInstalled => absurd hInstalled hGone⟩

section Reports

variable [CustodyCrypto]

/-- **Reported enrollments.** At any point of any interleaving, an enrollment that
`commit` or `enroll` reports is committed in the file exactly when its record was
still there when the commit began. -/
theorem reported_enrollment_committed_iff (start : World) (past : List Move) (move : Move)
    (handle : Handle) (h : ((start.after past).step move).1 = some handle) :
    IsCommitted ((start.after past).step move).2.store handle ↔
      IsInstalled (start.after past).store handle := by
  generalize start.after past = world at h ⊢
  unfold World.step at h ⊢
  split at h
  · cases h
  · exact finish_reported h
  · cases h
  · cases h
  · exact finish_reported h
  · cases h

end Reports

/-! ## Two callers -/

/-- One caller enrolls; a second one finds the prepared record and aborts it before the
first has committed. -/
def sampleAbortedMoves : List Move :=
  let minted := @mintedEnrollment sampleCustodyCrypto sampleConditions "me"
  [⟨0, .enroll "net" "me", sampleConditions⟩,
    ⟨1, .call (.prepare "net" "me"), sampleConditions⟩,
    ⟨1, .call (.settle "net" minted.transactionId minted.secretB32 .abort), sampleConditions⟩]

def sampleWorld : World := ⟨∅, fun _ => none⟩

def sampleFinish : Move := ⟨0, .finishEnroll, sampleConditions⟩

/-- The first caller is told that it enrolled, and the file is empty. -/
theorem reported_enrollment_missing : let _ : CustodyCrypto := sampleCustodyCrypto
    ∃ handle, ((sampleWorld.after sampleAbortedMoves).step sampleFinish).1 = some handle ∧
      ¬IsCommitted ((sampleWorld.after sampleAbortedMoves).step sampleFinish).2.store handle := by
  let _ : CustodyCrypto := sampleCustodyCrypto
  refine ⟨handleOf "net" (mintedEnrollment sampleConditions "me") "me", by decide +kernel,
    fun hCommitted => ?_⟩
  obtain ⟨record, hRecord, -⟩ := hCommitted
  have hEmpty : ((sampleWorld.after sampleAbortedMoves).step sampleFinish).2.store["net"]? =
      none := by decide +kernel
  exact absurd (hRecord.symm.trans hEmpty) (by simp)

/-- Without the second caller the record is committed. -/
theorem reported_enrollment_committed_alone : let _ : CustodyCrypto := sampleCustodyCrypto
    IsCommitted ((sampleWorld.after (sampleAbortedMoves.take 1)).step sampleFinish).2.store
      (handleOf "net" (mintedEnrollment sampleConditions "me") "me") := by
  let _ : CustodyCrypto := sampleCustodyCrypto
  refine (reported_enrollment_committed_iff sampleWorld (sampleAbortedMoves.take 1) sampleFinish _
    (by decide +kernel)).mpr ⟨mintedEnrollment sampleConditions "me", ?_, rfl, rfl⟩
  decide +kernel

end MyOwnMesh.Custody
