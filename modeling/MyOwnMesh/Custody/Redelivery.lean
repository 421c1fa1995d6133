import MyOwnMesh.Custody.Lock

/-!
# Delivering a prepared enrollment again

The material of a prepared enrollment is rebuilt from its record, by
`prepared_enrollment_from_record` with refusals of its own. A record that was installed
under an account label stays inside what that function accepts until its own transaction
is settled; without a label it is refused from the start.
-/

namespace MyOwnMesh.Custody

open Foundation

/-- What the store knows of a transaction. -/
inductive EnrollmentTransaction where
  | absent
  | prepared (handle : Handle)
  | committed
deriving DecidableEq

/-- `enrollment_transaction_at`: it reads without the writer's lock. -/
def enrollmentTransactionAt (env : Conditions) (networkId transactionId : String) :
    CustodyM EnrollmentTransaction := do
  let store ← loadAt env
  match store[networkId]? with
  | none => return .absent
  | some enrollment =>
    if ¬ constantEq (textBytes enrollment.transactionId) (textBytes transactionId) = true then
      return .absent
    else if enrollment.isPrepared then
      .prepared <$> ExceptT.mk (pure (preparedEnrollmentFromRecord networkId enrollment))
    else return .committed

/-! ## What a record delivers -/

/-- The answer to a later reader of material that was handed out under an account. -/
def redelivery (networkId account : String) (handle : Handle) : Except Error Handle :=
  if account = "" then
    .error (.custody s!"prepared custody record for {networkId} has no account label")
  else .ok handle

/-- The record delivers exactly this material, or refuses it for want of a label. -/
structure Delivers (networkId account : String) (handle : Handle) (enrollment : Enrollment) :
    Prop where
  prepared : enrollment.isPrepared = true
  material : preparedEnrollmentFromRecord networkId enrollment =
    redelivery networkId account handle
  transaction : enrollment.transactionId = handle.transactionId
  secret : enrollment.secretB32 = handle.enrolled.secretB32

theorem base32Encode_ne_empty {width : Nat} (hWidth : 0 < width) (value : Nat) :
    (base32Encode width value).toList ≠ [] := by
  unfold base32Encode
  rw [String.toList_ofList]
  intro hNil
  have hLength := congrArg List.length hNil
  simp only [List.length_map, List.length_range, List.length_nil] at hLength
  omega

section Records

variable [CustodyCrypto] {networkId account : String} {handle : Handle}

/-- A record passes every check right after it was minted, but the one for the label. -/
theorem Delivers.minted (env : Conditions) :
    Delivers networkId account (handleOf networkId (mintedEnrollment env account) account)
      (mintedEnrollment env account) := by
  refine ⟨rfl, ?_, rfl, rfl⟩
  have hTransaction : (mintedEnrollment env account).transactionId ≠ "" := by
    intro hEmpty
    have hNil := congrArg String.toList hEmpty
    simp only [mintedEnrollment, String.toList_ofList, String.toList_empty,
      List.map_eq_nil_iff] at hNil
    exact base32Encode_ne_empty (by decide) _ hNil
  have hSecret : (mintedEnrollment env account).secretB32 ≠ "" := by
    intro hEmpty
    exact base32Encode_ne_empty (by decide) _ (congrArg String.toList hEmpty)
  have hCodes : (mintedEnrollment env account).preparedRecoveryCodes ≠ [] := by
    intro hEmpty
    have hLength := congrArg List.length hEmpty
    simp [mintedEnrollment, genRecoveryCodes] at hLength
  have hLabel : (mintedEnrollment env account).preparedAccount = account := rfl
  simp only [preparedEnrollmentFromRecord, failIf, if_neg hTransaction, if_neg hSecret,
    if_neg hCodes, hLabel, redelivery]
  split <;> rfl

/-- No call but a settlement of its own transaction changes what a record delivers. -/
theorem Delivers.step {event : Event} {record : Option Enrollment} {enrollment : Enrollment}
    (h : Delivers networkId account handle enrollment)
    (hStep : RecordStep networkId event (some enrollment) record)
    (hOther : ∀ request, event.call ≠
      .settle networkId handle.transactionId handle.enrolled.secretB32 request) :
    ∃ next, record = some next ∧ Delivers networkId account handle next := by
  cases hStep with
  | keep => exact ⟨enrollment, rfl, h⟩
  | commit _ hCall =>
    rw [h.transaction, h.secret] at hCall
    exact absurd hCall (hOther _)
  | abort _ hCall =>
    rw [h.transaction, h.secret] at hCall
    exact absurd hCall (hOther _)
  | redeem _ _ => exact ⟨_, rfl, h.prepared, h.material, h.transaction, h.secret⟩
  | disable hPhase _ _ =>
    have hPrepared := h.prepared
    simp [Enrollment.isPrepared, hPhase] at hPrepared

theorem Delivers.after (later : List Event) : ∀ {store : CustodyStore} {enrollment : Enrollment},
    store[networkId]? = some enrollment → Delivers networkId account handle enrollment →
    (∀ event ∈ later, ∀ request, event.call ≠
      .settle networkId handle.transactionId handle.enrolled.secretB32 request) →
    ∃ last, (Custody.after store later)[networkId]? = some last ∧
      Delivers networkId account handle last := by
  induction later with
  | nil => exact fun hRecord h _ => ⟨_, hRecord, h⟩
  | cons event later ih =>
    intro store enrollment hRecord h hOthers
    have hStep := record_step store event networkId
    rw [hRecord] at hStep
    obtain ⟨next, hNext, hDelivers⟩ := h.step hStep (hOthers event List.mem_cons_self)
    exact ih hNext hDelivers fun other hMem => hOthers other (List.mem_cons_of_mem _ hMem)

/-- What the two readers answer for such a record. -/
theorem Delivers.answers {store : CustodyStore} {enrollment : Enrollment} {env : Conditions}
    (h : Delivers networkId account handle enrollment) (hRecord : store[networkId]? = some enrollment)
    (hGuard : env.guard = none) (hLoad : env.load = none) :
    (∀ label, exec (prepareOrRecoverProvisionalEnrollAt env networkId label) store =
      ((redelivery networkId account handle).map .existing, store)) ∧
    exec (enrollmentTransactionAt env networkId handle.transactionId) store =
      ((redelivery networkId account handle).map .prepared, store) := by
  refine ⟨fun label => ?_, ?_⟩
  · simp only [prepareOrRecoverProvisionalEnrollAt, storeTransactionGuard, loadAt, hGuard, hLoad,
      attempt, exec_bind, exec_pure, exec_get, hRecord, h.prepared, if_true, h.material]
    cases redelivery networkId account handle <;> rfl
  · have hSame : constantEq (textBytes enrollment.transactionId)
        (textBytes handle.transactionId) = true := constantEq_textBytes.mpr h.transaction
    simp only [enrollmentTransactionAt, loadAt, hLoad, attempt, exec_bind, exec_pure, exec_get,
      hRecord, hSame, not_true_eq_false, if_false, h.prepared, if_true, h.material]
    cases redelivery networkId account handle <;> rfl

/-- **A prepared enrollment is delivered again**, exactly if it has a label. After an
enrollment was installed, and after any calls that do not settle its own transaction,
preparing the network and asking for the transaction return the material that was first
handed out if the label is not empty, and are refused if it is. -/
theorem prepared_enrollment_redelivered (store : CustodyStore) (event : Event)
    (hCall : event.call = .install networkId account ∨ event.call = .prepare networkId account)
    (hFresh : (perform store event).1.fresh = some handle) (later : List Event)
    (hOthers : ∀ other ∈ later, ∀ request, other.call ≠
      .settle networkId handle.transactionId handle.enrolled.secretB32 request)
    (env : Conditions) (hGuard : env.guard = none) (hLoad : env.load = none) :
    (account ≠ "" →
      (∀ label, exec (prepareOrRecoverProvisionalEnrollAt env networkId label)
          (after (perform store event).2 later) =
        (.ok (.existing handle), after (perform store event).2 later)) ∧
      exec (enrollmentTransactionAt env networkId handle.transactionId)
          (after (perform store event).2 later) =
        (.ok (.prepared handle), after (perform store event).2 later)) ∧
    (account = "" →
      (∀ label, (exec (prepareOrRecoverProvisionalEnrollAt env networkId label)
          (after (perform store event).2 later)).1 = .error (.custody
            s!"prepared custody record for {networkId} has no account label")) ∧
      (exec (enrollmentTransactionAt env networkId handle.transactionId)
          (after (perform store event).2 later)).1 = .error (.custody
            s!"prepared custody record for {networkId} has no account label")) := by
  obtain ⟨enrollment, hRecord, hDelivers⟩ : ∃ enrollment,
      (perform store event).2[networkId]? = some enrollment ∧
        Delivers networkId account handle enrollment := by
    have hEffect := perform_effect store event
    generalize perform store event = result at hEffect hFresh
    cases hEffect with
    | keep hNone _ => cases hNone.symm.trans hFresh
    | @enroll named label reply hNamed hAbsent hHandle =>
      obtain rfl := Option.some.inj (hHandle.symm.trans hFresh)
      obtain ⟨rfl, rfl⟩ : named = networkId ∧ label = account := by
        rcases hCall with hCall | hCall <;> rcases hNamed with hNamed | hNamed <;>
          cases hCall.symm.trans hNamed <;> exact ⟨rfl, rfl⟩
      refine ⟨mintedEnrollment event.env label, ?_, Delivers.minted event.env⟩
      show (store.insert named _)[named]? = _
      rw [getElem?_insert_eq, if_pos rfl]
    | commit _ _ _ hNone => cases hNone.symm.trans hFresh
    | abort _ _ _ hNone => cases hNone.symm.trans hFresh
    | redeem _ _ _ hNone => cases hNone.symm.trans hFresh
    | disable _ _ _ _ hNone => cases hNone.symm.trans hFresh
  obtain ⟨last, hLast, hStill⟩ := hDelivers.after later hRecord hOthers
  obtain ⟨hPrepare, hAsk⟩ := hStill.answers hLast hGuard hLoad
  refine ⟨fun hLabel => ?_, fun hEmpty => ?_⟩
  · rw [redelivery, if_neg hLabel] at hPrepare hAsk
    exact ⟨hPrepare, hAsk⟩
  · rw [redelivery, if_pos hEmpty] at hPrepare hAsk
    exact ⟨fun label => congrArg Prod.fst (hPrepare label), congrArg Prod.fst hAsk⟩

end Records

def sampleInstall (account : String) : Event := ⟨.install "net" account, sampleConditions⟩

theorem prepared_enrollment_redelivered_once : let _ : CustodyCrypto := sampleCustodyCrypto
    exec (enrollmentTransactionAt sampleConditions "net"
        (mintedEnrollment sampleConditions "me").transactionId)
      (after (perform ∅ (sampleInstall "me")).2 [⟨.disable "net" "", sampleConditions⟩]) =
    (.ok (.prepared (handleOf "net" (mintedEnrollment sampleConditions "me") "me")),
      after (perform ∅ (sampleInstall "me")).2 [⟨.disable "net" "", sampleConditions⟩]) :=
  let _ : CustodyCrypto := sampleCustodyCrypto
  ((prepared_enrollment_redelivered ∅ (sampleInstall "me") (.inl rfl)
    (by decide +kernel : (perform ∅ (sampleInstall "me")).1.fresh =
      some (handleOf "net" (mintedEnrollment sampleConditions "me") "me"))
    [⟨.disable "net" "", sampleConditions⟩] (by simp) sampleConditions rfl rfl).1 (by decide)).2

/-- An installation without a label succeeds, and its material is never delivered again. -/
theorem unlabelled_enrollment_lost : let _ : CustodyCrypto := sampleCustodyCrypto
    (perform ∅ (sampleInstall "")).1.fresh =
      some (handleOf "net" (mintedEnrollment sampleConditions "") "") ∧
    (exec (prepareOrRecoverProvisionalEnrollAt sampleConditions "net" "")
      (perform ∅ (sampleInstall "")).2).1 = .error (.custody
        "prepared custody record for net has no account label") ∧
    (exec (enrollmentTransactionAt sampleConditions "net"
      (mintedEnrollment sampleConditions "").transactionId) (perform ∅ (sampleInstall "")).2).1 =
      .error (.custody "prepared custody record for net has no account label") := by
  let _ : CustodyCrypto := sampleCustodyCrypto
  exact ⟨by decide +kernel, by decide +kernel, by decide +kernel⟩

end MyOwnMesh.Custody
