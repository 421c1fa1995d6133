import Mathlib
import MyOwnMesh.Custody.Store

/-!
# What opens the custody lock

What holds along every sequence of calls on one store file. `Effect` says once what a
call can do to the file; the record of a network, its secret, its transaction and its
recovery codes are followed from there.
-/

namespace MyOwnMesh.Custody

open Foundation Semantic

/-! ## Comparing and reading codes -/

section Texts

/-- The differences of two texts of one length add up to zero when they agree. -/
private theorem foldl_diff_eq_zero (a : List UInt8) : ∀ (b : List UInt8) (diff : UInt8),
    a.length = b.length →
    ((a.zip b).foldl (fun diff pair => diff ||| (pair.1 ^^^ pair.2)) diff = 0 ↔
      diff = 0 ∧ a = b) := by
  induction a with
  | nil =>
    intro b diff hLength
    rw [List.eq_nil_of_length_eq_zero hLength.symm]
    simp
  | cons x a ih =>
    intro b diff hLength
    cases b with
    | nil => simp at hLength
    | cons y b =>
      rw [List.zip_cons_cons, List.foldl_cons, ih b _ (by simpa using hLength),
        UInt8.or_eq_zero_iff, UInt8.xor_eq_zero_iff, List.cons.injEq, and_assoc]

theorem constantEq_iff {a b : List UInt8} : constantEq a b = true ↔ a = b := by
  unfold constantEq
  by_cases hLength : a.length = b.length
  · rw [if_neg (by simpa using hLength), beq_iff_eq, foldl_diff_eq_zero a b 0 hLength]
    simp
  · rw [if_pos hLength]
    simp only [Bool.false_eq_true, false_iff]
    exact fun h => hLength (congrArg List.length h)

theorem constantEq_textBytes {a b : String} :
    constantEq (textBytes a) (textBytes b) = true ↔ a = b := by
  rw [constantEq_iff, textBytes_injective.eq_iff]

theorem trim_toList (text : String) : (trim text).toList =
    (text.toList.dropWhile isWhitespace).rdropWhile isWhitespace := by
  simp [trim, List.rdropWhile]

theorem trim_trim (text : String) : trim (trim text) = trim text := by
  apply String.toList_inj.mp
  rw [trim_toList, trim_toList]
  have hFront : ((text.toList.dropWhile isWhitespace).rdropWhile isWhitespace).dropWhile
      isWhitespace = (text.toList.dropWhile isWhitespace).rdropWhile isWhitespace := by
    have hHead := List.head?_dropWhile_not isWhitespace text.toList
    cases hTrimmed : (text.toList.dropWhile isWhitespace).rdropWhile isWhitespace with
    | nil => rfl
    | cons c rest =>
      obtain ⟨tail, hTail⟩ := List.rdropWhile_prefix isWhitespace
        (text.toList.dropWhile isWhitespace)
      rw [← hTail, hTrimmed] at hHead
      exact List.dropWhile_cons_of_neg (by simpa using hHead)
  rw [hFront, List.rdropWhile_idempotent]

/-- White space is no part of a normalized code. -/
theorem normalized_trim (text : String) : normalized (trim text) = normalized text := by
  have hSpace : ∀ c, isWhitespace c = true → c.isAlphanum = false := by
    intro c hc
    simp only [isWhitespace, Char.isAlphanum, Char.isAlpha, Char.isUpper, Char.isLower,
      Char.isDigit, Char.toNat, Bool.or_eq_true, Bool.and_eq_true, decide_eq_true_eq,
      List.contains_iff_mem, List.mem_cons, List.not_mem_nil, or_false, ge_iff_le,
      UInt32.le_iff_toNat_le, Char.reduceVal, UInt32.reduceToNat, Bool.or_eq_false_iff, Bool.and_eq_false_iff,
      decide_eq_false_iff_not, Nat.not_le] at hc ⊢
    omega
  have hDrop : ∀ cs : List Char, (cs.dropWhile isWhitespace).filter Char.isAlphanum =
      cs.filter Char.isAlphanum := by
    intro cs
    induction cs with
    | nil => rfl
    | cons c cs ih =>
      by_cases hc : isWhitespace c = true
      · rw [List.dropWhile_cons_of_pos hc, ih, List.filter_cons_of_neg (by simp [hSpace c hc])]
      · rw [List.dropWhile_cons_of_neg hc]
  unfold normalized
  rw [trim_toList, List.rdropWhile, List.filter_reverse, hDrop, ← List.filter_reverse,
    List.reverse_reverse, hDrop]

theorem length_le_utf8ByteSize (chars : List Char) :
    chars.length ≤ (String.ofList chars).utf8ByteSize := by
  induction chars with
  | nil => simp
  | cons c chars ih =>
    have hSize := c.utf8Size_pos
    rw [String.ofList_cons, String.utf8ByteSize_append, String.utf8ByteSize_singleton,
      List.length_cons]
    omega

theorem normalized_length_le (text : String) :
    (normalized text).toList.length ≤ (trim text).utf8ByteSize := by
  rw [← normalized_trim]
  unfold normalized
  rw [String.toList_ofList, List.length_map]
  have hFilter := List.length_filter_le Char.isAlphanum (trim text).toList
  have hSize := length_le_utf8ByteSize (trim text).toList
  rw [String.ofList_toList] at hSize
  omega

/-- A drawn code has ten letters and digits. -/
theorem normalized_genRecoveryCodes {draw : Draw} {code : String}
    (h : code ∈ genRecoveryCodes draw) : (normalized code).toList.length = 10 := by
  have hSymbol : ∀ symbol < 32, (if symbol < 26 then Char.ofNat (65 + symbol)
      else Char.ofNat (24 + symbol)).toLower.isAlphanum = true := by decide
  obtain ⟨i, -, rfl⟩ := List.mem_map.mp h
  have hAlphanum : ∀ c ∈ (base32Encode 8 (draw.codes i).val).toList.map Char.toLower,
      c.isAlphanum = true := by
    unfold base32Encode
    simp only [String.toList_ofList, List.map_map, List.mem_map, Function.comp_apply,
      forall_exists_index, and_imp, forall_apply_eq_imp_iff₂]
    exact fun place _ => hSymbol _ (Nat.mod_lt _ (by omega))
  have hLength : ((base32Encode 8 (draw.codes i).val).toList.map Char.toLower).length = 13 := by
    simp [base32Encode]
  generalize (base32Encode 8 (draw.codes i).val).toList.map Char.toLower = chars at hAlphanum hLength
  unfold normalized
  simp only [String.toList_ofList, List.length_map, List.filter_append, List.length_append]
  have hDash : ('-' :: (chars.take 10).drop 5).filter Char.isAlphanum = (chars.take 10).drop 5 := by
    rw [List.filter_cons_of_neg (by decide)]
    exact List.filter_eq_self.mpr fun c hc =>
      hAlphanum c (List.mem_of_mem_take (List.mem_of_mem_drop hc))
  have hFirst : ((chars.take 10).take 5).filter Char.isAlphanum = (chars.take 10).take 5 :=
    List.filter_eq_self.mpr fun c hc =>
      hAlphanum c (List.mem_of_mem_take (List.mem_of_mem_take hc))
  rw [hDash, hFirst]
  simp [hLength]

theorem count_eraseIdx {α : Type} [BEq α] [LawfulBEq α] {items : List α} {position : Nat} {a : α}
    (h : items[position]? = some a) : (items.eraseIdx position).count a + 1 = items.count a := by
  obtain ⟨hLt, rfl⟩ := List.getElem?_eq_some_iff.mp h
  have hSplit : items.count items[position] =
      (items.take position ++ items[position] :: items.drop (position + 1)).count items[position] := by
    rw [List.getElem_cons_drop, List.take_append_drop]
  rw [hSplit, List.eraseIdx_eq_take_drop_succ, List.count_append, List.count_append,
    List.count_cons_self]
  omega

theorem hexEncode_injective : Function.Injective hexEncode := by
  have hDigit : ∀ m < 16, ∀ n < 16, hexDigit m = hexDigit n → m = n := by decide +kernel
  intro a
  induction a with
  | nil =>
    intro b h
    cases b with
    | nil => rfl
    | cons y b => simp [hexEncode] at h
  | cons x a ih =>
    intro b h
    cases b with
    | nil => simp [hexEncode] at h
    | cons y b =>
      simp only [hexEncode, List.flatMap_cons, List.cons_append, List.nil_append,
        List.cons.injEq] at h
      have hx := x.toNat_lt
      have hy := y.toNat_lt
      have hHigh := hDigit _ (by omega) _ (by omega) h.1
      have hLow := hDigit _ (by omega) _ (by omega) h.2.1
      have hHead : x = y := UInt8.toNat.inj (by omega)
      rw [hHead, ih h.2.2]

end Texts

/-! ## Running a call -/

section Programs

variable {store : CustodyStore} {env : Conditions} {α : Type}

/-- A system call fails and nothing else happens, or the program goes on. -/
theorem exec_attempt_bind (outcome : Option Error) (f : PUnit → CustodyM α) :
    (∃ error, exec (attempt outcome >>= f) store = (.error error, store)) ∨
      exec (attempt outcome >>= f) store = exec (f ⟨⟩) store := by
  cases outcome with
  | some error => exact .inl ⟨error, rfl⟩
  | none => exact .inr rfl

/-- The guard and the read of every operation. -/
theorem exec_opened (f : CustodyStore → CustodyM α) :
    (∃ error, exec (storeTransactionGuard env >>= fun _ => loadAt env >>= f) store =
      (.error error, store)) ∨
    exec (storeTransactionGuard env >>= fun _ => loadAt env >>= f) store = exec (f store) store := by
  unfold storeTransactionGuard loadAt
  cases hGuard : env.guard with
  | some error => exact .inl ⟨error, rfl⟩
  | none =>
    cases hLoad : env.load with
    | some error => exact .inl ⟨error, rfl⟩
    | none => exact .inr rfl

theorem exec_saveAt (after : CustodyStore) :
    (∃ error, exec (saveAt env after) store = (.error error, store)) ∨
      exec (saveAt env after) store = (.ok ⟨⟩, after) := by
  unfold saveAt
  cases hSave : env.save with
  | some error => exact .inl ⟨error, rfl⟩
  | none => exact .inr rfl

theorem exec_saveAt_bind (after : CustodyStore) (f : PUnit → CustodyM α) :
    (∃ error, exec (saveAt env after >>= f) store = (.error error, store)) ∨
      exec (saveAt env after >>= f) store = exec (f ⟨⟩) after := by
  unfold saveAt
  cases hSave : env.save with
  | some error => exact .inl ⟨error, rfl⟩
  | none => exact .inr rfl

end Programs

section Codes

variable [CustodyCrypto]

/-- A code of the previous, the current or the next time step. -/
def IsTotp (enrollment : Enrollment) (code : String) (now : UInt64) : Prop :=
  ∃ secret counter, base32Decode enrollment.secretB32 = some secret ∧
    (counter + 1 = now.toNat / period ∨ counter = now.toNat / period ∨
      counter = now.toNat / period + 1) ∧
    trim code = totpCode secret counter

theorem verifyTotpAt_eq_true {secret : List UInt8} {code : String} {now : UInt64}
    (h : verifyTotpAt secret code now = true) :
    (trim code).utf8ByteSize = digits ∧ ∃ counter,
      (counter + 1 = now.toNat / period ∨ counter = now.toNat / period ∨
        counter = now.toNat / period + 1) ∧ trim code = totpCode secret counter := by
  unfold verifyTotpAt at h
  by_cases hShape : (trim code).utf8ByteSize ≠ digits ∨ ¬ (trim code).toList.all Char.isDigit = true
  · rw [if_pos hShape] at h
    exact absurd h (by decide)
  · rw [if_neg hShape] at h
    push Not at hShape
    obtain ⟨d, hd, hEq⟩ := List.any_eq_true.mp h
    rw [constantEq_textBytes] at hEq
    refine ⟨hShape.1, _, ?_, hEq.symm⟩
    simp only [skewSteps, List.mem_cons, List.not_mem_nil, or_false] at hd
    unfold period at *
    rcases hd with rfl | rfl | rfl <;> omega

/-- What a code earns: it is a TOTP of the record, or the digest of its letters and digits
stands at the position. -/
theorem verifyCode_eq_ok {enrollment : Enrollment} {code : Option String} {now : UInt64}
    {verdict : CodeVerdict} (h : verifyCode enrollment code now = .ok verdict) :
    ∃ text, code = some text ∧
      ((verdict = .totp ∧ (trim text).utf8ByteSize = digits ∧ IsTotp enrollment text now) ∨
        ∃ position, verdict = .recovery position ∧
          enrollment.recoveryHashes[position]? = some (hashCode text)) := by
  unfold verifyCode at h
  cases code with
  | none => cases h
  | some text =>
    refine ⟨text, rfl, ?_⟩
    by_cases hEmpty : trim text = ""
    · rw [Option.map_some, Option.filter_some_neg (by simp [hEmpty])] at h
      cases h
    · rw [Option.map_some, Option.filter_some_pos (by simpa using hEmpty)] at h
      cases hSecret : base32Decode enrollment.secretB32 with
      | none => simp [hSecret] at h
      | some secret =>
        simp only [hSecret] at h
        by_cases hTotp : verifyTotpAt secret (trim text) now = true
        · rw [if_pos hTotp] at h
          obtain ⟨hSize, counter, hCounter, hText⟩ := verifyTotpAt_eq_true hTotp
          rw [trim_trim] at hSize hText
          exact .inl ⟨(Except.ok.inj h).symm, hSize, secret, counter, hSecret, hCounter, hText⟩
        · rw [if_neg hTotp] at h
          have hHash : hashCode (trim text) = hashCode text := by
            unfold hashCode
            rw [normalized_trim]
          cases hFind : enrollment.recoveryHashes.findIdx?
              (constantEq · (hashCode (trim text))) with
          | none => simp [hFind] at h
          | some position =>
            simp only [hFind] at h
            obtain ⟨hLt, hEq, -⟩ := List.findIdx?_eq_some_iff_getElem.mp hFind
            rw [constantEq_iff, hHash] at hEq
            exact .inr ⟨position, (Except.ok.inj h).symm, by
              rw [List.getElem?_eq_getElem hLt, hEq]⟩

end Codes

/-! ## Calls -/

/-- The calls that read or change the store. -/
inductive Call where
  | install (networkId account : String)
  | prepare (networkId account : String)
  | settle (networkId transactionId secretB32 : String) (request : EnrollmentSettlementRequest)
  | require (networkId : String) (code : Option String)
  | disable (networkId code : String)

/-- What a call returns. -/
inductive Reply where
  | installed (answer : Except Error Handle)
  | prepared (answer : Except Error EnrollmentPreparation)
  | settled (answer : Except Error EnrollmentSettlementResult)
  | required (answer : Except Error PUnit)
  | disabled (answer : Except Error PUnit)

/-- A call and the conditions it meets. -/
structure Event where
  call : Call
  env : Conditions

def Call.network : Call → String
  | .install networkId _ | .prepare networkId _ | .settle networkId _ _ _
  | .require networkId _ | .disable networkId _ => networkId

/-- The handle of a record that was just installed. -/
def Reply.fresh : Reply → Option Handle
  | .installed (.ok handle) | .prepared (.ok (.fresh handle)) => some handle
  | _ => none

def Reply.opened : Reply → Bool
  | .required (.ok _) => true
  | _ => false

section Calls

variable [CustodyCrypto]

/-- One call on the file: its answer and the file after it. -/
def perform (store : CustodyStore) (event : Event) : Reply × CustodyStore :=
  match event.call with
  | .install networkId account =>
    let result := exec (installProvisionalEnrollAt event.env networkId account) store
    (.installed result.1, result.2)
  | .prepare networkId account =>
    let result := exec (prepareOrRecoverProvisionalEnrollAt event.env networkId account) store
    (.prepared result.1, result.2)
  | .settle networkId transactionId secretB32 request =>
    let result := exec (settleExactAt event.env networkId transactionId secretB32 request) store
    (.settled result.1, result.2)
  | .require networkId code =>
    let result := exec (requireAt event.env networkId code) store
    (.required result.1, result.2)
  | .disable networkId code =>
    let result := exec (disableAt event.env networkId code) store
    (.disabled result.1, result.2)

/-- **What a call can do to the file.** -/
inductive Effect (store : CustodyStore) (event : Event) : Reply × CustodyStore → Prop
  | keep {reply : Reply} (hFresh : reply.fresh = none)
      (hOpened : ∀ networkId code enrollment, event.call = .require networkId code →
        reply.opened = true → store[networkId]? = some enrollment →
        verifyCode enrollment code event.env.now = .ok .totp) :
      Effect store event (reply, store)
  | enroll {networkId account : String} {reply : Reply}
      (hCall : event.call = .install networkId account ∨ event.call = .prepare networkId account)
      (hAbsent : store[networkId]? = none)
      (hFresh : reply.fresh = some
        (handleOf networkId (mintedEnrollment event.env account) account)) :
      Effect store event (reply, store.insert networkId (mintedEnrollment event.env account))
  | commit {networkId : String} {enrollment : Enrollment} {reply : Reply}
      (hCall : event.call = .settle networkId enrollment.transactionId enrollment.secretB32 .commit)
      (hRecord : store[networkId]? = some enrollment) (hPhase : enrollment.phase = .prepared)
      (hFresh : reply.fresh = none) :
      Effect store event (reply, store.insert networkId enrollment.committed)
  | abort {networkId : String} {enrollment : Enrollment} {reply : Reply}
      (hCall : event.call = .settle networkId enrollment.transactionId enrollment.secretB32 .abort)
      (hRecord : store[networkId]? = some enrollment) (hPhase : enrollment.phase = .prepared)
      (hFresh : reply.fresh = none) :
      Effect store event (reply, store.erase networkId)
  | redeem {networkId : String} {code : Option String} {enrollment : Enrollment} {position : Nat}
      {reply : Reply} (hCall : event.call = .require networkId code)
      (hRecord : store[networkId]? = some enrollment)
      (hCode : verifyCode enrollment code event.env.now = .ok (.recovery position))
      (hFresh : reply.fresh = none) :
      Effect store event (reply, store.insert networkId (enrollment.consume position))
  | disable {networkId code : String} {enrollment : Enrollment} {verdict : CodeVerdict}
      {reply : Reply} (hCall : event.call = .disable networkId code)
      (hRecord : store[networkId]? = some enrollment) (hPhase : enrollment.phase = .committed)
      (hCode : verifyCode enrollment (some code) event.env.now = .ok verdict)
      (hFresh : reply.fresh = none) :
      Effect store event (reply, store.erase networkId)

/-! ## The effect of each operation -/

variable {store : CustodyStore} {env : Conditions}

theorem createProvisionalEnrollAt_effect (networkId account : String) :
    (∃ error, exec (createProvisionalEnrollAt env networkId account store) store =
      (.error error, store)) ∨
    (store[networkId]? = none ∧
      exec (createProvisionalEnrollAt env networkId account store) store =
        (.ok (handleOf networkId (mintedEnrollment env account) account),
          store.insert networkId (mintedEnrollment env account))) := by
  unfold createProvisionalEnrollAt refuseIf
  by_cases hContains : store.contains networkId = true
  · rw [if_pos hContains]
    exact .inl ⟨_, rfl⟩
  · rw [if_neg hContains]
    have hAbsent : store[networkId]? = none := by
      cases hRecord : store[networkId]? with
      | none => rfl
      | some record => exact absurd (contains_iff_exists.mpr ⟨record, hRecord⟩) hContains
    show (∃ error, exec (attempt env.lease >>= _) store = _) ∨ _ ∧ exec (attempt env.lease >>= _) _ = _
    rcases exec_attempt_bind env.lease _ with hFail | hLease
    · exact .inl hFail
    · rw [hLease]
      rcases exec_saveAt_bind _ _ with hFail | hSave
      · exact .inl hFail
      · rw [hSave]
        exact .inr ⟨hAbsent, rfl⟩

theorem installProvisionalEnrollAt_effect (networkId account : String) :
    (∃ error, exec (installProvisionalEnrollAt env networkId account) store =
      (.error error, store)) ∨
    (store[networkId]? = none ∧
      exec (installProvisionalEnrollAt env networkId account) store =
        (.ok (handleOf networkId (mintedEnrollment env account) account),
          store.insert networkId (mintedEnrollment env account))) := by
  unfold installProvisionalEnrollAt recoverProvisionalAt
  rcases exec_attempt_bind env.recover _ with hFail | hRecover
  · exact .inl hFail
  · rw [hRecover]
    rcases exec_opened _ with hFail | hOpened
    · exact .inl hFail
    · rw [hOpened]
      exact createProvisionalEnrollAt_effect networkId account

theorem prepareOrRecoverProvisionalEnrollAt_effect (networkId account : String) :
    (∃ answer, exec (prepareOrRecoverProvisionalEnrollAt env networkId account) store =
      (answer, store) ∧ (Reply.prepared answer).fresh = none) ∨
    (store[networkId]? = none ∧
      exec (prepareOrRecoverProvisionalEnrollAt env networkId account) store =
        (.ok (.fresh (handleOf networkId (mintedEnrollment env account) account)),
          store.insert networkId (mintedEnrollment env account))) := by
  unfold prepareOrRecoverProvisionalEnrollAt
  rcases exec_opened _ with ⟨error, hFail⟩ | hOpened
  · exact .inl ⟨.error error, hFail, rfl⟩
  rw [hOpened]
  cases hRecord : store[networkId]? with
  | none =>
    show (∃ answer, exec (EnrollmentPreparation.fresh <$> _) store = _ ∧ _) ∨
      _ ∧ exec (EnrollmentPreparation.fresh <$> _) store = _
    rw [exec_map]
    rcases createProvisionalEnrollAt_effect networkId account with ⟨error, hFail⟩ | ⟨-, hDone⟩
    · rw [hFail]
      exact .inl ⟨.error error, rfl, rfl⟩
    · rw [hDone]
      exact .inr ⟨rfl, rfl⟩
  | some enrollment =>
    left
    by_cases hPrepared : enrollment.isPrepared = true
    · simp only [hPrepared, if_true, exec_map, exec_mk_pure]
      cases preparedEnrollmentFromRecord networkId enrollment with
      | error error => exact ⟨.error error, rfl, rfl⟩
      | ok handle => exact ⟨.ok (.existing handle), rfl, rfl⟩
    · simp only [hPrepared, Bool.false_eq_true, if_false]
      exact ⟨_, rfl, rfl⟩

omit [CustodyCrypto] in
theorem settleExactAt_effect (networkId transactionId secretB32 : String)
    (request : EnrollmentSettlementRequest) :
    (∃ answer, exec (settleExactAt env networkId transactionId secretB32 request) store =
      (answer, store)) ∨
    ∃ installed, store[networkId]? = some installed ∧ installed.phase = .prepared ∧
      installed.transactionId = transactionId ∧ installed.secretB32 = secretB32 ∧
      ((request = .commit ∧ exec (settleExactAt env networkId transactionId secretB32 request)
          store = (.ok .committed, store.insert networkId installed.committed)) ∨
        (request = .abort ∧ exec (settleExactAt env networkId transactionId secretB32 request)
          store = (.ok .absent, store.erase networkId))) := by
  unfold settleExactAt
  rcases exec_opened _ with ⟨error, hFail⟩ | hOpened
  · exact .inl ⟨_, hFail⟩
  rw [hOpened]
  cases hRecord : store[networkId]? with
  | none => exact .inl ⟨_, rfl⟩
  | some installed =>
    simp only [constantEq_textBytes]
    by_cases hNames : ¬ installed.secretB32 = secretB32 ∨
        ¬ installed.transactionId = transactionId
    · rw [if_pos hNames]
      exact .inl ⟨_, rfl⟩
    rw [if_neg hNames]
    push Not at hNames
    by_cases hPrepared : installed.isPrepared = true
    · have hPhase : installed.phase = .prepared := by
        simpa [Enrollment.isPrepared] using hPrepared
      rw [if_neg (not_not.mpr hPrepared)]
      cases request with
      | commit =>
        rcases exec_saveAt_bind (store.insert networkId installed.committed) _ with
          ⟨error, hFail⟩ | hSave
        · exact .inl ⟨_, hFail⟩
        · exact .inr ⟨installed, rfl, hPhase, hNames.2, hNames.1, .inl ⟨rfl, hSave⟩⟩
      | abort =>
        rcases exec_saveAt_bind (store.erase networkId) _ with ⟨error, hFail⟩ | hSave
        · exact .inl ⟨_, hFail⟩
        · exact .inr ⟨installed, rfl, hPhase, hNames.2, hNames.1, .inr ⟨rfl, hSave⟩⟩
    · rw [if_pos hPrepared]
      exact .inl ⟨_, rfl⟩

theorem requireAt_effect (networkId : String) (code : Option String) :
    (∃ answer, exec (requireAt env networkId code) store = (answer, store) ∧
      ∀ enrollment, (Reply.required answer).opened = true → store[networkId]? = some enrollment →
        verifyCode enrollment code env.now = .ok .totp) ∨
    ∃ enrollment position, store[networkId]? = some enrollment ∧
      verifyCode enrollment code env.now = .ok (.recovery position) ∧
      exec (requireAt env networkId code) store =
        (.ok ⟨⟩, store.insert networkId (enrollment.consume position)) := by
  unfold requireAt
  rcases exec_opened _ with ⟨error, hFail⟩ | hOpened
  · exact .inl ⟨_, hFail, fun _ h => absurd h (by simp [Reply.opened])⟩
  rw [hOpened]
  cases hRecord : store[networkId]? with
  | none => exact .inl ⟨_, rfl, fun _ _ h => absurd h (by simp)⟩
  | some enrollment =>
    simp only [exec_bind, exec_mk_pure]
    cases hCode : verifyCode enrollment code env.now with
    | error error => exact .inl ⟨_, rfl, fun _ h => absurd h (by simp [Reply.opened])⟩
    | ok verdict =>
      cases verdict with
      | totp => exact .inl ⟨_, rfl, fun _ _ h => Option.some.inj h ▸ hCode⟩
      | recovery position =>
        rcases exec_saveAt (store.insert networkId (enrollment.consume position)) with
          ⟨error, hFail⟩ | hSave
        · exact .inl ⟨_, hFail, fun _ h => absurd h (by simp [Reply.opened])⟩
        · exact .inr ⟨enrollment, position, rfl, hCode, hSave⟩

theorem disableAt_effect (networkId code : String) :
    (∃ answer, exec (disableAt env networkId code) store = (answer, store)) ∨
    ∃ enrollment verdict, store[networkId]? = some enrollment ∧ enrollment.phase = .committed ∧
      verifyCode enrollment (some code) env.now = .ok verdict ∧
      exec (disableAt env networkId code) store = (.ok ⟨⟩, store.erase networkId) := by
  unfold disableAt
  rcases exec_opened _ with ⟨error, hFail⟩ | hOpened
  · exact .inl ⟨_, hFail⟩
  rw [hOpened]
  cases hRecord : store[networkId]? with
  | none => exact .inl ⟨_, rfl⟩
  | some enrollment =>
    cases hPhase : enrollment.phase with
    | prepared =>
      have hPrepared : enrollment.isPrepared = true := by simp [Enrollment.isPrepared, hPhase]
      simp only [hPrepared, if_true]
      exact .inl ⟨_, rfl⟩
    | committed =>
      have hSettled : enrollment.isPrepared = false := by simp [Enrollment.isPrepared, hPhase]
      simp only [hSettled, Bool.false_eq_true, if_false, exec_bind, exec_mk_pure]
      cases hCode : verifyCode enrollment (some code) env.now with
      | error error => exact .inl ⟨_, rfl⟩
      | ok verdict =>
        rcases exec_saveAt (store.erase networkId) with ⟨error, hFail⟩ | hSave
        · exact .inl ⟨_, hFail⟩
        · exact .inr ⟨enrollment, verdict, rfl, hPhase, hCode, hSave⟩

/-- **Every call has one of these effects.** -/
theorem perform_effect (store : CustodyStore) (event : Event) :
    Effect store event (perform store event) := by
  have hClosed : ∀ {reply : Reply}, reply.fresh = none → reply.opened = false →
      Effect store event (reply, store) :=
    fun hFresh hClosed => .keep hFresh fun _ _ _ _ hOpened => by simp [hClosed] at hOpened
  unfold perform
  cases hCall : event.call with
  | install networkId account =>
    rcases @installProvisionalEnrollAt_effect _ store event.env networkId account with
      ⟨error, hFail⟩ | ⟨hAbsent, hDone⟩
    · simp only [hFail]
      exact hClosed rfl rfl
    · simp only [hDone]
      exact .enroll (.inl hCall) hAbsent rfl
  | prepare networkId account =>
    rcases @prepareOrRecoverProvisionalEnrollAt_effect _ store event.env networkId account with
      ⟨answer, hKept, hFresh⟩ | ⟨hAbsent, hDone⟩
    · simp only [hKept]
      exact hClosed hFresh rfl
    · simp only [hDone]
      exact .enroll (.inr hCall) hAbsent rfl
  | settle networkId transactionId secretB32 request =>
    rcases @settleExactAt_effect store event.env networkId transactionId secretB32 request with
      ⟨answer, hKept⟩ | ⟨installed, hRecord, hPhase, rfl, rfl, ⟨rfl, hDone⟩ | ⟨rfl, hDone⟩⟩
    · simp only [hKept]
      exact hClosed rfl rfl
    · simp only [hDone]
      exact .commit hCall hRecord hPhase rfl
    · simp only [hDone]
      exact .abort hCall hRecord hPhase rfl
  | require networkId code =>
    rcases @requireAt_effect _ store event.env networkId code with
      ⟨answer, hKept, hOpened⟩ | ⟨enrollment, position, hRecord, hCode, hDone⟩
    · simp only [hKept]
      refine .keep rfl fun _ _ enrollment hSame hOk hPresent => ?_
      obtain ⟨rfl, rfl⟩ := Call.require.inj (hCall.symm.trans hSame)
      exact hOpened enrollment hOk hPresent
    · simp only [hDone]
      exact .redeem hCall hRecord hCode rfl
  | disable networkId code =>
    rcases @disableAt_effect _ store event.env networkId code with
      ⟨answer, hKept⟩ | ⟨enrollment, verdict, hRecord, hPhase, hCode, hDone⟩
    · simp only [hKept]
      exact hClosed rfl rfl
    · simp only [hDone]
      exact .disable hCall hRecord hPhase hCode rfl

/-! ## The record of one network -/

def after (store : CustodyStore) (events : List Event) : CustodyStore :=
  events.foldl (fun store event => (perform store event).2) store

/-- **How the record of a network changes in one call.** -/
inductive RecordStep (networkId : String) (event : Event) :
    Option Enrollment → Option Enrollment → Prop
  | keep {record : Option Enrollment} : RecordStep networkId event record record
  | prepare {account : String}
      (hCall : event.call = .install networkId account ∨ event.call = .prepare networkId account) :
      RecordStep networkId event none (some (mintedEnrollment event.env account))
  | commit {enrollment : Enrollment} (hPhase : enrollment.phase = .prepared)
      (hCall : event.call =
        .settle networkId enrollment.transactionId enrollment.secretB32 .commit) :
      RecordStep networkId event (some enrollment) (some enrollment.committed)
  | abort {enrollment : Enrollment} (hPhase : enrollment.phase = .prepared)
      (hCall : event.call =
        .settle networkId enrollment.transactionId enrollment.secretB32 .abort) :
      RecordStep networkId event (some enrollment) none
  | redeem {enrollment : Enrollment} {text : String} {position : Nat}
      (hCall : event.call = .require networkId (some text))
      (hHash : enrollment.recoveryHashes[position]? = some (hashCode text)) :
      RecordStep networkId event (some enrollment) (some (enrollment.consume position))
  | disable {enrollment : Enrollment} {code : String} {verdict : CodeVerdict}
      (hPhase : enrollment.phase = .committed) (hCall : event.call = .disable networkId code)
      (hCode : verifyCode enrollment (some code) event.env.now = .ok verdict) :
      RecordStep networkId event (some enrollment) none

/-- A call that writes one record is a step of every network. -/
theorem RecordStep.written {networkId named : String} {event : Event} {value : Option Enrollment}
    {next : CustodyStore} (hNext : ∀ id, next[id]? = if named = id then value else store[id]?)
    (h : RecordStep named event store[named]? value) :
    RecordStep networkId event store[networkId]? next[networkId]? := by
  rw [hNext]
  by_cases hSame : named = networkId
  · rw [if_pos hSame, ← hSame]
    exact hSame ▸ h
  · rw [if_neg hSame]
    exact .keep

/-- Every call is a step of every record. -/
theorem record_step (store : CustodyStore) (event : Event) (networkId : String) :
    RecordStep networkId event store[networkId]? (perform store event).2[networkId]? := by
  have hEffect := perform_effect store event
  generalize perform store event = result at hEffect
  cases hEffect with
  | keep _ _ => exact .keep
  | enroll hCall hAbsent _ =>
    refine .written (fun id => getElem?_insert_eq _ _ id _) ?_
    rw [hAbsent]
    exact .prepare hCall
  | commit hCall hRecord hPhase _ =>
    refine .written (fun id => getElem?_insert_eq _ _ id _) ?_
    rw [hRecord]
    exact .commit hPhase hCall
  | abort hCall hRecord hPhase _ =>
    refine .written (getElem?_erase_eq _ _) ?_
    rw [hRecord]
    exact .abort hPhase hCall
  | redeem hCall hRecord hCode _ =>
    refine .written (fun id => getElem?_insert_eq _ _ id _) ?_
    rw [hRecord]
    obtain ⟨text, rfl, ⟨hTotp, -⟩ | ⟨place, hPlace, hHash⟩⟩ := verifyCode_eq_ok hCode
    · cases hTotp
    · obtain rfl := CodeVerdict.recovery.inj hPlace
      exact .redeem hCall hHash
  | disable hCall hRecord hPhase hCode _ =>
    refine .written (getElem?_erase_eq _ _) ?_
    rw [hRecord]
    exact .disable hPhase hCall hCode

variable {networkId : String} {event : Event} {record record' : Option Enrollment}
  {enrollment enrollment' : Enrollment}

/-- A call on another network leaves the record. -/
theorem RecordStep.other_network (h : RecordStep networkId event record record')
    (hOther : event.call.network ≠ networkId) : record' = record := by
  cases h with
  | keep => rfl
  | prepare hCall => rcases hCall with hCall | hCall <;> exact absurd (hCall ▸ rfl) hOther
  | commit _ hCall => exact absurd (hCall ▸ rfl) hOther
  | abort _ hCall => exact absurd (hCall ▸ rfl) hOther
  | redeem hCall _ => exact absurd (hCall ▸ rfl) hOther
  | disable _ hCall _ => exact absurd (hCall ▸ rfl) hOther

/-- So does a settlement of another transaction or another secret. -/
theorem RecordStep.other_transaction (h : RecordStep networkId event (some enrollment) record')
    {transactionId secretB32 : String} {request : EnrollmentSettlementRequest}
    (hSettle : event.call = .settle networkId transactionId secretB32 request)
    (hOther : transactionId ≠ enrollment.transactionId ∨ secretB32 ≠ enrollment.secretB32) :
    record' = some enrollment := by
  cases h with
  | keep => rfl
  | commit _ hCall =>
    obtain ⟨-, hTransaction, hSecret, -⟩ := Call.settle.inj (hSettle.symm.trans hCall)
    exact hOther.elim (absurd hTransaction) (absurd hSecret)
  | abort _ hCall =>
    obtain ⟨-, hTransaction, hSecret, -⟩ := Call.settle.inj (hSettle.symm.trans hCall)
    exact hOther.elim (absurd hTransaction) (absurd hSecret)
  | redeem hCall _ => cases hSettle.symm.trans hCall
  | disable _ hCall _ => cases hSettle.symm.trans hCall

/-- A record keeps its secret and its transaction, loses digests only, and keeps no codes
once it is committed. -/
structure Follows (before enrollment : Enrollment) : Prop where
  secret : enrollment.secretB32 = before.secretB32
  transaction : enrollment.transactionId = before.transactionId
  hashes : enrollment.recoveryHashes.Sublist before.recoveryHashes
  clear : enrollment.phase = .committed → before.phase = .committed ∧
    enrollment.preparedRecoveryCodes = before.preparedRecoveryCodes ∨
    enrollment.preparedRecoveryCodes = []

omit [CustodyCrypto] in
theorem Follows.refl (enrollment : Enrollment) : Follows enrollment enrollment :=
  ⟨rfl, rfl, List.Sublist.refl _, fun hPhase => .inl ⟨hPhase, rfl⟩⟩

omit [CustodyCrypto] in
theorem Follows.trans {first second third : Enrollment} (h : Follows first second)
    (h' : Follows second third) : Follows first third where
  secret := h'.secret.trans h.secret
  transaction := h'.transaction.trans h.transaction
  hashes := h'.hashes.trans h.hashes
  clear := by
    intro hPhase
    rcases h'.clear hPhase with ⟨hSecond, hSame⟩ | hEmpty
    · rcases h.clear hSecond with ⟨hFirst, hSame'⟩ | hEmpty
      · exact .inl ⟨hFirst, hSame.trans hSame'⟩
      · exact .inr (hSame.trans hEmpty)
    · exact .inr hEmpty

theorem RecordStep.follows
    (h : RecordStep networkId event (some enrollment) (some enrollment')) :
    Follows enrollment enrollment' := by
  cases h with
  | keep => exact .refl _
  | commit _ _ => exact ⟨rfl, rfl, List.Sublist.refl _, fun _ => .inr rfl⟩
  | redeem _ _ =>
    exact ⟨rfl, rfl, List.eraseIdx_sublist _ _, fun hPhase => .inl ⟨hPhase, rfl⟩⟩

/-- **What opens the gate** of a record: a TOTP, or a recovery code that is used up. -/
theorem opened_by {code : Option String} (hCall : event.call = .require networkId code)
    (hOpened : (perform store event).1.opened = true)
    (hRecord : store[networkId]? = some enrollment) :
    ∃ text, code = some text ∧
      (((trim text).utf8ByteSize = digits ∧ IsTotp enrollment text event.env.now) ∨
        ∃ position, enrollment.recoveryHashes[position]? = some (hashCode text) ∧
          (perform store event).2[networkId]? = some (enrollment.consume position)) := by
  have hEffect := perform_effect store event
  generalize perform store event = result at hEffect hOpened
  cases hEffect with
  | keep _ hTotp =>
    obtain ⟨text, hText, ⟨-, hOpens⟩ | ⟨position, hVerdict, -⟩⟩ :=
      verifyCode_eq_ok (hTotp _ _ _ hCall hOpened hRecord)
    · exact ⟨text, hText, .inl hOpens⟩
    · cases hVerdict
  | enroll hOther _ _ => rcases hOther with hOther | hOther <;> cases hCall.symm.trans hOther
  | commit hOther _ _ _ => cases hCall.symm.trans hOther
  | abort hOther _ _ _ => cases hCall.symm.trans hOther
  | @redeem named given record position _ hOther hPresent hCode _ =>
    obtain ⟨rfl, rfl⟩ := Call.require.inj (hCall.symm.trans hOther)
    obtain rfl := Option.some.inj (hRecord.symm.trans hPresent)
    obtain ⟨text, hText, ⟨hVerdict, -⟩ | ⟨place, hPlace, hHash⟩⟩ := verifyCode_eq_ok hCode
    · cases hVerdict
    · obtain rfl := CodeVerdict.recovery.inj hPlace
      refine ⟨text, hText, .inr ⟨position, hHash, ?_⟩⟩
      rw [getElem?_insert_eq, if_pos rfl]
  | disable hOther _ _ _ _ => cases hCall.symm.trans hOther

/-! ## Whole runs -/

/-- The record is there before and after each of the calls. -/
def StaysEnrolled (networkId : String) : CustodyStore → List Event → Prop
  | store, [] => store[networkId]?.isSome = true
  | store, event :: events =>
    store[networkId]?.isSome = true ∧ StaysEnrolled networkId (perform store event).2 events

/-- The code a call presents to the gate of a network. -/
def Call.presented (networkId : String) : Call → Option String
  | .require named (some text) => if named = networkId then some text else none
  | _ => none

/-- A call that opened the gate with the letters and digits of a code. -/
def redeems (networkId code : String) (store : CustodyStore) (event : Event) : Bool :=
  (perform store event).1.opened &&
    (event.call.presented networkId).any fun text => normalized text == normalized code

/-- How often a code opens the gate while the record stays. -/
def redemptions (networkId code : String) : CustodyStore → List Event → Nat
  | _, [] => 0
  | store, event :: events =>
    if store[networkId]?.isSome then
      (if redeems networkId code store event then 1 else 0) +
        redemptions networkId code (perform store event).2 events
    else 0

omit [CustodyCrypto] in
theorem presented_eq_some {call : Call} {text : String}
    (h : call.presented networkId = some text) : call = .require networkId (some text) := by
  cases call with
  | require named code =>
    cases code with
    | none => cases h
    | some given =>
      rw [Call.presented, Option.ite_none_right_eq_some] at h
      rw [h.1, Option.some.inj h.2]
  | _ => cases h

/-- Each opening with a recovery code uses up one of its digests. -/
theorem redemptions_le_count {code : String} (hCode : digits < (normalized code).toList.length)
    (events : List Event) : ∀ {store : CustodyStore} {enrollment : Enrollment},
    store[networkId]? = some enrollment →
    redemptions networkId code store events ≤
      enrollment.recoveryHashes.count (hashCode code) := by
  induction events with
  | nil =>
    intro store enrollment _
    exact Nat.zero_le _
  | cons event events ih =>
    intro store enrollment hRecord
    rw [redemptions, if_pos (by rw [hRecord]; rfl)]
    have hRest : ∀ {next : Enrollment}, (perform store event).2[networkId]? = some next →
        redemptions networkId code (perform store event).2 events ≤
          next.recoveryHashes.count (hashCode code) := fun hNext => ih hNext
    have hGone : (perform store event).2[networkId]? = none →
        redemptions networkId code (perform store event).2 events = 0 := by
      intro hNone
      cases events with
      | nil => rfl
      | cons _ _ => rw [redemptions, if_neg (by rw [hNone]; decide)]
    by_cases hRedeems : redeems networkId code store event = true
    · rw [if_pos hRedeems]
      unfold redeems at hRedeems
      rw [Bool.and_eq_true, Option.any_eq_true] at hRedeems
      obtain ⟨hOpened, text, hText, hSame⟩ := hRedeems
      rw [beq_iff_eq] at hSame
      obtain ⟨text', hEq, ⟨hSize, -⟩ | ⟨position, hHash, hNext⟩⟩ :=
        opened_by (presented_eq_some hText) hOpened hRecord
      · obtain rfl := Option.some.inj hEq
        have hShort := normalized_length_le text
        rw [hSame] at hShort
        omega
      · obtain rfl := Option.some.inj hEq
        have hHashEq : hashCode text = hashCode code := by
          unfold hashCode
          rw [hSame]
        rw [hHashEq] at hHash
        have hCount := hRest hNext
        have hUsed := count_eraseIdx hHash
        simp only [Enrollment.consume] at hCount
        omega
    · rw [if_neg hRedeems, Nat.zero_add]
      cases hNext : (perform store event).2[networkId]? with
      | none => rw [hGone hNext]; exact Nat.zero_le _
      | some next =>
        have hStep := record_step store event networkId
        rw [hRecord, hNext] at hStep
        exact (hRest hNext).trans (hStep.follows.hashes.count_le _)

theorem after_concat (store : CustodyStore) (events : List Event) (event : Event) :
    after store (events ++ [event]) = (perform (after store events) event).2 := by
  rw [after, List.foldl_append]
  rfl

theorem after_append (store : CustodyStore) (events later : List Event) :
    after store (events ++ later) = after (after store events) later := List.foldl_append

/-- A record that stays is followed by the record at the end. -/
theorem StaysEnrolled.follows (events : List Event) : ∀ {store : CustodyStore}
    {enrollment : Enrollment}, store[networkId]? = some enrollment →
    StaysEnrolled networkId store events → ∃ last,
      (after store events)[networkId]? = some last ∧ Follows enrollment last := by
  induction events with
  | nil =>
    intro store enrollment hRecord _
    exact ⟨enrollment, hRecord, .refl _⟩
  | cons event events ih =>
    intro store enrollment hRecord hStays
    have hNext : (perform store event).2[networkId]?.isSome = true := by
      have hRest := hStays.2
      cases events with
      | nil => exact hRest
      | cons _ _ => exact hRest.1
    obtain ⟨next, hNext⟩ := Option.isSome_iff_exists.mp hNext
    have hStep := record_step store event networkId
    rw [hRecord, hNext] at hStep
    obtain ⟨last, hLast, hFollows⟩ := ih hNext hStays.2
    exact ⟨last, hLast, hStep.follows.trans hFollows⟩

theorem redemptions_concat {code : String} (events : List Event) (event : Event) :
    ∀ {store : CustodyStore}, StaysEnrolled networkId store events →
    redemptions networkId code store (events ++ [event]) =
      redemptions networkId code store events +
        (if redeems networkId code (after store events) event then 1 else 0) := by
  induction events with
  | nil =>
    intro store hStays
    have hPresent : store[networkId]?.isSome = true := hStays
    show redemptions networkId code store [event] = 0 + _
    rw [redemptions, if_pos hPresent, Nat.zero_add]
    rfl
  | cons first events ih =>
    intro store hStays
    rw [List.cons_append, redemptions, if_pos hStays.1, ih hStays.2, redemptions,
      if_pos hStays.1, Nat.add_assoc]
    rfl

/-- Digests only, and no codes once committed. -/
structure Guarded (enrollment : Enrollment) : Prop where
  clear : enrollment.phase = .committed → enrollment.preparedRecoveryCodes = []
  hashes : ∃ draw, enrollment.recoveryHashes.Sublist ((genRecoveryCodes draw).map hashCode)

/-- **Every record of a run is guarded**, by induction on its calls. -/
theorem after_guarded (events : List Event) : ∀ {enrollment : Enrollment},
    (after ∅ events)[networkId]? = some enrollment → Guarded enrollment := by
  induction events using List.reverseRecOn with
  | nil =>
    intro enrollment hRecord
    simp [after] at hRecord
  | append_singleton events event ih =>
    intro enrollment hRecord
    have hStep := record_step (after ∅ events) event networkId
    rw [← after_concat, hRecord] at hStep
    generalize hBefore : (after ∅ events)[networkId]? = before at hStep
    cases hStep with
    | keep => exact ih hBefore
    | prepare hCall => exact ⟨nofun, event.env.draw, List.Sublist.refl _⟩
    | commit hPhase hCall => exact ⟨fun _ => rfl, (ih hBefore).hashes⟩
    | redeem hCall hHash =>
      obtain ⟨hClear, draw, hHashes⟩ := ih hBefore
      exact ⟨hClear, draw, (List.eraseIdx_sublist _ _).trans hHashes⟩

/-- A fresh handle names the record that is now installed. -/
theorem fresh_installs {handle : Handle} (h : (perform store event).1.fresh = some handle) :
    ∃ enrollment draw, (perform store event).2[handle.networkId]? = some enrollment ∧
      enrollment.secretB32 = handle.enrolled.secretB32 ∧
      enrollment.transactionId = handle.transactionId ∧
      enrollment.recoveryHashes = handle.enrolled.recoveryCodes.map hashCode ∧
      handle.enrolled.recoveryCodes = genRecoveryCodes draw := by
  have hEffect := perform_effect store event
  generalize perform store event = result at hEffect h
  cases hEffect with
  | keep hFresh _ => cases hFresh.symm.trans h
  | @enroll named account reply hCall hAbsent hFresh =>
    obtain rfl := Option.some.inj (hFresh.symm.trans h)
    refine ⟨_, event.env.draw, ?_, rfl, rfl, rfl, rfl⟩
    show (store.insert named _)[named]? = _
    rw [getElem?_insert_eq, if_pos rfl]
  | commit _ _ _ hFresh => cases hFresh.symm.trans h
  | abort _ _ _ hFresh => cases hFresh.symm.trans h
  | redeem _ _ _ hFresh => cases hFresh.symm.trans h
  | disable _ _ _ _ hFresh => cases hFresh.symm.trans h

/-- SHA-256 tells the texts of these codes apart. -/
def CollisionFree (codes : List String) : Prop :=
  ∀ a ∈ codes, ∀ b ∈ codes, CustodyCrypto.sha256 (textBytes (normalized a)) =
    CustodyCrypto.sha256 (textBytes (normalized b)) → normalized a = normalized b

theorem CollisionFree.normalized_eq {codes : List String} (h : CollisionFree codes) {a b : String}
    (ha : a ∈ codes) (hb : b ∈ codes) (hEq : hashCode a = hashCode b) :
    normalized a = normalized b :=
  h a ha b hb (hexEncode_injective hEq)

theorem CollisionFree.count_le {codes : List String} (h : CollisionFree codes)
    (hNodup : (codes.map normalized).Nodup) (code : String) :
    (codes.map hashCode).count (hashCode code) ≤ 1 := by
  refine List.nodup_iff_count_le_one.mp ?_ _
  rw [List.nodup_map_iff_inj_on (List.Nodup.of_map _ hNodup)]
  intro a ha b hb hEq
  exact List.inj_on_of_nodup_map hNodup ha hb (h.normalized_eq ha hb hEq)

/-- **The custody lock opens only with its own codes.** In every run from an empty store the
record of a network is only prepared, settled by its own transaction and secret, spent by its
own recovery codes, and disabled by a code that verifies against it; and for each enrollment
the gate opens only to a TOTP of the time or to a recovery code that was not used before, each
of them once. -/
theorem custody_lock_opens_only_with_its_codes (events : List Event) (networkId : String) :
    (∀ prior event later, events = prior ++ event :: later →
      RecordStep networkId event (after ∅ prior)[networkId]?
        (after ∅ (prior ++ [event]))[networkId]? ∧
      (∀ enrollment next, (after ∅ prior)[networkId]? = some enrollment →
        (after ∅ (prior ++ [event]))[networkId]? = some next →
        next.secretB32 = enrollment.secretB32 ∧
          next.transactionId = enrollment.transactionId) ∧
      (event.call.network ≠ networkId →
        (after ∅ (prior ++ [event]))[networkId]? = (after ∅ prior)[networkId]?) ∧
      (∀ enrollment transactionId secretB32 request,
        (after ∅ prior)[networkId]? = some enrollment →
        event.call = .settle networkId transactionId secretB32 request →
        transactionId ≠ enrollment.transactionId ∨ secretB32 ≠ enrollment.secretB32 →
        (after ∅ (prior ++ [event]))[networkId]? = some enrollment)) ∧
    (∀ prior enrollment, prior <+: events → (after ∅ prior)[networkId]? = some enrollment →
      enrollment.phase = .committed → enrollment.preparedRecoveryCodes = [] ∧
        ∃ draw, enrollment.recoveryHashes.Sublist ((genRecoveryCodes draw).map hashCode)) ∧
    (∀ made event rest handle, events = made ++ event :: rest →
      (perform (after ∅ made) event).1.fresh = some handle → handle.networkId = networkId →
      CollisionFree (handle.enrolled.recoveryCodes ++
        rest.filterMap fun later => later.call.presented networkId) →
      (handle.enrolled.recoveryCodes.map normalized).Nodup →
      (∀ middle next later code, rest = middle ++ next :: later →
        StaysEnrolled networkId (after ∅ (made ++ [event])) middle →
        next.call = .require networkId code →
        (perform (after ∅ (made ++ event :: middle)) next).1.opened = true →
        ∃ text enrollment, code = some text ∧
          (after ∅ (made ++ event :: middle))[networkId]? = some enrollment ∧
          enrollment.secretB32 = handle.enrolled.secretB32 ∧
          (IsTotp enrollment text next.env.now ∨
            ∃ unused ∈ handle.enrolled.recoveryCodes, normalized text = normalized unused ∧
              redemptions networkId unused (after ∅ (made ++ [event])) middle = 0)) ∧
      ∀ code ∈ handle.enrolled.recoveryCodes,
        redemptions networkId code (after ∅ (made ++ [event])) rest ≤ 1) := by
  refine ⟨?_, ?_, ?_⟩
  · intro prior event later _
    have hStep := record_step (after ∅ prior) event networkId
    rw [← after_concat] at hStep
    refine ⟨hStep, ?_, hStep.other_network, ?_⟩
    · intro enrollment next hRecord hNext
      rw [hRecord, hNext] at hStep
      exact ⟨hStep.follows.secret, hStep.follows.transaction⟩
    · intro enrollment transactionId secretB32 request hRecord hSettle hOther
      rw [hRecord] at hStep
      exact hStep.other_transaction hSettle hOther
  · intro prior enrollment _ hRecord hPhase
    have hGuarded := after_guarded prior hRecord
    exact ⟨hGuarded.clear hPhase, hGuarded.hashes⟩
  · rintro made event rest handle - hFresh rfl hFree hNodup
    obtain ⟨installed, draw, hInstalled, hSecret, -, hHashes, hDraw⟩ := fresh_installs hFresh
    rw [← after_concat] at hInstalled
    have hCodes : CollisionFree handle.enrolled.recoveryCodes := fun a ha b hb =>
      hFree a (List.mem_append_left _ ha) b (List.mem_append_left _ hb)
    have hOnce : ∀ code ∈ handle.enrolled.recoveryCodes, ∀ calls,
        redemptions handle.networkId code (after ∅ (made ++ [event])) calls ≤ 1 := by
      intro code hCode calls
      have hLong : digits < (normalized code).toList.length := by
        rw [normalized_genRecoveryCodes (hDraw ▸ hCode)]
        decide
      have hCount := redemptions_le_count hLong calls hInstalled
      rw [hHashes] at hCount
      exact hCount.trans (hCodes.count_le hNodup code)
    refine ⟨?_, fun code hCode => hOnce code hCode rest⟩
    intro middle next later code hRest hStays hCall hOpened
    rw [List.append_cons, after_append] at hOpened ⊢
    obtain ⟨enrollment, hRecord, hFollows⟩ := hStays.follows _ hInstalled
    obtain ⟨text, rfl, ⟨-, hTotp⟩ | ⟨position, hHash, -⟩⟩ := opened_by hCall hOpened hRecord
    · exact ⟨text, enrollment, rfl, hRecord, hFollows.secret.trans hSecret, .inl hTotp⟩
    · refine ⟨text, enrollment, rfl, hRecord, hFollows.secret.trans hSecret, .inr ?_⟩
      have hDigest : hashCode text ∈ handle.enrolled.recoveryCodes.map hashCode := by
        rw [← hHashes]
        exact hFollows.hashes.subset (List.mem_of_getElem? hHash)
      obtain ⟨unused, hUnused, hSame⟩ := List.mem_map.mp hDigest
      have hPresented : next.call.presented handle.networkId = some text := by
        rw [hCall, Call.presented, if_pos rfl]
      have hText : normalized text = normalized unused := by
        refine hFree.normalized_eq (List.mem_append_right _ ?_) (List.mem_append_left _ hUnused)
          hSame.symm
        rw [hRest, List.mem_filterMap]
        exact ⟨next, by simp, hPresented⟩
      refine ⟨unused, hUnused, hText, ?_⟩
      have hBound := hOnce unused hUnused (middle ++ [next])
      have hRedeems : redeems handle.networkId unused
          (after (after ∅ (made ++ [event])) middle) next = true := by
        unfold redeems
        rw [hOpened, hPresented]
        simpa using hText
      rw [redemptions_concat middle next hStays, if_pos hRedeems] at hBound
      omega

end Calls

/-- A digest that is the text itself, and codes that are all zeros. -/
@[reducible] def sampleCustodyCrypto : CustodyCrypto where
  hmacSha1 _ _ _ := 0
  sha256 bytes := bytes
  base32Error _ := "invalid length"

def sampleConditions : Conditions :=
  { now := 1000, nonce := "n", recover := none, guard := none, load := none, lease := none
    save := none
    draw :=
      { secret := ⟨5, by decide⟩
        transaction := ⟨9, by decide⟩
        codes := fun i => ⟨i.val <<< 60 % 2 ^ 64, Nat.mod_lt _ (by decide)⟩ } }

/-- An enrollment, its commit and a gate opened with the second recovery code. -/
def sampleLockEvents : List Event :=
  let minted := @mintedEnrollment sampleCustodyCrypto sampleConditions "me"
  [⟨.install "net" "me", sampleConditions⟩,
    ⟨.settle "net" minted.transactionId minted.secretB32 .commit, sampleConditions⟩,
    ⟨.require "net" (some " CAAAA aaaaa"), sampleConditions⟩]

theorem custody_lock_opens_once : let _ : CustodyCrypto := sampleCustodyCrypto
    redemptions "net" "caaaa-aaaaa" (after ∅ (sampleLockEvents.take 1))
      (sampleLockEvents.drop 1) = 1 ∧
    ∃ text enrollment, some " CAAAA aaaaa" = some text ∧
      (after ∅ (sampleLockEvents.take 2))["net"]? = some enrollment ∧
      (IsTotp enrollment text sampleConditions.now ∨
        ∃ unused ∈ genRecoveryCodes sampleConditions.draw, normalized text = normalized unused ∧
          redemptions "net" unused (after ∅ (sampleLockEvents.take 1))
            [sampleLockEvents.getD 1 ⟨.require "" none, sampleConditions⟩] = 0) := by
  let _ : CustodyCrypto := sampleCustodyCrypto
  have hLock := (custody_lock_opens_only_with_its_codes sampleLockEvents "net").2.2
  obtain ⟨hOpens, hOnce⟩ := hLock [] _ _
    (handleOf "net" (mintedEnrollment sampleConditions "me") "me") rfl (by decide +kernel) rfl
    (by unfold CollisionFree; decide +kernel) (by decide +kernel)
  refine ⟨?_, ?_⟩
  · refine le_antisymm (hOnce "caaaa-aaaaa" (by decide +kernel)) ?_
    decide +kernel
  · obtain ⟨text, enrollment, hText, hRecord, -, hCode⟩ := hOpens [_] _ [] _ rfl
      ⟨by decide +kernel, show Option.isSome _ = true by decide +kernel⟩ rfl (by decide +kernel)
    exact ⟨text, enrollment, hText, hRecord, hCode⟩

end MyOwnMesh.Custody
