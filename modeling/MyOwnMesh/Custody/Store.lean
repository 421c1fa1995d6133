import MyOwnMesh.Foundation.Netstring
import MyOwnMesh.Foundation.Program
import MyOwnMesh.Semantic.Content

/-!
# The custody store

Per-device TOTP enrollments, one for each network, in one protected file. The file is
the state of a program of `CustodyM`: a call reads it, checks, and writes the edited map
back in one save, so a save that fails leaves it as it was. `Conditions` is what a call
meets outside of the file: the clock, the random draws, and which of its system calls
fail. HMAC-SHA1, SHA-256 and the error text of the base32 decoder are the fields of
`CustodyCrypto`.
-/

namespace MyOwnMesh.Custody

open Foundation Semantic

/-- The primitives that are not modelled. -/
class CustodyCrypto where
  /-- HMAC-SHA1 of a key and a message. -/
  hmacSha1 : List UInt8 → List UInt8 → Fin 20 → UInt8
  sha256 : List UInt8 → List UInt8
  /-- The text of the error of a decode that failed. -/
  base32Error : String → String

def digits : Nat := 6
def period : Nat := 30
def skewSteps : List Int := [-1, 0, 1]
def issuer : String := "MyOwnMesh"

/-! ## Texts -/

/-- `BASE32_NOPAD.encode` of `width` bytes. -/
def base32Encode (width value : Nat) : String :=
  let count := (8 * width + 4) / 5
  String.ofList ((List.range count).map fun place =>
    let symbol := value * 2 ^ (5 * count - 8 * width) / 32 ^ (count - 1 - place) % 32
    if symbol < 26 then Char.ofNat (65 + symbol) else Char.ofNat (24 + symbol))

def base32Symbol (c : Char) : Option Nat :=
  if 65 ≤ c.toNat ∧ c.toNat ≤ 90 then some (c.toNat - 65)
  else if 50 ≤ c.toNat ∧ c.toNat ≤ 55 then some (c.toNat - 24)
  else none

/-- `BASE32_NOPAD.decode`: whole bytes, and no bits behind the last one. -/
def base32Decode (text : String) : Option (List UInt8) := do
  let symbols ← text.toList.mapM base32Symbol
  let value := symbols.foldl (fun acc symbol => acc * 32 + symbol) 0
  let spare := 5 * symbols.length % 8
  if 5 ≤ spare ∨ value % 2 ^ spare ≠ 0 then none
  else some (beBytes (5 * symbols.length / 8) (value / 2 ^ spare))

def hexDigit (n : Nat) : UInt8 := if n < 10 then UInt8.ofNat (48 + n) else UInt8.ofNat (87 + n)

def hexEncode (bytes : List UInt8) : List UInt8 :=
  bytes.flatMap fun byte => [hexDigit (byte.toNat / 16), hexDigit (byte.toNat % 16)]

def isWhitespace (c : Char) : Bool :=
  [0x20, 0x85, 0xa0, 0x1680, 0x2028, 0x2029, 0x202f, 0x205f, 0x3000].contains c.toNat ||
    (9 ≤ c.toNat && c.toNat ≤ 13) || (0x2000 ≤ c.toNat && c.toNat ≤ 0x200a)

def trim (text : String) : String :=
  String.ofList (((text.toList.dropWhile isWhitespace).reverse.dropWhile isWhitespace).reverse)

def constantEq (a b : List UInt8) : Bool :=
  if a.length ≠ b.length then false
  else (a.zip b).foldl (fun diff pair => diff ||| (pair.1 ^^^ pair.2)) 0 == 0

/-- Percent-encode everything but the unreserved set. -/
def pct (text : String) : String :=
  String.ofList ((textBytes text).flatMap fun byte =>
    let c := Char.ofNat byte.toNat
    if c.isAlphanum || ['-', '.', '_', '~'].contains c then [c]
    else ['%', (Char.ofNat (hexDigit (byte.toNat / 16)).toNat).toUpper,
      (Char.ofNat (hexDigit (byte.toNat % 16)).toNat).toUpper])

def provisioningUri (secretB32 account : String) : String :=
  "otpauth://totp/" ++ pct issuer ++ ":" ++ pct account ++ "?secret=" ++ secretB32 ++ "&issuer=" ++
    pct issuer ++ "&algorithm=SHA1&digits=" ++ toString digits ++ "&period=" ++ toString period

/-- The letters and digits of a code, in lower case. -/
def normalized (code : String) : String :=
  String.ofList ((code.toList.filter Char.isAlphanum).map Char.toLower)

/-! ## Codes -/

section Codes

variable [CustodyCrypto]

/-- The code of RFC 4226 for a counter. -/
def hotp (secret : List UInt8) (counter : Nat) : Nat :=
  let digest := CustodyCrypto.hmacSha1 secret (beBytes 8 counter)
  let offset := (digest 19).toNat % 16
  let byte (place : Nat) := (digest (Fin.ofNat 20 (offset + place))).toNat
  (byte 0 % 128 * 2 ^ 24 + byte 1 * 2 ^ 16 + byte 2 * 2 ^ 8 + byte 3) % 10 ^ digits

/-- The code of one time step, with leading zeros. -/
def totpCode (secret : List UInt8) (counter : Nat) : String :=
  let text := toString (hotp secret counter)
  String.ofList (List.replicate (digits - text.length) '0' ++ text.toList)

/-- The code of this step, or of one next to it. -/
def verifyTotpAt (secret : List UInt8) (code : String) (unix : UInt64) : Bool :=
  let text := trim code
  if text.utf8ByteSize ≠ digits ∨ ¬ text.toList.all Char.isDigit = true then false
  else
    let step : Int := unix.toNat / period
    skewSteps.any fun d =>
      constantEq (textBytes (totpCode secret (max (step + d) 0).toNat)) (textBytes text)

def hashCode (code : String) : List UInt8 :=
  hexEncode (CustodyCrypto.sha256 (textBytes (normalized code)))

end Codes

/-! ## Records -/

/-- Whether the caller has confirmed the record. -/
inductive EnrollmentPhase where
  | prepared
  | committed
deriving DecidableEq

/-- The stored record of a network's lock. -/
structure Enrollment where
  secretB32 : String
  /-- The digests of the unused recovery codes, as text. -/
  recoveryHashes : List (List UInt8)
  createdAt : UInt64
  phase : EnrollmentPhase
  transactionId : String
  preparedRecoveryCodes : List String
  preparedAccount : String
  processNonce : String
deriving DecidableEq

/-- The file: an absent one reads as the empty map. -/
abbrev CustodyStore := OrdMap String Enrollment

inductive Error where
  | custody (message : String)
  | json
deriving DecidableEq

/-- The random bytes of an enrollment. -/
structure Draw where
  secret : Fin (2 ^ 160)
  codes : Fin 10 → Fin (2 ^ 64)
  transaction : Fin (2 ^ 128)

/-- What a call meets outside of the file. -/
structure Conditions where
  now : UInt64
  nonce : String
  draw : Draw
  /-- The read of `recover_provisional_at`. -/
  recover : Option Error
  /-- `store_transaction_guard`. -/
  guard : Option Error
  load : Option Error
  lease : Option Error
  save : Option Error

structure Enrolled where
  secretB32 : String
  otpauthUri : String
  recoveryCodes : List String
deriving DecidableEq

/-- `ProvisionalEnrollment` and `PreparedEnrollment`: the exact transaction of one record. -/
structure Handle where
  networkId : String
  transactionId : String
  enrolled : Enrolled
deriving DecidableEq

/-- A new record, or the prepared one again. -/
inductive EnrollmentPreparation where
  | fresh (handle : Handle)
  | existing (handle : Handle)
deriving DecidableEq

inductive EnrollmentSettlementRequest where
  | commit
  | abort
deriving DecidableEq

inductive EnrollmentSettlementResult where
  | committed
  | absent
deriving DecidableEq

/-- `gen_recovery_codes`: ten texts `xxxxx-xxxxx`. -/
def genRecoveryCodes (draw : Draw) : List String :=
  (List.finRange 10).map fun i =>
    let code := ((base32Encode 8 (draw.codes i).val).toList.map Char.toLower).take 10
    String.ofList (code.take 5 ++ '-' :: code.drop 5)

def Enrollment.isPrepared (enrollment : Enrollment) : Bool := enrollment.phase == .prepared

/-! ## Operations -/

/-- A program on the file. -/
abbrev CustodyM := Prog CustodyStore Error

def attempt (outcome : Option Error) : CustodyM PUnit :=
  match outcome with
  | some error => throw error
  | none => pure ⟨⟩

def storeTransactionGuard (env : Conditions) : CustodyM PUnit := attempt env.guard

def loadAt (env : Conditions) : CustodyM CustodyStore := do
  attempt env.load
  get

/-- One atomic write of the whole map. -/
def saveAt (env : Conditions) (store : CustodyStore) : CustodyM PUnit := do
  attempt env.save
  set store

def recoverProvisionalAt (env : Conditions) : CustodyM PUnit := attempt env.recover

def alreadyEnrolled (networkId : String) : Error :=
  .custody s!"network {networkId} already has MFA enrolled on this device; disable it first"

section Operations

variable [CustodyCrypto]

/-- A fresh prepared record. -/
def mintedEnrollment (env : Conditions) (account : String) : Enrollment :=
  { secretB32 := base32Encode 20 env.draw.secret.val
    recoveryHashes := (genRecoveryCodes env.draw).map hashCode
    createdAt := env.now
    phase := .prepared
    transactionId := String.ofList ((base32Encode 16 env.draw.transaction.val).toList.map Char.toLower)
    preparedRecoveryCodes := genRecoveryCodes env.draw
    preparedAccount := account
    processNonce := env.nonce }

/-- What the caller gets of a record. -/
def handleOf (networkId : String) (enrollment : Enrollment) (account : String) : Handle :=
  { networkId, transactionId := enrollment.transactionId
    enrolled := {
      secretB32 := enrollment.secretB32
      otpauthUri := provisioningUri enrollment.secretB32 account
      recoveryCodes := enrollment.preparedRecoveryCodes } }

/-- Save a prepared record; its commit makes it active. -/
def createProvisionalEnrollAt (env : Conditions) (networkId account : String)
    (store : CustodyStore) : CustodyM Handle := do
  refuseIf (store.contains networkId = true) (alreadyEnrolled networkId)
  let enrollment := mintedEnrollment env account
  attempt env.lease
  saveAt env (store.insert networkId enrollment)
  return handleOf networkId enrollment account

/-- A transaction that installs a prepared record. -/
def installProvisionalEnrollAt (env : Conditions) (networkId account : String) :
    CustodyM Handle := do
  recoverProvisionalAt env
  storeTransactionGuard env
  let store ← loadAt env
  createProvisionalEnrollAt env networkId account store

/-- What a prepared record can deliver again. -/
def preparedEnrollmentFromRecord (networkId : String) (enrollment : Enrollment) :
    Except Error Handle := do
  failIf (enrollment.transactionId = "") (.custody
    s!"prepared custody record for {networkId} has no transaction identity")
  failIf (enrollment.secretB32 = "") (.custody
    s!"prepared custody record for {networkId} has no secret")
  failIf (enrollment.preparedRecoveryCodes = []) (.custody
    s!"prepared custody record for {networkId} has no re-deliverable recovery material")
  failIf (enrollment.preparedAccount = "") (.custody
    s!"prepared custody record for {networkId} has no account label")
  return handleOf networkId enrollment enrollment.preparedAccount

/-- Prepare an enrollment, or deliver the prepared one again. -/
def prepareOrRecoverProvisionalEnrollAt (env : Conditions) (networkId account : String) :
    CustodyM EnrollmentPreparation := do
  storeTransactionGuard env
  let store ← loadAt env
  match store[networkId]? with
  | none => .fresh <$> createProvisionalEnrollAt env networkId account store
  | some enrollment =>
    if enrollment.isPrepared then
      .existing <$> ExceptT.mk (pure (preparedEnrollmentFromRecord networkId enrollment))
    else throw (alreadyEnrolled networkId)

/-- The record after its commit: the handoff material is gone. -/
def Enrollment.committed (enrollment : Enrollment) : Enrollment :=
  { enrollment with
    phase := .committed
    preparedRecoveryCodes := []
    preparedAccount := ""
    processNonce := "" }

/-- Commit or abort the one transaction that both texts name. -/
def settleExactAt (env : Conditions) (networkId transactionId secretB32 : String)
    (request : EnrollmentSettlementRequest) : CustodyM EnrollmentSettlementResult := do
  storeTransactionGuard env
  let store ← loadAt env
  match store[networkId]? with
  | none => return .absent
  | some installed =>
    if ¬ constantEq (textBytes installed.secretB32) (textBytes secretB32) = true ∨
        ¬ constantEq (textBytes installed.transactionId) (textBytes transactionId) = true then
      return .absent
    else if ¬ installed.isPrepared = true then
      return .committed
    else
      match request with
      | .commit =>
        saveAt env (store.insert networkId installed.committed)
        return .committed
      | .abort =>
        saveAt env (store.erase networkId)
        return .absent

/-- What a code earns against one record: a TOTP, or a recovery code at a position. -/
inductive CodeVerdict where
  | totp
  | recovery (position : Nat)
deriving DecidableEq

/-- Try the code as a one-time password, then as a recovery code. -/
def verifyCode (enrollment : Enrollment) (code : Option String) (now : UInt64) :
    Except Error CodeVerdict :=
  match (code.map trim).filter (· ≠ "") with
  | none => .error (.custody "this change requires your authenticator code")
  | some code =>
    match base32Decode enrollment.secretB32 with
    | none => .error (.custody ("stored secret is not valid base32: " ++
        CustodyCrypto.base32Error enrollment.secretB32))
    | some secret =>
      if verifyTotpAt secret code now then .ok .totp
      else
        match enrollment.recoveryHashes.findIdx? (constantEq · (hashCode code)) with
        | some position => .ok (.recovery position)
        | none => .error (.custody "invalid authenticator code")

def Enrollment.consume (enrollment : Enrollment) (position : Nat) : Enrollment :=
  { enrollment with recoveryHashes := enrollment.recoveryHashes.eraseIdx position }

/-- Open the lock; a recovery code is consumed. -/
def requireAt (env : Conditions) (networkId : String) (code : Option String) :
    CustodyM PUnit := do
  storeTransactionGuard env
  let store ← loadAt env
  match store[networkId]? with
  | none => return ⟨⟩
  | some enrollment =>
    match ← ExceptT.mk (pure (verifyCode enrollment code env.now)) with
    | .totp => return ⟨⟩
    | .recovery position => saveAt env (store.insert networkId (enrollment.consume position))

/-- Remove an enrollment, against a valid code. -/
def disableAt (env : Conditions) (networkId code : String) : CustodyM PUnit := do
  storeTransactionGuard env
  let store ← loadAt env
  match store[networkId]? with
  | none => return ⟨⟩
  | some enrollment =>
    if enrollment.isPrepared then throw (.custody
      s!"network {networkId} has a Prepared MFA transaction; explicitly abort it before disabling")
    else
      let _ ← ExceptT.mk (pure (verifyCode enrollment (some code) env.now))
      saveAt env (store.erase networkId)

end Operations

end MyOwnMesh.Custody
