import MyOwnMesh.Foundation.Collections

/-!
# Canonical semantic content

The typed values a signed fact can carry: device identities, fact identities,
roles, exclusive cells and the nine fact bodies. A device identity is its raw
public key together with the canonical lowercase base32 text of that key;
identities are compared by the text and not by the key bytes, as the program
does, because the two orders differ.

The canonical encoder is the length-delimited byte format whose digest becomes
the fact identity and the keys of the projection commitment.
-/

namespace MyOwnMesh.Semantic

open Foundation

/-! ## Identities -/

/-- Literal digests are read modulo a range that is not empty. -/
instance digest_neZero : NeZero (2 ^ 256) := ⟨by decide⟩

/-- A digest of canonical fact content: 32 bytes, read big-endian. -/
structure FactId where
  bytes : Fin (2 ^ 256)
deriving DecidableEq

/-- Thirty-two digest bytes compare as the number they spell. -/
instance : Ord FactId := ⟨fun a b => compare a.bytes.val b.bytes.val⟩

instance : Std.TransOrd FactId := transOrd_of_rank (fun id => id.bytes.val) fun _ _ => rfl

instance : Std.LawfulEqOrd FactId :=
  lawfulEqOrd_of_rank (fun id => id.bytes.val) (fun _ _ => rfl) <| by
    rintro ⟨a⟩ ⟨b⟩ h
    exact congrArg FactId.mk (Fin.ext h)

/-- The identity of one mesh context: 32 digest bytes. -/
structure MeshContextId where
  bytes : Fin (2 ^ 256)
deriving DecidableEq

/-- The ASCII code of one lowercase base32 symbol: `a`–`z`, then `2`–`7`. -/
def base32Char (symbol : Nat) : Nat :=
  if symbol < 26 then 97 + symbol else 24 + symbol

/-- The last `count` base32 characters of `value`, packed big-endian. -/
def base32Chars : Nat → Nat → Nat
  | 0, _ => 0
  | count + 1, value => base32Chars count (value / 32) * 256 + base32Char (value % 32)

/-- The 52-character text of a key. The 256 key bits are followed by the four
zero bits of unpadded base32; equal-length texts compare as packed numbers. -/
def base32Text (key : Nat) : Nat := base32Chars 52 (key * 16)

private theorem base32Char_lt (symbol : Nat) (h : symbol < 32) : base32Char symbol < 256 := by
  unfold base32Char
  split <;> omega

private theorem base32Char_injective {a b : Nat} (ha : a < 32) (hb : b < 32)
    (h : base32Char a = base32Char b) : a = b := by
  unfold base32Char at h
  split at h <;> split at h <;> omega

private theorem base32Chars_injective (count : Nat) :
    ∀ a b : Nat, a < 32 ^ count → b < 32 ^ count →
      base32Chars count a = base32Chars count b → a = b := by
  induction count with
  | zero =>
    intro a b ha hb _
    omega
  | succ count ih =>
    intro a b ha hb h
    have hLowA := base32Char_lt (a % 32) (Nat.mod_lt _ (by omega))
    have hLowB := base32Char_lt (b % 32) (Nat.mod_lt _ (by omega))
    simp only [base32Chars] at h
    have hLow : a % 32 = b % 32 :=
      base32Char_injective (Nat.mod_lt _ (by omega)) (Nat.mod_lt _ (by omega)) (by omega)
    have hHigh : a / 32 = b / 32 := by
      rw [Nat.pow_succ] at ha hb
      exact ih _ _ (Nat.div_lt_of_lt_mul (by omega)) (Nat.div_lt_of_lt_mul (by omega))
        (by omega)
    omega

theorem base32Text_injective {a b : Nat} (ha : a < 2 ^ 256) (hb : b < 2 ^ 256)
    (h : base32Text a = base32Text b) : a = b := by
  have h16 := base32Chars_injective 52 (a * 16) (b * 16) (by omega) (by omega) h
  omega

/-- The only authority-bearing identity: a public key with its canonical text. -/
structure DeviceId where
  bytes : Fin (2 ^ 256)
  canonical : Nat
  canonical_eq : canonical = base32Text bytes.val
deriving DecidableEq

def DeviceId.fromPublicKeyBytes (bytes : Fin (2 ^ 256)) : DeviceId :=
  ⟨bytes, base32Text bytes.val, rfl⟩

/-- Identities are ordered by canonical text, not by raw key bytes. -/
instance : Ord DeviceId := ⟨fun a b => compare a.canonical b.canonical⟩

theorem DeviceId.canonical_injective : Function.Injective DeviceId.canonical := by
  rintro ⟨a, textA, hA⟩ ⟨b, textB, hB⟩ h
  change textA = textB at h
  have hab : a = b := Fin.ext (base32Text_injective a.isLt b.isLt (by rw [← hA, ← hB, h]))
  subst hab h
  rfl

instance : Std.TransOrd DeviceId := transOrd_of_rank DeviceId.canonical fun _ _ => rfl

instance : Std.LawfulEqOrd DeviceId :=
  lawfulEqOrd_of_rank DeviceId.canonical (fun _ _ => rfl) DeviceId.canonical_injective

/-! ## Roles, decisions and cells -/

/-- What a fact is signed for. -/
inductive FactDomain where
  | governance
  | evictionProof
deriving DecidableEq

/-- Role tiers, in ascending order. -/
inductive Role where
  | member
  | controller
  | owner
deriving DecidableEq

/-- The tier as a number, for the derived order of the source enumeration. -/
def Role.rank : Role → Nat
  | .member => 0
  | .controller => 1
  | .owner => 2

/-- What a signer says of a proposal. -/
inductive AttestationDecision where
  | evict
  | approve
  | reject
deriving DecidableEq

/-- A register in which facts compete. -/
inductive ExclusiveCell where
  | role (subject : DeviceId)
  | membership (subject : DeviceId)
  | decision (proposal : FactId)
deriving DecidableEq

/-- The position of a cell's variant in the source enumeration. -/
def ExclusiveCell.variant : ExclusiveCell → Nat
  | .role _ => 0
  | .membership _ => 1
  | .decision _ => 2

/-- The number a cell's field is compared by. -/
def ExclusiveCell.fieldRank : ExclusiveCell → Nat
  | .role subject => subject.canonical
  | .membership subject => subject.canonical
  | .decision proposal => proposal.bytes.val

/-- The derived order of the source enumeration: by variant, then by field. -/
instance : Ord ExclusiveCell :=
  ⟨compareLex (compareOn ExclusiveCell.variant) (compareOn ExclusiveCell.fieldRank)⟩

instance : Std.TransOrd ExclusiveCell :=
  inferInstanceAs (Std.TransCmp
    (compareLex (compareOn ExclusiveCell.variant) (compareOn ExclusiveCell.fieldRank)))

instance : Std.LawfulEqOrd ExclusiveCell where
  eq_of_compare := by
    intro a b h
    obtain ⟨hVariant, hField⟩ := Ordering.then_eq_eq.mp h
    replace hVariant : a.variant = b.variant := Std.compare_eq_iff_eq.mp hVariant
    replace hField : a.fieldRank = b.fieldRank := Std.compare_eq_iff_eq.mp hField
    clear h
    cases a <;> cases b <;> simp only [ExclusiveCell.variant] at hVariant <;> try omega
    · exact congrArg _ (DeviceId.canonical_injective hField)
    · exact congrArg _ (DeviceId.canonical_injective hField)
    · rename_i p q
      obtain ⟨p⟩ := p
      obtain ⟨q⟩ := q
      exact congrArg (fun id => ExclusiveCell.decision ⟨id⟩) (Fin.ext hField)

/-- The pair order of a selector and its selected head. -/
instance : Ord (FactId × FactId) := ⟨compareLex (compareOn Prod.fst) (compareOn Prod.snd)⟩

instance : Std.TransOrd (FactId × FactId) :=
  inferInstanceAs (Std.TransCmp (compareLex
    (compareOn (Prod.fst : FactId × FactId → FactId))
    (compareOn (Prod.snd : FactId × FactId → FactId))))

instance : Std.LawfulEqOrd (FactId × FactId) where
  eq_of_compare := by
    rintro ⟨a, b⟩ ⟨c, d⟩ h
    obtain ⟨hFst, hSnd⟩ := Ordering.then_eq_eq.mp h
    have hFst : a = c := Std.LawfulEqOrd.eq_of_compare hFst
    have hSnd : b = d := Std.LawfulEqOrd.eq_of_compare hSnd
    rw [hFst, hSnd]

/-! ## Fact bodies -/

/-- Signed authority lineage for one subject: the subject's AuthorityUse heads
the author saw. -/
structure AuthorityUse where
  subject : DeviceId
  predecessors : List FactId
deriving DecidableEq

/-- What a signed fact states. -/
inductive FactBody where
  | roleGrant (target : DeviceId) (role : Role)
  | roleRevoke (target : DeviceId)
  | evict (target : DeviceId)
  | membershipAdmit (target : DeviceId)
  | evictionProof (target : DeviceId) (evidence : List FactId)
  | selfStandDown (deviceId : DeviceId) (evidence : List FactId)
  | attestation (target : DeviceId) (proposal : FactId) (decision : AttestationDecision)
      (signer : DeviceId) (contributions : List FactId)
  | resolution (cell : ExclusiveCell) (citedHeads : List FactId) (selectedHead : FactId)
  | authorityLineageResolution (subject : DeviceId) (citedHeads : List FactId)
      (selectedHead : FactId)
deriving DecidableEq

namespace FactBody

def domain : FactBody → FactDomain
  | .evictionProof .. | .selfStandDown .. => .evictionProof
  | _ => .governance

/-- The cells a body advances. -/
def exclusiveCells : FactBody → List ExclusiveCell
  | .roleGrant target _ | .roleRevoke target => [.role target]
  | .evict target => [.role target, .membership target]
  | .membershipAdmit target => [.membership target]
  | .evictionProof .. | .selfStandDown .. => []
  | .attestation _ proposal _ _ _ => [.decision proposal]
  | .resolution cell _ _ => [cell]
  | .authorityLineageResolution .. => []

/-- The subjects whose authority lineage a body must carry, sorted. -/
def authorityUseSubjects (body : FactBody) (author : DeviceId) : List DeviceId :=
  sortDedup <| match body with
    | .roleGrant target _ | .roleRevoke target | .evict target => [author, target]
    | .membershipAdmit target | .evictionProof target _ => [author, target]
    | .selfStandDown deviceId _ => [author, deviceId]
    | .attestation .. => [author]
    | .resolution (.role subject) _ _ | .resolution (.membership subject) _ _ =>
      [author, subject]
    | .resolution (.decision _) _ _ => [author]
    | .authorityLineageResolution subject _ _ => [author, subject]

/-- The body-owned facts that must lie in a fact's causal past. -/
def support : FactBody → List FactId
  | .evictionProof _ evidence | .selfStandDown _ evidence => evidence
  | .attestation _ proposal _ _ contributions => proposal :: contributions
  | .resolution _ citedHeads _ | .authorityLineageResolution _ citedHeads _ => citedHeads
  | _ => []

/-- Whether a body is a candidate for the exact cell. -/
def advancesCell (body : FactBody) (cell : ExclusiveCell) : Bool :=
  body.exclusiveCells.any fun candidate => candidate == cell

def standDownTarget : FactBody → Option DeviceId
  | .evictionProof target _ => some target
  | .selfStandDown deviceId _ => some deviceId
  | _ => none

/-- The role value carried by an already selected role-cell fact. -/
def projectedRole (body : FactBody) (subject : DeviceId) : Option Role :=
  match body with
  | .roleGrant target role => if target = subject then some role else none
  | _ => none

/-- The membership value carried by an already selected membership-cell fact. -/
def projectedMembership (body : FactBody) (subject : DeviceId) : Option Bool :=
  match body with
  | .evict target => if target = subject then some false else none
  | .membershipAdmit target => if target = subject then some true else none
  | _ => none

/-- The decision carried by an already selected decision-cell fact. -/
def projectedDecision (body : FactBody) (proposal : FactId) : Option AttestationDecision :=
  match body with
  | .attestation _ factProposal decision _ _ =>
    if factProposal = proposal then some decision else none
  | _ => none

/-- A membership resolution by another device carries its subject's AuthorityUse
witness for the payload only; the witness is no lineage edge of that subject. -/
def isPayloadLocalResolution (body : FactBody) (author subject : DeviceId) : Bool :=
  match body with
  | .resolution (.membership cellSubject) _ _ =>
    cellSubject == subject && cellSubject != author
  | _ => false

/-- The head a lineage or role resolution of `subject` selects. -/
def authorityResolutionSelection (body : FactBody) (subject : DeviceId) : Option FactId :=
  match body with
  | .authorityLineageResolution selectedSubject _ selectedHead =>
    if selectedSubject = subject then some selectedHead else none
  | .resolution (.role cellSubject) _ selectedHead =>
    if cellSubject = subject then some selectedHead else none
  | _ => none

/-- The subject and selected head of a typed lineage selector. -/
def lineageSelector : FactBody → Option (DeviceId × FactId)
  | .authorityLineageResolution subject _ selectedHead => some (subject, selectedHead)
  | _ => none

end FactBody

/-! ## Canonical encoding -/

/-- `width` big-endian bytes of a number. -/
def beBytes : Nat → Nat → List UInt8
  | 0, _ => []
  | width + 1, value => UInt8.ofNat (value / 256 ^ width) :: beBytes width value

namespace Encoder

def text (value : String) : List UInt8 :=
  beBytes 8 value.utf8ByteSize ++ value.toUTF8.toList

def tag (value : String) : List UInt8 := text value

def id (value : FactId) : List UInt8 := beBytes 32 value.bytes.val

def device (value : DeviceId) : List UInt8 := beBytes 32 value.bytes.val

def context (value : MeshContextId) : List UInt8 := beBytes 32 value.bytes.val

def listIds (values : List FactId) : List UInt8 :=
  beBytes 8 values.length ++ values.flatMap id

def listAuthorityUses (values : List AuthorityUse) : List UInt8 :=
  beBytes 8 values.length ++
    values.flatMap fun value => device value.subject ++ listIds value.predecessors

end Encoder

def FactDomain.tag : FactDomain → String
  | .governance => "governance"
  | .evictionProof => "eviction_proof"

def Role.tag : Role → String
  | .member => "member"
  | .controller => "controller"
  | .owner => "owner"

def AttestationDecision.tag : AttestationDecision → String
  | .evict => "evict"
  | .approve => "approve"
  | .reject => "reject"

def ExclusiveCell.encode : ExclusiveCell → List UInt8
  | .role subject => Encoder.tag "role" ++ Encoder.device subject
  | .membership subject => Encoder.tag "membership" ++ Encoder.device subject
  | .decision proposal => Encoder.tag "decision" ++ Encoder.id proposal

open Encoder in
/-- The canonical encoding: a tag, then the fields. -/
def FactBody.encode : FactBody → List UInt8
  | .roleGrant target role => tag "role_grant" ++ device target ++ tag role.tag
  | .roleRevoke target => tag "role_revoke" ++ device target
  | .evict target => tag "evict" ++ device target
  | .membershipAdmit target => tag "membership_admit" ++ device target
  | .evictionProof target evidence => tag "eviction_proof" ++ device target ++ listIds evidence
  | .selfStandDown deviceId evidence =>
    tag "self_stand_down" ++ device deviceId ++ listIds evidence
  | .attestation target proposal decision signer contributions =>
    tag "attestation" ++ device target ++ Encoder.id proposal ++ tag decision.tag ++
      device signer ++ listIds contributions
  | .resolution cell citedHeads selectedHead =>
    tag "resolution" ++ cell.encode ++ listIds citedHeads ++ Encoder.id selectedHead
  | .authorityLineageResolution subject citedHeads selectedHead =>
    tag "authority_lineage_resolution" ++ device subject ++ listIds citedHeads ++
      Encoder.id selectedHead

end MyOwnMesh.Semantic
