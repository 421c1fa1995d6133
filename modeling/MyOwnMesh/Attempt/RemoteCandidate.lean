import MyOwnMesh.Foundation.KeyedList
import MyOwnMesh.Semantic.Encoding

/-!
# Remote candidate attempts

One attempt owns the remote candidates of a connector: an admission pays for the digest
work, hashes the candidate and retains the digest under a lease of its own; applying a
candidate moves its lease into the application. Every refusal of an admission or of an
application ends the attempt and drops what it retained. SHA-256 is an arbitrary function
into an arbitrary type `δ`, and `ε` are the provider's reasons.
-/

namespace MyOwnMesh.Attempt

open Foundation Semantic

variable {ε δ : Type}

/-! ## Digests -/

/-- Borrowed connector-neutral candidate content. -/
structure RemoteCandidateInput where
  candidate : List UInt8
  sdpMid : Option (List UInt8)
  sdpMlineIndex : Option UInt16
  usernameFragment : Option (List UInt8)
deriving DecidableEq

inductive RemoteCandidateTerminalReason (ε : Type) where
  | provider (error : ε)
  | retired

inductive RemoteCandidateAdmissionError (ε : Type) where
  | inputLengthOverflow
  | provider (error : ε)
  | terminal (reason : RemoteCandidateTerminalReason ε)
  | validationRefused

inductive RemoteCandidateApplyError (ε : Type) where
  | staleAttempt
  | notRetained
  | provider (error : ε)

/-- `REMOTE_CANDIDATE_DIGEST_DOMAIN`. -/
def digestDomain : List UInt8 :=
  "myownmesh/remote-candidate/v1".toList.map fun c => UInt8.ofNat c.toNat

/-- A checked `u64` sum; without one the error is `InputLengthOverflow`. -/
def addBytes (a b : Nat) : Option Nat := if a + b < 2 ^ 64 then some (a + b) else none

/-- The length of an optional field on top of `bytes`. -/
def addField (bytes : Nat) : Option (List UInt8) → Option Nat
  | none => some bytes
  | some field => do addBytes bytes (← addBytes 0 field.length)

def addIf (bytes : Nat) (present : Bool) (more : Nat) : Option Nat :=
  if present then addBytes bytes more else some bytes

namespace RemoteCandidateInput

/-- The bytes of the content; none on overflow. -/
def contentBytes (input : RemoteCandidateInput) : Option Nat := do
  let bytes ← addBytes 0 input.candidate.length
  let bytes ← addField bytes input.sdpMid
  let bytes ← addIf bytes input.sdpMlineIndex.isSome 2
  addField bytes input.usernameFragment

/-- The bytes that the digest hashes; none on overflow. -/
def digestWorkBytes (input : RemoteCandidateInput) : Option Nat := do
  let bytes ← addBytes digestDomain.length 8
  let content ← input.contentBytes
  let bytes ← addBytes bytes content
  let bytes ← addBytes bytes 3
  let bytes ← addIf bytes input.sdpMid.isSome 8
  addIf bytes input.usernameFragment.isSome 8

end RemoteCandidateInput

/-- An optional value behind a byte that says whether it is there. -/
def optionally {α : Type} (encode : α → List UInt8) : Option α → List UInt8
  | none => [0]
  | some value => 1 :: encode value

def digestField (field : List UInt8) : List UInt8 := beBytes 8 field.length ++ field

/-- The bytes `digest_remote_candidate` feeds to the hash. -/
def hashedBytes (input : RemoteCandidateInput) : List UInt8 :=
  digestDomain ++ (digestField input.candidate ++ (optionally digestField input.sdpMid ++
    (optionally (fun index => beBytes 2 index.toNat) input.sdpMlineIndex ++
      optionally digestField input.usernameFragment)))

def digestRemoteCandidate (sha256 : List UInt8 → δ) (input : RemoteCandidateInput) : δ :=
  sha256 (hashedBytes input)

/-! ## The attempt -/

/-- Whether a candidate is new. -/
inductive RemoteCandidateDigestDecision where
  | retain
  | duplicate

inductive AttemptStatus (ε : Type) where
  | active
  | terminal (reason : RemoteCandidateTerminalReason ε)

/-- A candidate with its lease. Its identity is issued with the lease, so the lease's number
stands for both. -/
structure OwnedCandidate (δ : Type) where
  lease : Nat
  digest : δ

/-- The attempt, the handles and applications that came out of it, the leases the provider
has outstanding, and the candidates applied so far. -/
structure RemoteCandidateAttempt (ε δ : Type) where
  alive : Bool
  status : AttemptStatus ε
  retained : List (OwnedCandidate δ)
  handles : List Nat
  applying : List (OwnedCandidate δ)
  issued : Nat
  held : List Nat
  applied : List Nat

namespace RemoteCandidateAttempt

def new : RemoteCandidateAttempt ε δ := ⟨true, .active, [], [], [], 0, [], []⟩

/-- A granted `acquire`; its lease is number `issued`. -/
def acquire (s : RemoteCandidateAttempt ε δ) : RemoteCandidateAttempt ε δ :=
  { s with issued := s.issued + 1, held := s.issued :: s.held }

def release (leases : List Nat) (s : RemoteCandidateAttempt ε δ) : RemoteCandidateAttempt ε δ :=
  { s with held := s.held.filter (· ∉ leases) }

def terminalize (reason : RemoteCandidateTerminalReason ε) (s : RemoteCandidateAttempt ε δ) :
    RemoteCandidateAttempt ε δ :=
  { release (s.retained.map OwnedCandidate.lease) s with
    status := .terminal reason, retained := [] }

/-- `retained.remove`. -/
def removeRetained (id : Nat) (s : RemoteCandidateAttempt ε δ) : RemoteCandidateAttempt ε δ :=
  { release ((s.retained.filter (·.lease = id)).map OwnedCandidate.lease) s with
    retained := s.retained.filter (·.lease ≠ id) }

/-- `Drop for OwnedRemoteCandidate`; a handle cannot reach an attempt that is gone. -/
def dropHandle (id : Nat) (s : RemoteCandidateAttempt ε δ) : RemoteCandidateAttempt ε δ :=
  if s.alive then removeRetained id s else s

end RemoteCandidateAttempt

/-- The calls on an attempt, its handles and its applications, with the provider's answers:
a reason refuses. -/
inductive Call (ε δ : Type) where
  | admitWithDigestDecision (input : RemoteCandidateInput) (beforeDigest : Bool)
      (afterDigest : δ → RemoteCandidateDigestDecision) (work retention : Option ε)
  | beginApply (id : Nat) (answer : Option ε)
  | transitionAfterApplication (id : Nat) (answer : Option ε)
  | dropCandidate (id : Nat)
  | dropApplying (id : Nat)
  | retire
  | dropAttempt

/-- What a call returns; `absent` if there is nothing to call it on. -/
inductive Outcome (ε : Type) where
  | absent
  | retained (id : Nat)
  | duplicate
  | admissionRefused (error : RemoteCandidateAdmissionError ε)
  | applying (id : Nat)
  | applyRefused (error : RemoteCandidateApplyError ε)
  | transitioned
  | transitionRefused (error : ε)
  | done

/-- `transition_after_application`. -/
def transitionOutcome : Option ε → Outcome ε
  | some error => .transitionRefused error
  | none => .transitioned

namespace RemoteCandidateAttempt

section

variable (sha256 : List UInt8 → δ)

/-- Fund the digest work, ask both decisions and retain the candidate. -/
def admitWithDigestDecision (s : RemoteCandidateAttempt ε δ) (input : RemoteCandidateInput)
    (beforeDigest : Bool) (afterDigest : δ → RemoteCandidateDigestDecision)
    (work retention : Option ε) : Outcome ε × RemoteCandidateAttempt ε δ :=
  match input.digestWorkBytes with
  | none => (.admissionRefused .inputLengthOverflow, s)
  | some _ =>
    match s.status with
    | .terminal reason => (.admissionRefused (.terminal reason), s)
    | .active =>
      match work with
      | some error => (.admissionRefused (.provider error), s.terminalize (.provider error))
      | none =>
        let workLease := s.issued
        let s := s.acquire
        if !beforeDigest then
          (.admissionRefused .validationRefused, (s.release [workLease]).terminalize .retired)
        else
          let digest := digestRemoteCandidate sha256 input
          match afterDigest digest with
          | .duplicate => (.duplicate, s.release [workLease])
          | .retain =>
            match retention with
            | some error =>
              (.admissionRefused (.provider error),
                (s.terminalize (.provider error)).release [workLease])
            | none =>
              let id := s.issued
              let s := s.acquire
              let s := { s with
                retained := ⟨id, digest⟩ :: s.retained, handles := id :: s.handles }
              (.retained id, s.release [workLease])

/-- `begin_apply` consumes the handle; on an error the handle is dropped. -/
def beginApply (s : RemoteCandidateAttempt ε δ) (id : Nat) (answer : Option ε) :
    Outcome ε × RemoteCandidateAttempt ε δ :=
  let s := { s with handles := s.handles.filter (· ≠ id) }
  if !s.alive then (.applyRefused .staleAttempt, s.dropHandle id)
  else
    match s.status with
    | .terminal _ => (.applyRefused .staleAttempt, s.dropHandle id)
    | .active =>
      match s.retained.find? (·.lease = id) with
      | none => (.applyRefused .notRetained, s.dropHandle id)
      | some candidate =>
        match answer with
        | some error =>
          (.applyRefused (.provider error), (s.terminalize (.provider error)).dropHandle id)
        | none =>
          (.applying id, { s with
            retained := s.retained.filter (·.lease ≠ id)
            applying := candidate :: s.applying
            applied := id :: s.applied })

/-- One call; `absent` where its handle is gone. -/
def step (s : RemoteCandidateAttempt ε δ) : Call ε δ → Outcome ε × RemoteCandidateAttempt ε δ
  | .admitWithDigestDecision input beforeDigest afterDigest work retention =>
    if s.alive then s.admitWithDigestDecision sha256 input beforeDigest afterDigest work retention
    else (.absent, s)
  | .beginApply id answer => if id ∈ s.handles then s.beginApply id answer else (.absent, s)
  | .transitionAfterApplication id answer =>
    -- the lease stays with the application under either answer
    if id ∈ s.applying.map OwnedCandidate.lease then
      (transitionOutcome answer, s)
    else (.absent, s)
  | .dropCandidate id =>
    if id ∈ s.handles then
      (.done, { s with handles := s.handles.filter (· ≠ id) }.dropHandle id)
    else (.absent, s)
  | .dropApplying id =>
    (.done, { release ((s.applying.filter (·.lease = id)).map OwnedCandidate.lease) s with
      applying := s.applying.filter (·.lease ≠ id) })
  | .retire => if s.alive then (.done, s.terminalize .retired) else (.absent, s)
  | .dropAttempt =>
    if s.alive then (.done, { s.terminalize .retired with alive := false }) else (.absent, s)

def run (s : RemoteCandidateAttempt ε δ) (calls : List (Call ε δ)) : RemoteCandidateAttempt ε δ :=
  calls.foldl (fun s call => (s.step sha256 call).2) s

end

/-! ## Leases -/

def leases (s : RemoteCandidateAttempt ε δ) : List Nat :=
  (s.retained ++ s.applying).map OwnedCandidate.lease

/-- What holds inside of a call that holds the leases `pending` besides those of the
candidates. -/
structure Sound (pending : List Nat) (s : RemoteCandidateAttempt ε δ) : Prop where
  held : s.held.Perm (pending ++ s.leases)
  nodup : (pending ++ s.leases).Nodup
  fresh : ∀ id ∈ pending ++ s.leases ++ s.applied, id < s.issued
  applied : s.applied.Nodup
  unapplied : ∀ id ∈ pending ++ s.retained.map OwnedCandidate.lease, id ∉ s.applied
  terminal : s.status ≠ .active → s.retained = []
  dropped : s.alive = false → s.status ≠ .active

variable {pending : List Nat} {s : RemoteCandidateAttempt ε δ}

theorem new_sound : Sound [] (new : RemoteCandidateAttempt ε δ) :=
  ⟨List.Perm.refl _, List.nodup_nil, by simp [new, leases], List.nodup_nil, by simp [new],
    fun _ => rfl, by simp [new]⟩

theorem Sound.acquire (h : s.Sound pending) : s.acquire.Sound (s.issued :: pending) := by
  have hFresh : ∀ id ∈ pending ++ s.leases ++ s.applied, id ≠ s.issued := fun id hId =>
    (h.fresh id hId).ne
  refine ⟨h.held.cons _, List.nodup_cons.mpr ⟨fun hMem => ?_, h.nodup⟩, ?_, h.applied, ?_,
    h.terminal, h.dropped⟩
  · exact hFresh _ (List.mem_append_left _ hMem) rfl
  · intro id hId
    rcases List.mem_cons.mp hId with rfl | hId
    · exact Nat.lt_succ_self _
    · exact (h.fresh id hId).trans (Nat.lt_succ_self _)
  · intro id hId
    rcases List.mem_cons.mp hId with rfl | hId
    · exact fun hApplied => hFresh _ (List.mem_append_right _ hApplied) rfl
    · exact h.unapplied id hId

/-- A front of distinct numbers, filtered out. -/
theorem filter_front {front rest : List Nat} (h : (front ++ rest).Nodup) :
    (front ++ rest).filter (· ∉ front) = rest := by
  rw [List.filter_append, List.filter_eq_nil_iff.mpr (by simp), List.nil_append,
    List.filter_eq_self.mpr]
  intro id hId
  have := (List.nodup_append.mp h).2.2
  simpa using fun hFront => this id hFront id hId rfl

/-- Leases given back: what else is held stays. -/
theorem held_release {front rest : List Nat} (hHeld : s.held.Perm (front ++ rest))
    (hNodup : (front ++ rest).Nodup) : (s.release front).held.Perm rest := by
  have := hHeld.filter fun id => decide (id ∉ front)
  rwa [filter_front hNodup] at this

theorem Sound.release {lease : Nat} (h : s.Sound (lease :: pending)) :
    (s.release [lease]).Sound pending := by
  refine ⟨held_release h.held h.nodup, (List.nodup_cons.mp h.nodup).2, ?_, h.applied, ?_,
    h.terminal, h.dropped⟩
  · exact fun id hId => h.fresh id (List.mem_cons_of_mem _ hId)
  · exact fun id hId => h.unapplied id (List.mem_cons_of_mem _ hId)

/-- Candidates leave the attempt or the applications, and their leases with them. -/
theorem Sound.narrow (h : s.Sound pending) {gone kept : List (OwnedCandidate δ)}
    (hPerm : (s.retained ++ s.applying).Perm (gone ++ kept)) {t : RemoteCandidateAttempt ε δ}
    (hHeld : t.held = (s.release (gone.map OwnedCandidate.lease)).held)
    (hKept : (t.retained ++ t.applying).Perm kept) (hIssued : t.issued = s.issued)
    (hApplied : t.applied = s.applied) (hRetained : t.retained ⊆ s.retained)
    (hTerminal : t.status ≠ .active → t.retained = [])
    (hDropped : t.alive = false → t.status ≠ .active) : t.Sound pending := by
  have hLeases : (pending ++ s.leases).Perm
      (gone.map OwnedCandidate.lease ++ (pending ++ t.leases)) := by
    have hAll : s.leases.Perm (gone.map OwnedCandidate.lease ++ t.leases) := by
      have := (hPerm.trans (hKept.symm.append_left gone)).map OwnedCandidate.lease
      simpa only [leases, List.map_append, List.append_assoc] using this
    exact (hAll.append_left pending).trans (List.perm_append_comm_assoc _ _ _)
  have hNodup := hLeases.nodup_iff.mp h.nodup
  refine ⟨?_, (List.nodup_append.mp hNodup).2.1, fun id hId => ?_, hApplied ▸ h.applied,
    fun id hId => ?_, hTerminal, hDropped⟩
  · rw [hHeld]
    exact held_release (h.held.trans hLeases) hNodup
  · rw [hIssued]
    rw [hApplied] at hId
    refine h.fresh id ?_
    rcases List.mem_append.mp hId with hLease | hDone
    · exact List.mem_append_left _ (hLeases.mem_iff.mpr (List.mem_append_right _ hLease))
    · exact List.mem_append_right _ hDone
  · rw [hApplied]
    refine h.unapplied id ?_
    rcases List.mem_append.mp hId with hPending | hKeeps
    · exact List.mem_append_left _ hPending
    · exact List.mem_append_right _ (List.map_subset _ hRetained hKeeps)

theorem Sound.terminalize (h : s.Sound pending) (reason : RemoteCandidateTerminalReason ε) :
    (s.terminalize reason).Sound pending :=
  h.narrow (List.Perm.refl _) rfl (List.Perm.refl _) rfl rfl (List.nil_subset _)
    (fun _ => rfl) (fun _ => by simp [RemoteCandidateAttempt.terminalize])

/-- A list is its members with and without a lease. -/
theorem perm_split (candidates : List (OwnedCandidate δ)) (id : Nat) :
    candidates.Perm (candidates.filter (·.lease = id) ++ candidates.filter (·.lease ≠ id)) := by
  have := List.filter_append_perm (fun c : OwnedCandidate δ => decide (c.lease = id)) candidates
  simpa using this.symm

theorem Sound.removeRetained (h : s.Sound pending) (id : Nat) :
    (s.removeRetained id).Sound pending := by
  have hPerm : (s.retained ++ s.applying).Perm (s.retained.filter (·.lease = id) ++
      (s.retained.filter (·.lease ≠ id) ++ s.applying)) := by
    have := (perm_split s.retained id).append_right s.applying
    rwa [List.append_assoc] at this
  exact h.narrow hPerm rfl (List.Perm.refl _) rfl rfl List.filter_sublist.subset
    (fun hEnded => by simp [RemoteCandidateAttempt.removeRetained, h.terminal hEnded]) h.dropped

theorem Sound.dropHandle (h : s.Sound pending) (id : Nat) : (s.dropHandle id).Sound pending := by
  unfold RemoteCandidateAttempt.dropHandle
  split
  · exact h.removeRetained id
  · exact h

theorem Sound.handles (h : s.Sound pending) (handles : List Nat) :
    { s with handles }.Sound pending :=
  ⟨h.held, h.nodup, h.fresh, h.applied, h.unapplied, h.terminal, h.dropped⟩

/-- A lease the call holds becomes that of a retained candidate. -/
theorem Sound.retain {lease : Nat} (h : s.Sound (lease :: pending)) (digest : δ)
    (hActive : s.status = .active) :
    { s with retained := ⟨lease, digest⟩ :: s.retained }.Sound pending := by
  have hPerm : (lease :: pending ++ s.leases).Perm (pending ++ lease :: s.leases) :=
    List.perm_middle.symm
  refine ⟨h.held.trans hPerm, hPerm.nodup_iff.mp h.nodup, fun id hId => ?_, h.applied,
    fun id hId => ?_, fun hEnded => absurd hActive hEnded, h.dropped⟩
  · refine h.fresh id ?_
    rcases List.mem_append.mp hId with hLease | hDone
    · exact List.mem_append_left _ (hPerm.mem_iff.mpr hLease)
    · exact List.mem_append_right _ hDone
  · refine h.unapplied id ?_
    have hMiddle : (lease :: pending ++ s.retained.map OwnedCandidate.lease).Perm
        (pending ++ lease :: s.retained.map OwnedCandidate.lease) := List.perm_middle.symm
    exact hMiddle.mem_iff.mpr hId

theorem Sound.retained_nodup (h : s.Sound pending) :
    (s.retained.map OwnedCandidate.lease).Nodup := by
  have := (List.nodup_append.mp h.nodup).2.1
  rw [leases, List.map_append] at this
  exact (List.nodup_append.mp this).1

/-- A retained candidate becomes an application. -/
theorem Sound.apply {candidate : OwnedCandidate δ} {id : Nat} (h : s.Sound pending)
    (hActive : s.status = .active)
    (hFind : s.retained.find? (·.lease = id) = some candidate) :
    { s with retained := s.retained.filter (·.lease ≠ id),
             applying := candidate :: s.applying, applied := id :: s.applied }.Sound pending := by
  have hLease := key_of_find hFind
  have hPerm := perm_cons_of_find h.retained_nodup hFind
  have hMem : id ∈ s.retained.map OwnedCandidate.lease :=
    hLease ▸ List.mem_map_of_mem (List.mem_of_find?_eq_some hFind)
  have hLeases : (pending ++ s.leases).Perm (pending ++
      (s.retained.filter (·.lease ≠ id) ++ candidate :: s.applying).map OwnedCandidate.lease) := by
    refine List.Perm.append_left _ (List.Perm.map _ ?_)
    exact (hPerm.append_right _).trans List.perm_middle.symm
  have hRetained : ((s.retained.map OwnedCandidate.lease)).Perm
      (id :: (s.retained.filter (·.lease ≠ id)).map OwnedCandidate.lease) := by
    have := hPerm.map OwnedCandidate.lease
    rwa [List.map_cons, hLease] at this
  have hOnce : (pending ++ s.retained.map OwnedCandidate.lease).Nodup := by
    have := h.nodup
    rw [leases, List.map_append, ← List.append_assoc] at this
    exact (List.nodup_append.mp this).1
  refine ⟨h.held.trans hLeases, hLeases.nodup_iff.mp h.nodup, fun other hOther => ?_,
    List.nodup_cons.mpr ⟨h.unapplied id (List.mem_append_right _ hMem), h.applied⟩,
    fun other hOther hDone => ?_, fun hEnded => absurd hActive hEnded, h.dropped⟩
  · rcases List.mem_append.mp hOther with hLive | hDone
    · exact h.fresh other (List.mem_append_left _ (hLeases.mem_iff.mpr hLive))
    rcases List.mem_cons.mp hDone with rfl | hDone
    · refine h.fresh _ (List.mem_append_left _ (List.mem_append_right _ ?_))
      rw [leases, List.map_append]
      exact List.mem_append_left _ hMem
    · exact h.fresh other (List.mem_append_right _ hDone)
  · have hPermOnce := (hRetained.append_left pending).trans List.perm_middle
    rcases List.mem_cons.mp hDone with rfl | hDone
    · exact (List.nodup_cons.mp (hPermOnce.nodup_iff.mp hOnce)).1 hOther
    · exact h.unapplied other (hPermOnce.mem_iff.mpr (List.mem_cons_of_mem _ hOther)) hDone

/-! ## Steps and runs -/

section

variable (sha256 : List UInt8 → δ)

theorem admit_sound (h : s.Sound []) (input : RemoteCandidateInput) (beforeDigest : Bool)
    (afterDigest : δ → RemoteCandidateDigestDecision) (work retention : Option ε) :
    (s.admitWithDigestDecision sha256 input beforeDigest afterDigest work
      retention).2.Sound [] := by
  unfold admitWithDigestDecision
  split
  · exact h
  split
  · exact h
  · next hActive =>
    split
    · exact h.terminalize _
    dsimp only
    split
    · exact h.acquire.release.terminalize _
    split
    · exact h.acquire.release
    split
    · exact (h.acquire.terminalize _).release
    · exact ((h.acquire.acquire.retain _ hActive).handles _).release

theorem beginApply_sound (h : s.Sound []) (id : Nat) (answer : Option ε) :
    (s.beginApply id answer).2.Sound [] := by
  have hHandles := h.handles (s.handles.filter (· ≠ id))
  unfold beginApply
  dsimp only
  split
  · exact hHandles.dropHandle id
  split
  · exact hHandles.dropHandle id
  · next hActive =>
    split
    · exact hHandles.dropHandle id
    · next candidate hFind =>
      split
      · exact (hHandles.terminalize _).dropHandle id
      · exact hHandles.apply hActive hFind

/-- **Every call keeps the invariant.** -/
theorem step_sound (h : s.Sound []) (call : Call ε δ) : (s.step sha256 call).2.Sound [] := by
  cases call with
  | admitWithDigestDecision input beforeDigest afterDigest work retention =>
    rw [step]
    split
    · exact admit_sound sha256 h input beforeDigest afterDigest work retention
    · exact h
  | beginApply id answer =>
    rw [step]
    split
    · exact beginApply_sound h id answer
    · exact h
  | transitionAfterApplication id answer =>
    rw [step]
    split <;> exact h
  | dropCandidate id =>
    rw [step]
    split
    · exact (h.handles _).dropHandle id
    · exact h
  | dropApplying id =>
    have hPerm : (s.retained ++ s.applying).Perm (s.applying.filter (·.lease = id) ++
        (s.retained ++ s.applying.filter (·.lease ≠ id))) :=
      ((perm_split s.applying id).append_left _).trans (List.perm_append_comm_assoc _ _ _)
    exact h.narrow hPerm rfl (List.Perm.refl _) rfl rfl (List.Subset.refl _) h.terminal h.dropped
  | retire =>
    rw [step]
    split
    · exact h.terminalize _
    · exact h
  | dropAttempt =>
    rw [step]
    split
    · have := h.terminalize .retired
      exact ⟨this.held, this.nodup, this.fresh, this.applied, this.unapplied, this.terminal,
        fun _ => by simp [terminalize]⟩
    · exact h

theorem run_sound (calls : List (Call ε δ)) :
    ∀ s : RemoteCandidateAttempt ε δ, s.Sound [] → (s.run sha256 calls).Sound [] := by
  induction calls with
  | nil => exact fun _ h => h
  | cons call calls ih => exact fun s h => ih _ (step_sound sha256 h call)

/-- An application succeeds on a candidate that an active attempt retains. -/
theorem beginApply_applying {id other : Nat} {answer : Option ε}
    (hStep : (s.step sha256 (.beginApply id answer)).1 = .applying other) :
    other = id ∧ s.status = .active ∧ id ∈ s.retained.map OwnedCandidate.lease := by
  rw [step] at hStep
  split at hStep
  · unfold beginApply at hStep
    dsimp only at hStep
    split at hStep
    · simp at hStep
    split at hStep
    · simp at hStep
    · next hActive =>
      split at hStep
      · simp at hStep
      · next candidate hFind =>
        split at hStep
        · simp at hStep
        · obtain rfl := Outcome.applying.inj hStep
          exact ⟨rfl, hActive,
            key_of_find hFind ▸ List.mem_map_of_mem (List.mem_of_find?_eq_some hFind)⟩
  · simp at hStep

end

end RemoteCandidateAttempt

/-! ## The end of an attempt -/

def Outcome.Succeeds : Outcome ε → Prop
  | .retained _ | .duplicate | .applying _ => True
  | _ => False

/-- The provider refused what the call asked for. -/
def Outcome.ProviderRefused : Outcome ε → Prop
  | .admissionRefused (.provider _) | .applyRefused (.provider _) | .transitionRefused _ => True
  | _ => False

/-- The provider or the validation refused an admission or an application. -/
def Outcome.EndsAttempt : Outcome ε → Prop
  | .admissionRefused (.provider _) | .admissionRefused .validationRefused => True
  | .applyRefused (.provider _) => True
  | _ => False

namespace RemoteCandidateAttempt

section

variable (sha256 : List UInt8 → δ) {s : RemoteCandidateAttempt ε δ}

theorem dropHandle_status (id : Nat) : (s.dropHandle id).status = s.status := by
  unfold dropHandle
  split <;> rfl

/-- In an attempt that has ended nothing goes through, and it stays ended. -/
theorem step_ended (h : s.status ≠ .active) (call : Call ε δ) :
    (s.step sha256 call).2.status ≠ .active ∧ ¬ (s.step sha256 call).1.Succeeds := by
  cases call with
  | admitWithDigestDecision input beforeDigest afterDigest work retention =>
    rw [step]
    split
    · unfold admitWithDigestDecision
      split
      · exact ⟨h, id⟩
      split
      · exact ⟨h, id⟩
      · next hActive => exact absurd hActive h
    · exact ⟨h, id⟩
  | beginApply candidate answer =>
    rw [step]
    split
    · unfold beginApply
      dsimp only
      split
      · exact ⟨by rwa [dropHandle_status], id⟩
      split
      · exact ⟨by rwa [dropHandle_status], id⟩
      · next hActive => exact absurd hActive h
    · exact ⟨h, id⟩
  | transitionAfterApplication candidate answer =>
    rw [step]
    split
    · refine ⟨h, ?_⟩
      cases answer <;> exact id
    · exact ⟨h, id⟩
  | dropCandidate candidate =>
    rw [step]
    split
    · exact ⟨by rwa [dropHandle_status], id⟩
    · exact ⟨h, id⟩
  | dropApplying candidate => exact ⟨h, id⟩
  | retire =>
    rw [step]
    split
    · exact ⟨by simp [terminalize], id⟩
    · exact ⟨h, id⟩
  | dropAttempt =>
    rw [step]
    split
    · exact ⟨by simp [terminalize], id⟩
    · exact ⟨h, id⟩

theorem run_ended (calls : List (Call ε δ)) :
    ∀ s : RemoteCandidateAttempt ε δ, s.status ≠ .active →
      (s.run sha256 calls).status ≠ .active := by
  induction calls with
  | nil => exact fun _ h => h
  | cons call calls ih => exact fun s h => ih _ (step_ended sha256 h call).1

/-- A refused admission ends the attempt. -/
theorem admit_ends {input : RemoteCandidateInput} {beforeDigest : Bool}
    {afterDigest : δ → RemoteCandidateDigestDecision} {work retention : Option ε}
    (h : (s.admitWithDigestDecision sha256 input beforeDigest afterDigest work
      retention).1.EndsAttempt) :
    (s.admitWithDigestDecision sha256 input beforeDigest afterDigest work retention).2.status ≠
      .active := by
  unfold admitWithDigestDecision at h ⊢
  cases hWork : input.digestWorkBytes with
  | none => simp [hWork, Outcome.EndsAttempt] at h
  | some n =>
    cases hStatus : s.status with
    | terminal reason => simp [hWork, hStatus, Outcome.EndsAttempt] at h
    | active =>
      cases work with
      | some error => simp [terminalize]
      | none =>
        cases beforeDigest with
        | false => simp [terminalize]
        | true =>
          cases hDecision : afterDigest (digestRemoteCandidate sha256 input) with
          | duplicate => simp [hWork, hStatus, hDecision, Outcome.EndsAttempt] at h
          | retain =>
            cases retention with
            | some error => simp [hDecision, terminalize, release]
            | none => simp [hWork, hStatus, hDecision, Outcome.EndsAttempt] at h

/-- A refused application ends the attempt. -/
theorem beginApply_ends {id : Nat} {answer : Option ε}
    (h : (s.beginApply id answer).1.EndsAttempt) : (s.beginApply id answer).2.status ≠ .active := by
  unfold beginApply at h ⊢
  dsimp only at h ⊢
  cases hAlive : s.alive with
  | false => simp [hAlive, Outcome.EndsAttempt] at h
  | true =>
    cases hStatus : s.status with
    | terminal reason => simp [hAlive, hStatus, Outcome.EndsAttempt] at h
    | active =>
      cases hFind : s.retained.find? (·.lease = id) with
      | none => simp [hAlive, hStatus, hFind, Outcome.EndsAttempt] at h
      | some candidate =>
        cases answer with
        | some error => simp [dropHandle_status, terminalize]
        | none => simp [hAlive, hStatus, hFind, Outcome.EndsAttempt] at h

/-- A call that ends the attempt leaves it ended. -/
theorem step_ends (hSound : s.Sound []) (call : Call ε δ)
    (h : call = .retire ∨ call = .dropAttempt ∨ (s.step sha256 call).1.EndsAttempt) :
    (s.step sha256 call).2.status ≠ .active := by
  cases call with
  | admitWithDigestDecision input beforeDigest afterDigest work retention =>
    have hEnds := (h.resolve_left (by simp)).resolve_left (by simp)
    rw [step] at hEnds ⊢
    split
    · next hAlive =>
      rw [if_pos hAlive] at hEnds
      exact admit_ends sha256 hEnds
    · next hGone => exact hSound.dropped (by simpa using hGone)
  | beginApply candidate answer =>
    have hEnds := (h.resolve_left (by simp)).resolve_left (by simp)
    rw [step] at hEnds ⊢
    split
    · next hHandle =>
      rw [if_pos hHandle] at hEnds
      exact beginApply_ends hEnds
    · next hHandle =>
      rw [if_neg hHandle] at hEnds
      exact absurd hEnds id
  | transitionAfterApplication candidate answer =>
    have hEnds := (h.resolve_left (by simp)).resolve_left (by simp)
    rw [step] at hEnds
    split at hEnds
    · cases answer <;> exact absurd hEnds id
    · exact absurd hEnds id
  | dropCandidate candidate =>
    have hEnds := (h.resolve_left (by simp)).resolve_left (by simp)
    rw [step] at hEnds
    split at hEnds <;> exact absurd hEnds id
  | dropApplying candidate =>
    exact absurd ((h.resolve_left (by simp)).resolve_left (by simp)) id
  | retire =>
    rw [step]
    split
    · simp [terminalize]
    · next hGone => exact hSound.dropped (by simpa using hGone)
  | dropAttempt =>
    rw [step]
    split
    · simp [terminalize]
    · next hGone => exact hSound.dropped (by simpa using hGone)

end

end RemoteCandidateAttempt

/-! ## What is hashed -/

theorem addBytes_eq_some {a b n : Nat} : addBytes a b = some n ↔ n = a + b ∧ n < 2 ^ 64 := by
  unfold addBytes
  split
  · next hRange =>
    rw [Option.some.injEq]
    exact ⟨fun hEq => ⟨hEq.symm, hEq ▸ hRange⟩, fun hEq => hEq.1.symm⟩
  · next hRange =>
    exact ⟨fun hEq => by simp at hEq, fun hEq => absurd (hEq.1 ▸ hEq.2) hRange⟩

/-- An optional field counts its own bytes. -/
theorem addField_eq_some {bytes n : Nat} {field : Option (List UInt8)}
    (h : addField bytes field = some n) :
    n = bytes + (field.elim 0 List.length) ∧ ∀ value ∈ field, value.length < 2 ^ 64 := by
  cases field with
  | none => exact ⟨(Option.some.inj h).symm, by simp⟩
  | some value =>
    obtain ⟨m, hLength, hSum⟩ := Option.bind_eq_some_iff.mp h
    rw [addBytes_eq_some, Nat.zero_add] at hLength
    rw [addBytes_eq_some] at hSum
    exact ⟨by simp [hSum.1, hLength.1], by simpa [← hLength.1] using hLength.2⟩

theorem addIf_eq_some {bytes more n : Nat} {present : Bool}
    (h : addIf bytes present more = some n) : n = bytes + (if present then more else 0) := by
  cases present with
  | true => exact (addBytes_eq_some.mp h).1
  | false => exact (Option.some.inj h).symm

theorem optionally_length {α : Type} (encode : α → List UInt8) (value : Option α) :
    (optionally encode value).length = 1 + value.elim 0 fun a => (encode a).length := by
  cases value <;> simp [optionally, Nat.add_comm]

/-- An input that passes the length check. -/
structure Measured (input : RemoteCandidateInput) : Prop where
  candidate : input.candidate.length < 2 ^ 64
  sdpMid : ∀ value ∈ input.sdpMid, value.length < 2 ^ 64
  usernameFragment : ∀ value ∈ input.usernameFragment, value.length < 2 ^ 64

/-- **The work claimed is the number of bytes hashed.** -/
theorem digestWorkBytes_eq {input : RemoteCandidateInput} {n : Nat}
    (h : input.digestWorkBytes = some n) : n = (hashedBytes input).length ∧ Measured input := by
  simp only [RemoteCandidateInput.digestWorkBytes, RemoteCandidateInput.contentBytes,
    Option.bind_eq_bind, Option.bind_eq_some_iff] at h
  obtain ⟨domain, hDomain, content, ⟨candidate, hCandidate, mid, hMid, index, hIndex, hFragment⟩,
    withContent, hWithContent, withTags, hWithTags, withMid, hWithMid, hLast⟩ := h
  rw [addBytes_eq_some] at hDomain hWithContent hWithTags hCandidate
  obtain ⟨hMid, hMidLength⟩ := addField_eq_some hMid
  obtain ⟨hFragment, hFragmentLength⟩ := addField_eq_some hFragment
  have hIndex := addIf_eq_some hIndex
  have hWithMid := addIf_eq_some hWithMid
  have hLast := addIf_eq_some hLast
  refine ⟨?_, by omega, hMidLength, hFragmentLength⟩
  obtain ⟨bytes, sdpMid, sdpMlineIndex, usernameFragment⟩ := input
  cases sdpMid <;> cases sdpMlineIndex <;> cases usernameFragment <;>
    simp [hashedBytes, digestField, optionally_length, beBytes_length] at * <;> omega

theorem digestField_delimited :
    Delimited (fun field : List UInt8 => field.length < 2 ^ 64) digestField := by
  intro a b r s ha hb hEq
  rw [digestField, digestField, List.append_assoc, List.append_assoc] at hEq
  obtain ⟨hLength, hRest⟩ := beBytes_delimited 8 (by simpa using ha) (by simpa using hb) hEq
  exact List.append_inj hRest hLength

theorem index_delimited :
    Delimited (fun _ => True) fun index : UInt16 => beBytes 2 index.toNat := by
  intro a b r s _ _ hEq
  obtain ⟨hIndex, hRest⟩ := beBytes_delimited 2 a.toNat_lt b.toNat_lt hEq
  exact ⟨UInt16.toNat_inj.mp hIndex, hRest⟩

theorem optionally_delimited {α : Type} {valid : α → Prop} {encode : α → List UInt8}
    (h : Delimited valid encode) :
    Delimited (fun value : Option α => ∀ a ∈ value, valid a) (optionally encode) := by
  intro a b r s ha hb hEq
  cases a with
  | none =>
    cases b with
    | none => exact ⟨rfl, (List.cons.inj hEq).2⟩
    | some b => exact absurd (List.cons.inj hEq).1 (by decide)
  | some a =>
    cases b with
    | none => exact absurd (List.cons.inj hEq).1 (by decide)
    | some b =>
      obtain ⟨hValue, hRest⟩ := h (ha a rfl) (hb b rfl) (List.cons.inj hEq).2
      exact ⟨congrArg some hValue, hRest⟩

/-- **Different inputs are hashed from different bytes.** -/
theorem hashedBytes_injective {a b : RemoteCandidateInput} (ha : Measured a) (hb : Measured b)
    (h : hashedBytes a = hashedBytes b) : a = b := by
  obtain ⟨hCandidate, hRest⟩ :=
    digestField_delimited ha.candidate hb.candidate (List.append_cancel_left h)
  obtain ⟨hMid, hRest⟩ := optionally_delimited digestField_delimited ha.sdpMid hb.sdpMid hRest
  obtain ⟨hIndex, hRest⟩ :=
    optionally_delimited index_delimited (fun _ _ => trivial) (fun _ _ => trivial) hRest
  have hFragment := (optionally_delimited digestField_delimited).injective ha.usernameFragment
    hb.usernameFragment hRest
  obtain ⟨bytes, sdpMid, sdpMlineIndex, usernameFragment⟩ := a
  obtain ⟨bytes', sdpMid', sdpMlineIndex', usernameFragment'⟩ := b
  obtain rfl : bytes = bytes' := hCandidate
  obtain rfl : sdpMid = sdpMid' := hMid
  obtain rfl : sdpMlineIndex = sdpMlineIndex' := hIndex
  obtain rfl : usernameFragment = usernameFragment' := hFragment
  rfl

/-! ## The attempt as a whole -/

open RemoteCandidateAttempt

/-- **Every sequence of calls.** The leases held are one for each retained or applying
candidate; an application succeeds on a candidate that an active attempt retains, and once;
after the attempt is retired or dropped, or after a refusal by the provider or the
validation of an admission or an application, nothing is retained, admitted or applied. The
work claimed for an input is the number of bytes hashed, and inputs whose hashed bytes do
not collide have different digests. -/
theorem remote_candidate_attempt_sound (sha256 : List UInt8 → δ) (calls : List (Call ε δ))
    (s : RemoteCandidateAttempt ε δ) (hRun : s = new.run sha256 calls) :
    (s.held.Perm s.leases ∧ s.leases.Nodup) ∧
    (s.applied.Nodup ∧ ∀ id answer other,
      (s.step sha256 (.beginApply id answer)).1 = .applying other →
        s.status = .active ∧ id ∈ s.retained.map OwnedCandidate.lease ∧ id ∉ s.applied) ∧
    (∀ call later, call = .retire ∨ call = .dropAttempt ∨ (s.step sha256 call).1.EndsAttempt →
      ((s.step sha256 call).2.run sha256 later).retained = [] ∧
      ∀ next, ¬ (((s.step sha256 call).2.run sha256 later).step sha256 next).1.Succeeds) ∧
    (∀ input n, RemoteCandidateInput.digestWorkBytes input = some n →
      n = (hashedBytes input).length) ∧
    ∀ a b : RemoteCandidateInput, a ≠ b → a.digestWorkBytes.isSome = true →
      b.digestWorkBytes.isSome = true →
      (sha256 (hashedBytes a) = sha256 (hashedBytes b) → hashedBytes a = hashedBytes b) →
      digestRemoteCandidate sha256 a ≠ digestRemoteCandidate sha256 b := by
  have hSound : s.Sound [] := hRun ▸ run_sound sha256 calls _ new_sound
  refine ⟨⟨hSound.held, hSound.nodup⟩, ⟨hSound.applied, ?_⟩, ?_, ?_, ?_⟩
  · intro id answer other hStep
    obtain ⟨-, hActive, hRetained⟩ := beginApply_applying sha256 hStep
    exact ⟨hActive, hRetained, hSound.unapplied id hRetained⟩
  · intro call later hEnds
    have hEnded := run_ended sha256 later _ (step_ends sha256 hSound call hEnds)
    exact ⟨(run_sound sha256 later _ (step_sound sha256 hSound call)).terminal hEnded,
      fun next => (step_ended sha256 hEnded next).2⟩
  · exact fun input n hWork => (digestWorkBytes_eq hWork).1
  · intro a b hNe ha hb hFree hDigest
    obtain ⟨n, ha⟩ := Option.isSome_iff_exists.mp ha
    obtain ⟨m, hb⟩ := Option.isSome_iff_exists.mp hb
    exact hNe (hashedBytes_injective (digestWorkBytes_eq ha).2 (digestWorkBytes_eq hb).2
      (hFree hDigest))

def sampleInput : RemoteCandidateInput := ⟨[1, 2], none, none, none⟩

def sampleAdmission : Call Unit Unit :=
  .admitWithDigestDecision sampleInput true (fun _ => .retain) none none

/-- Two candidates are retained, and the first one is applied. -/
def sampleCalls : List (Call Unit (List UInt8)) :=
  [.admitWithDigestDecision sampleInput true (fun _ => .retain) none none,
    .admitWithDigestDecision ⟨[3], none, none, none⟩ true (fun _ => .retain) none none,
    .beginApply 1 none, .transitionAfterApplication 1 none]

theorem remote_candidate_attempt_sound_applied :
    (new.run id sampleCalls).applied = [1] ∧
      ((new.run id sampleCalls).held.Perm (new.run id sampleCalls).leases ∧
        (new.run id sampleCalls).leases.Nodup) ∧
      (((new.run id sampleCalls).step id .retire).2.run id sampleCalls).retained = [] ∧
      digestRemoteCandidate id sampleInput ≠
        digestRemoteCandidate id ⟨[3], none, none, none⟩ := by
  obtain ⟨hLeases, -, hEnds, -, hDigest⟩ :=
    remote_candidate_attempt_sound id sampleCalls _ rfl
  exact ⟨rfl, hLeases, (hEnds .retire sampleCalls (.inl rfl)).1,
    hDigest _ _ (by decide) rfl rfl fun h => h⟩

/-- The provider refuses to narrow the lease of an application, and the attempt goes on:
the next admission succeeds. -/
theorem transition_refusal_keeps_attempt :
    ∃ calls : List (Call Unit Unit), ∃ refused next : Call Unit Unit,
      ((new.run (fun _ => ()) calls).step (fun _ => ()) refused).1.ProviderRefused ∧
      (((new.run (fun _ => ()) calls).step (fun _ => ()) refused).2.step (fun _ => ())
        next).1.Succeeds :=
  ⟨[sampleAdmission, .beginApply 1 none], .transitionAfterApplication 1 (some ()),
    sampleAdmission, trivial, trivial⟩

end MyOwnMesh.Attempt
