import MyOwnMesh.EndpointAuth.Lifecycle
import MyOwnMesh.Foundation.Transition

/-!
# Mutual agreement of endpoint authentication

Any number of tasks of honest devices at once, called with contributions and
proofs of an adversary's choice. The adversary may relay and withhold but not
forge: a signature that verifies under an honest device is over bytes a task of
that device has signed. When a task promotes, a task of the expected remote has
signed for exactly this attempt: same mesh, mirrored binding, exchanged
contributions.
-/

namespace MyOwnMesh.EndpointAuth

open Foundation

/-! ## The system -/

/-- A signature a task has made, with the contribution it bound. -/
structure Signing where
  task : Nat
  bound : String
  device : String
  message : List UInt8
deriving DecidableEq

/-- The tasks of all honest devices and what they have signed. -/
structure World where
  tasks : List EndpointAuthTask
  signed : List Signing

def signingsOf (index : Nat) (entry : Entry) : List Signing :=
  match entry.call with
  | .hello bound => entry.signings.map fun signing => ⟨index, bound, signing.1, signing.2⟩
  | _ => []

section System

variable [EndpointCrypto]

namespace World

def empty : World := ⟨[], []⟩

def begin (world : World) (context : EndpointAuthContext) (handoff : ConnectedChannelHandoff)
    (contribution : String) : World :=
  { world with
    tasks := world.tasks ++ [.begin context handoff context.localDeviceId contribution] }

def call (world : World) (index : Nat) (task : EndpointAuthTask) (call : Call) : World :=
  let result := task.perform call
  { tasks := world.tasks.set index result.2
    signed := world.signed ++ signingsOf index result.1 }

/-- A proof is no forgery: whatever it verifies for an honest device was signed. -/
def Unforged (honest : String → Prop) (world : World) (call : Call) : Prop :=
  ∀ signature, call = .proof signature → ∀ device message, honest device →
    EndpointCrypto.verify device message signature = true →
    ∃ signing ∈ world.signed, signing.device = device ∧ signing.message = message

/-- One step: an honest device begins an attempt with a fresh contribution, or the
adversary calls a task. -/
inductive Step (honest : String → Prop) : World → World → Prop
  | begin (world : World) (context : EndpointAuthContext) (handoff : ConnectedChannelHandoff)
      (contribution : String) : honest context.localDeviceId →
      (∀ task ∈ world.tasks, task.localContribution ≠ contribution) →
      Step honest world (world.begin context handoff contribution)
  | call (world : World) (index : Nat) (task : EndpointAuthTask) (call : Call) :
      world.tasks[index]? = some task → Unforged honest world call →
      Step honest world (world.call index task call)

def Reachable (honest : String → Prop) (world : World) : Prop :=
  Relation.ReflTransGen (Step honest) empty world

end World

/-! ## What was signed -/

variable {task : EndpointAuthTask} {signing : Signing}

/-- A call signs only the task's own transcript for the contribution it binds. -/
theorem signingsOf_perform {index : Nat} {call : Call}
    (h : signing ∈ signingsOf index (task.perform call).1) :
    signing.task = index ∧ signing.device = task.signer ∧
      signing.message = task.localTranscript signing.bound := by
  unfold signingsOf at h
  cases hCall : (task.perform call).1.call with
  | hello bound =>
    rw [hCall] at h
    obtain ⟨made, hMade, rfl⟩ := List.mem_map.mp h
    obtain ⟨contribution, hHello, rfl⟩ := (perform_outcome task call).of_signed hMade
    rw [hCall] at hHello
    obtain rfl := Call.hello.inj hHello
    exact ⟨rfl, rfl, rfl⟩
  | proof signature =>
    rw [hCall] at h
    cases h
  | retire =>
    rw [hCall] at h
    cases h

/-- The log and the tasks agree. -/
structure World.Sound (world : World) : Prop where
  signer : ∀ (i : Nat) (task : EndpointAuthTask), world.tasks[i]? = some task →
    task.signer = task.context.localDeviceId
  fresh : ∀ (i j : Nat) (a b : EndpointAuthTask), world.tasks[i]? = some a →
    world.tasks[j]? = some b → a.localContribution = b.localContribution → i = j
  signed : ∀ signing ∈ world.signed, ∃ task : EndpointAuthTask,
    world.tasks[signing.task]? = some task ∧ signing.device = task.context.localDeviceId ∧
    signing.message = task.localTranscript signing.bound

namespace World.Sound

variable {honest : String → Prop} {world : World}
variable {task : EndpointAuthTask}

variable {i index : Nat}

omit [EndpointCrypto] in
theorem getElem?_begin {context : EndpointAuthContext} {handoff : ConnectedChannelHandoff}
    {contribution : String} (h : (world.begin context handoff contribution).tasks[i]? = some task) :
    world.tasks[i]? = some task ∨ (i = world.tasks.length ∧
      task = .begin context handoff context.localDeviceId contribution) := by
  change (world.tasks ++ _)[i]? = some task at h
  rw [List.getElem?_append] at h
  split at h
  · exact .inl h
  · next hLast =>
      obtain ⟨hIndex, hTask⟩ := List.getElem?_eq_some_iff.mp h
      simp only [List.length_singleton] at hIndex
      refine .inr ⟨by omega, ?_⟩
      simpa using hTask.symm

omit [EndpointCrypto] in
theorem begin (h : world.Sound) (context : EndpointAuthContext)
    (handoff : ConnectedChannelHandoff) (contribution : String)
    (hFresh : ∀ task ∈ world.tasks, task.localContribution ≠ contribution) :
    (world.begin context handoff contribution).Sound := by
  refine ⟨fun i task hTask => ?_, fun i j a b ha hb hSame => ?_, fun signing hSigning => ?_⟩
  · rcases getElem?_begin hTask with hOld | ⟨-, rfl⟩
    · exact h.signer i task hOld
    · rfl
  · rcases getElem?_begin ha with hOldA | ⟨hi, rfl⟩
    · rcases getElem?_begin hb with hOldB | ⟨hj, rfl⟩
      · exact h.fresh i j a b hOldA hOldB hSame
      · exact absurd hSame (hFresh a (List.mem_of_getElem? hOldA))
    · rcases getElem?_begin hb with hOldB | ⟨hj, rfl⟩
      · exact absurd hSame.symm (hFresh b (List.mem_of_getElem? hOldB))
      · rw [hi, hj]
  · obtain ⟨task, hTask, hDevice⟩ := h.signed signing hSigning
    refine ⟨task, ?_, hDevice⟩
    obtain ⟨hIndex, -⟩ := List.getElem?_eq_some_iff.mp hTask
    change (world.tasks ++ _)[signing.task]? = some task
    rw [List.getElem?_append_left hIndex]
    exact hTask

/-- A called task keeps what it is fixed to; the others stay. -/
theorem getElem?_call {call : Call} (hTask : world.tasks[index]? = some task)
    {next : EndpointAuthTask} (h : (world.call index task call).tasks[i]? = some next) :
    ∃ prior, world.tasks[i]? = some prior ∧ next.context = prior.context ∧
      next.signer = prior.signer ∧ next.localContribution = prior.localContribution := by
  change (world.tasks.set index _)[i]? = some next at h
  by_cases hIndex : index = i
  · subst hIndex
    rw [List.getElem?_set_self (List.getElem?_eq_some_iff.mp hTask).1] at h
    obtain rfl := Option.some.inj h
    exact ⟨task, hTask, (perform_outcome task call).fixed⟩
  · rw [List.getElem?_set_ne hIndex] at h
    exact ⟨next, h, rfl, rfl, rfl⟩

theorem call (h : world.Sound) {call : Call} (hTask : world.tasks[index]? = some task) :
    (world.call index task call).Sound := by
  refine ⟨fun i next hNext => ?_, fun i j a b ha hb hSame => ?_, fun signing hSigning => ?_⟩
  · obtain ⟨prior, hPrior, hContext, hSigner, -⟩ := getElem?_call hTask hNext
    rw [hSigner, hContext]
    exact h.signer i prior hPrior
  · obtain ⟨priorA, hPriorA, -, -, hA⟩ := getElem?_call hTask ha
    obtain ⟨priorB, hPriorB, -, -, hB⟩ := getElem?_call hTask hb
    exact h.fresh i j priorA priorB hPriorA hPriorB (by rw [← hA, ← hB, hSame])
  · have hKept : ∃ prior, world.tasks[signing.task]? = some prior ∧
        signing.device = prior.context.localDeviceId ∧
        signing.message = prior.localTranscript signing.bound := by
      rcases List.mem_append.mp hSigning with hOld | hNew
      · exact h.signed signing hOld
      · obtain ⟨rfl, hDevice, hMessage⟩ := signingsOf_perform hNew
        refine ⟨task, hTask, ?_, hMessage⟩
        rw [hDevice]
        exact h.signer _ task hTask
    obtain ⟨prior, hPrior, hDevice, hMessage⟩ := hKept
    have hLength : signing.task < (world.call index task call).tasks.length := by
      change signing.task < (world.tasks.set index _).length
      rw [List.length_set]
      exact (List.getElem?_eq_some_iff.mp hPrior).1
    obtain ⟨next, hNext⟩ : ∃ next, (world.call index task call).tasks[signing.task]? = some next :=
      ⟨_, List.getElem?_eq_getElem hLength⟩
    obtain ⟨same, hSame, hContext, -, hContribution⟩ := getElem?_call hTask hNext
    rw [hPrior] at hSame
    obtain rfl := Option.some.inj hSame
    refine ⟨next, hNext, ?_, ?_⟩
    · rw [hContext]
      exact hDevice
    · unfold EndpointAuthTask.localTranscript at hMessage ⊢
      rw [hContext, hContribution]
      exact hMessage

theorem step (a b : World) (h : a.Sound) (hStep : World.Step honest a b) : b.Sound := by
  cases hStep with
  | begin context handoff contribution _ hFresh => exact h.begin context handoff contribution hFresh
  | call index task call hTask _ => exact h.call hTask

end World.Sound

/-- Every run keeps the log and the tasks in agreement. -/
theorem World.Reachable.sound {honest : String → Prop} {world : World}
    (h : world.Reachable honest) : world.Sound :=
  invariant_of_run World.Sound.step
    ⟨by simp [World.empty], by simp [World.empty], by simp [World.empty]⟩ h

/-- The signing a task of the other endpoint must have made. -/
structure Answers (world : World) (task : EndpointAuthTask) (bound : String) (signing : Signing)
    (peer : EndpointAuthTask) : Prop where
  owner : world.tasks[signing.task]? = some peer
  mirrors : Mirrors task.context peer.context
  drawn : peer.localContribution = bound
  bound : signing.bound = task.localContribution

omit [EndpointCrypto] in
/-- A logged signature over the bytes a task verifies was made to answer it. -/
theorem World.Sound.answers {world : World} (h : world.Sound) {bound : String}
    (hSigning : signing ∈ world.signed) (hMessage : signing.message = task.peerTranscript bound) :
    ∃ peer, Answers world task bound signing peer := by
  obtain ⟨peer, hPeer, -, hSigned⟩ := h.signed signing hSigning
  rw [hMessage] at hSigned
  obtain ⟨hMirrors, hDrawn, hBound⟩ := mirrors_of_transcript_eq hSigned
  exact ⟨peer, hPeer, hMirrors, hDrawn, hBound⟩

/-- Mutual agreement: when a task of `A` that expects an honest `B` promotes, exactly
one task has the contribution it bound, that task is `B`'s for `A` in the same mesh and
over the mirrored binding, and it has signed with `A`'s contribution bound. A signature
made for anything else, by `A` itself among others, is over other bytes. -/
theorem mutual_agreement {honest : String → Prop} {world : World}
    (hRun : world.Reachable honest) {index : Nat} {task : EndpointAuthTask} {signature : String}
    {capability : AuthenticatedChannelCapability} (hTask : world.tasks[index]? = some task)
    (hUnforged : world.Unforged honest (.proof signature))
    (hHonest : honest task.context.expectedRemoteDeviceId)
    (hPromoted : (task.acceptPeerProof signature).1 = .ok (.promoted capability)) :
    ∃ bound proof, task.state = .bound bound proof ∧
      (∃ signing ∈ world.signed, ∃ peer, Answers world task bound signing peer ∧
        signing.device = task.context.expectedRemoteDeviceId ∧ signing.task ≠ index ∧
        ∀ (j : Nat) (other : EndpointAuthTask), world.tasks[j]? = some other →
          other.localContribution = bound → j = signing.task) ∧
      ∀ signing ∈ world.signed,
        (∀ peer, ¬Answers world task bound signing peer) ∨
            signing.device = task.context.localDeviceId →
        signing.message ≠ task.peerTranscript bound := by
  have hSound := hRun.sound
  have hReply : (task.perform (.proof signature)).1.reply = .proof (.ok (.promoted capability)) :=
    congrArg Reply.proof hPromoted
  obtain ⟨bound, proof, verified, hState, hCall, hVerify⟩ :=
    (perform_outcome task (.proof signature)).of_promoted hReply
  obtain rfl : signature = verified := Call.proof.inj hCall
  obtain ⟨signing, hSigning, hDevice, hMessage⟩ :=
    hUnforged signature rfl _ _ hHonest hVerify
  obtain ⟨peer, hAnswers⟩ := hSound.answers hSigning hMessage
  refine ⟨bound, proof, hState, ⟨signing, hSigning, peer, hAnswers, hDevice, ?_, ?_⟩, ?_⟩
  · rintro rfl
    have hOwner := hAnswers.owner
    rw [hTask] at hOwner
    obtain rfl := Option.some.inj hOwner
    exact hAnswers.mirrors.distinct rfl
  · intro j other hOther hSame
    exact hSound.fresh j signing.task other peer hOther hAnswers.owner
      (hSame.trans hAnswers.drawn.symm)
  · intro made hMade hWrong hBytes
    obtain ⟨owner, hOwner⟩ := hSound.answers hMade hBytes
    rcases hWrong with hNone | hOwn
    · exact hNone owner hOwner
    · obtain ⟨signer, hSigner, hMadeDevice, -⟩ := hSound.signed made hMade
      rw [hOwner.owner] at hSigner
      obtain rfl := Option.some.inj hSigner
      exact hOwner.mirrors.distinct (hMadeDevice.symm.trans hOwn)

end System

/-! Two devices that authenticate each other. -/

/-- The context of a device, with fingerprints named by the devices. -/
def sampleContext (device remote : String) (hDevice : device ≠ "") (hRemote : remote ≠ "") :
    EndpointAuthContext where
  meshContext := "mesh"
  localDeviceId := device
  expectedRemoteDeviceId := remote
  profile := .v1Ed25519Dtls
  binding := ⟨device, remote, hDevice, hRemote⟩
  localRole := roleOf device remote
  mesh_present := by decide
  local_present := hDevice
  remote_present := hRemote
  role_eq := rfl

def contextA : EndpointAuthContext := sampleContext "a" "b" (by decide) (by decide)

def contextB : EndpointAuthContext := sampleContext "b" "a" (by decide) (by decide)

/-- A signature that spells out its signer and the signed bytes. -/
def sampleSign (device : String) (message : List UInt8) : String :=
  String.ofList ((netstring device ++ message).map fun byte => Char.ofNat byte.toNat)

theorem sampleSign_injective {device other : String} {message bytes : List UInt8}
    (h : sampleSign device message = sampleSign other bytes) : device = other ∧ message = bytes := by
  have hChar : Function.Injective fun byte : UInt8 => Char.ofNat byte.toNat := by
    intro a b hEq
    have hNat (c : UInt8) : (Char.ofNat c.toNat).toNat = c.toNat := by
      rw [Char.ofNat, dif_pos (.inl (c.toNat_lt.trans (by decide)))]
      rfl
    exact UInt8.toNat_inj.mp (by rw [← hNat a, ← hNat b]; exact congrArg Char.toNat hEq)
  have hBytes := List.map_injective_iff.mpr hChar (String.ofList_injective h)
  exact netstring_delimited trivial trivial hBytes

@[reducible] def sampleCrypto : EndpointCrypto where
  sign := sampleSign
  verify device message signature := signature == sampleSign device message
  digestOf _ := "digest"

/-- Both begin and receive the other's contribution. -/
def sampleWorld : World :=
  let _ : EndpointCrypto := sampleCrypto
  let taskA := EndpointAuthTask.begin contextA ⟨0, some 0⟩ "a" "draw-a"
  let taskB := EndpointAuthTask.begin contextB ⟨1, some 1⟩ "b" "draw-b"
  (((World.empty.begin contextA ⟨0, some 0⟩ "draw-a").begin contextB ⟨1, some 1⟩ "draw-b").call 0
    taskA (.hello "draw-b")).call 1 taskB (.hello "draw-a")

theorem sampleWorld_reachable :
    let _ : EndpointCrypto := sampleCrypto
    sampleWorld.Reachable fun _ => True := by
  let _ : EndpointCrypto := sampleCrypto
  have hA : World.Step (fun _ => True) World.empty _ :=
    .begin _ contextA ⟨0, some 0⟩ "draw-a" trivial (by simp [World.empty])
  have hB := Relation.ReflTransGen.single hA |>.tail
    (.begin _ contextB ⟨1, some 1⟩ "draw-b" trivial (by decide +kernel))
  have hHelloA := hB.tail (.call _ 0 _ (.hello "draw-b") rfl (by intro _ h; cases h))
  exact hHelloA.tail (.call _ 1 _ (.hello "draw-a") rfl (by intro _ h; cases h))

/-- A's task after B's contribution. -/
def sampleTask : EndpointAuthTask :=
  let _ : EndpointCrypto := sampleCrypto
  ((EndpointAuthTask.begin contextA ⟨0, some 0⟩ "a" "draw-a").perform (.hello "draw-b")).2

/-- B's signature over its transcript of this attempt. -/
def proofB : String :=
  sampleSign "b" (transcriptForContext contextB contextB.localRole "draw-b" "draw-a")

theorem mutual_agreement_two_devices :
    let _ : EndpointCrypto := sampleCrypto
    sampleWorld.tasks[0]? = some sampleTask ∧
      ∃ capability, (sampleTask.acceptPeerProof proofB).1 = .ok (.promoted capability) ∧
        ∃ bound, ∃ signing ∈ sampleWorld.signed, ∃ peer,
          Answers sampleWorld sampleTask bound signing peer := by
  let _ : EndpointCrypto := sampleCrypto
  have hTask : sampleWorld.tasks[0]? = some sampleTask := rfl
  have hPromoted : (sampleTask.acceptPeerProof proofB).1 = .ok (.promoted
      ⟨⟨"mesh", "a", "b", .initiator, "digest", 0, 0⟩, ⟨0, some 0⟩⟩) := by decide +kernel
  have hSigned : (⟨1, "draw-a", "b", transcriptForContext contextB contextB.localRole "draw-b"
      "draw-a"⟩ : Signing) ∈ sampleWorld.signed := List.mem_append_right _ List.mem_cons_self
  have hUnforged : sampleWorld.Unforged (fun _ => True) (.proof proofB) := by
    intro signature hCall device message _ hVerify
    obtain rfl : proofB = signature := Call.proof.inj hCall
    have hSign : proofB = sampleSign device message := beq_iff_eq.mp hVerify
    obtain ⟨rfl, rfl⟩ := sampleSign_injective hSign
    exact ⟨_, hSigned, rfl, rfl⟩
  obtain ⟨bound, -, -, ⟨signing, hSigning, peer, hAnswers, -⟩, -⟩ :=
    mutual_agreement sampleWorld_reachable hTask hUnforged trivial hPromoted
  exact ⟨hTask, _, hPromoted, bound, signing, hSigning, peer, hAnswers⟩

end MyOwnMesh.EndpointAuth
