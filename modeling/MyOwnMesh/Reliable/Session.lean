import MyOwnMesh.Reliable.Sender

/-!
# Acknowledged delivery between two sessions

The sender of `Reliable.Sender` with the receiver of its peer. Any frame ever
handed to a write may arrive, at any time and any number of times, and any mark
the receiver has reported may come back; so loss, delay, duplication, reordering
and a failed write whose bytes arrived are all among the runs.

A caller that is told of success knows that its own frame was delivered, once: a
settled frame was handed out, its number has one value of its bytes, and the
receiver delivers each number once.
-/

namespace MyOwnMesh.Reliable

open Foundation
open scoped List

variable {P : Type}

/-! ## Who waits -/

/-- The callers whose wait the retained frames still hold. -/
def waiting (pending : List PendingFrame) : List CallerId :=
  pending.filterMap PendingFrame.reply

def answered (outcomes : List Resolution) : List CallerId := outcomes.map Prod.fst

section Waits

@[simp] theorem waiting_append (l r : List PendingFrame) :
    waiting (l ++ r) = waiting l ++ waiting r := List.filterMap_append

@[simp] theorem answered_append (l r : List Resolution) :
    answered (l ++ r) = answered l ++ answered r := List.map_append

theorem answered_resolve (f : PendingFrame) (outcome : Outcome) :
    answered (f.resolve outcome).2 = f.reply.toList := by
  unfold PendingFrame.resolve
  cases f.reply <;> rfl

theorem waiting_cons (f : PendingFrame) (newer : List PendingFrame) :
    waiting (f :: newer) = f.reply.toList ++ waiting newer := by
  unfold waiting
  cases hReply : f.reply with
  | none => simp [hReply]
  | some caller => simp [hReply]

/-- Answering every frame of a list answers exactly its waits. -/
theorem answered_flatMap_resolve (outcome : Outcome) (frames : List PendingFrame) :
    answered (frames.flatMap fun f => (f.resolve outcome).2) = waiting frames := by
  induction frames with
  | nil => rfl
  | cons f newer ih =>
    rw [List.flatMap_cons, answered_append, answered_resolve, ih, waiting_cons]

/-- An outcome of a resolution is the one given. -/
theorem mem_resolve {f : PendingFrame} {outcome : Outcome} {r : Resolution}
    (h : r ∈ (f.resolve outcome).2) : f.reply = some r.1 ∧ r.2 = outcome := by
  unfold PendingFrame.resolve at h
  cases hReply : f.reply with
  | none => simp [hReply] at h
  | some caller =>
    rw [hReply] at h
    simp only [List.mem_singleton] at h
    subst h
    exact ⟨rfl, rfl⟩

theorem waiting_updateSeq (pending : List PendingFrame) (seq : Nat)
    {change : PendingFrame → PendingFrame} (hChange : ∀ f, (change f).reply = f.reply) :
    waiting (updateSeq seq change pending) = waiting pending := by
  induction pending with
  | nil => rfl
  | cons f newer ih =>
    unfold updateSeq
    split
    · rw [waiting_cons, waiting_cons, hChange]
    · rw [waiting_cons, waiting_cons, ih]

/-- What a sweep of the tail does to the waits. -/
theorem releaseTail_waits (gone : CallerId → Bool) (frames : List PendingFrame) :
    ∀ nextSeq, (waiting (releaseTail gone frames nextSeq).1 ++
        answered (releaseTail gone frames nextSeq).2.2).Perm (waiting frames) := by
  induction frames with
  | nil => exact fun _ => List.Perm.refl _
  | cons f older ih =>
    intro nextSeq
    unfold releaseTail
    split
    · have hDrop : answered f.drop = f.reply.toList := answered_resolve f _
      rw [answered_append, hDrop, waiting_cons]
      exact List.perm_append_comm_assoc _ _ _ |>.trans ((ih (f.seq - 1)).append_left _)
    · simp [answered]

/-- Every outcome of a sweep is a failure. -/
theorem releaseTail_failed (gone : CallerId → Bool) (frames : List PendingFrame) :
    ∀ nextSeq, ∀ r ∈ (releaseTail gone frames nextSeq).2.2, r.2 ≠ .ok () := by
  induction frames with
  | nil => simp [releaseTail]
  | cons f older ih =>
    intro nextSeq r hr
    unfold releaseTail at hr
    split at hr
    · rcases List.mem_append.mp hr with hr | hr
      · rw [(mem_resolve hr).2]
        simp
      · exact ih _ r hr
    · simp at hr

theorem releaseTail_suffix (gone : CallerId → Bool) (frames : List PendingFrame) :
    ∀ nextSeq, (releaseTail gone frames nextSeq).1 <:+ frames := by
  induction frames with
  | nil => exact fun _ => List.suffix_refl _
  | cons f older ih =>
    intro nextSeq
    unfold releaseTail
    split
    · exact (ih _).trans (List.suffix_cons f older)
    · exact List.suffix_refl _

/-- A sweep only removes frames, with failures, and answers the waits it removes. -/
theorem releaseAbandoned_spec (state : ReliableState) (gone : CallerId → Bool) :
    (∀ f ∈ (state.releaseAbandoned gone).1.pending, f ∈ state.pending) ∧
      (∀ r ∈ (state.releaseAbandoned gone).2, r.2 ≠ .ok ()) ∧
      (waiting (state.releaseAbandoned gone).1.pending ++
        answered (state.releaseAbandoned gone).2).Perm (waiting state.pending) := by
  refine ⟨fun f hf => ?_, fun r hr => ?_, ?_⟩
  · have hTail := (List.mem_filter.mp hf).1
    have hOlder := (releaseTail_suffix gone _ state.nextSeq).subset (List.mem_reverse.mp hTail)
    exact List.mem_reverse.mp hOlder
  · rcases List.mem_append.mp hr with hr | hr
    · exact releaseTail_failed gone _ _ r hr
    · obtain ⟨f, -, hr⟩ := List.mem_flatMap.mp hr
      rw [(mem_resolve hr).2]
      simp
  · have hTail := releaseTail_waits gone state.pending.reverse state.nextSeq
    unfold ReliableState.releaseAbandoned
    generalize releaseTail gone state.pending.reverse state.nextSeq = tail at hTail ⊢
    dsimp only
    generalize hKept : tail.1.reverse.filter (fun f => !(f.sent && f.abandoned gone)) = kept
    generalize hEnded : tail.1.reverse.filter (fun f => f.sent && f.abandoned gone) = ended
    have hDrop : answered (ended.flatMap PendingFrame.drop) = waiting ended :=
      answered_flatMap_resolve _ _
    have hSplit : (kept ++ ended).Perm tail.1 := by
      rw [← hKept, ← hEnded]
      exact (List.perm_append_comm.trans (List.filter_append_perm _ _)).trans tail.1.reverse_perm
    rw [answered_append, hDrop]
    calc waiting kept ++ (answered tail.2.2 ++ waiting ended)
      _ ~ waiting kept ++ (waiting ended ++ answered tail.2.2) :=
          List.perm_append_comm.append_left _
      _ = waiting (kept ++ ended) ++ answered tail.2.2 := by
          rw [waiting_append, List.append_assoc]
      _ ~ waiting tail.1 ++ answered tail.2.2 := (hSplit.filterMap _).append_right _
      _ ~ waiting state.pending.reverse := hTail
      _ ~ waiting state.pending := state.pending.reverse_perm.filterMap _

/-- An acknowledgement only removes frames, answers the waits it removes, and tells
of success only the callers of sent frames at or below its mark. -/
theorem acknowledge_spec (state : ReliableState) (gone : CallerId → Bool) (stream upTo : Nat) :
    (state.acknowledge gone stream upTo).2.1.stream = state.stream ∧
      (∀ f ∈ (state.acknowledge gone stream upTo).2.1.pending, f ∈ state.pending) ∧
      (∀ caller, (caller, .ok ()) ∈ (state.acknowledge gone stream upTo).2.2 →
        ∃ f ∈ state.pending, f.sent = true ∧ f.seq ≤ upTo ∧ f.reply = some caller) ∧
      waiting (state.acknowledge gone stream upTo).2.1.pending ++
        answered (state.acknowledge gone stream upTo).2.2 ~ waiting state.pending := by
  unfold ReliableState.acknowledge
  split
  · simp [answered]
  · obtain ⟨hSwept, hFailed, hWaits⟩ := releaseAbandoned_spec state gone
    obtain ⟨front, hSplit, hFront, hLog⟩ :=
      settleFront_spec upTo (state.releaseAbandoned gone).1.pending
    have hAnswered : answered (settleFront upTo (state.releaseAbandoned gone).1.pending).2.2 =
        waiting front := by
      rw [hLog, answered_flatMap_resolve]
    dsimp only
    generalize settleFront upTo (state.releaseAbandoned gone).1.pending = settled at *
    refine ⟨rfl, fun f hf => ?_, fun caller hCaller => ?_, ?_⟩
    · apply hSwept
      rw [hSplit]
      exact List.mem_append_right _ hf
    · rcases List.mem_append.mp hCaller with hCaller | hCaller
      · exact absurd rfl (hFailed _ hCaller)
      · rw [hLog] at hCaller
        obtain ⟨f, hf, hCaller⟩ := List.mem_flatMap.mp hCaller
        refine ⟨f, hSwept f ?_, (hFront f hf).1, (hFront f hf).2, (mem_resolve hCaller).1⟩
        rw [hSplit]
        exact List.mem_append_left _ hf
    · rw [answered_append, hAnswered]
      rw [hSplit, waiting_append] at hWaits
      calc waiting settled.1 ++ (answered (state.releaseAbandoned gone).2 ++ waiting front)
        _ ~ waiting settled.1 ++ (waiting front ++ answered (state.releaseAbandoned gone).2) :=
            List.perm_append_comm.append_left _
        _ ~ waiting front ++ (waiting settled.1 ++ answered (state.releaseAbandoned gone).2) :=
            List.perm_append_comm_assoc _ _ _
        _ = waiting front ++ waiting settled.1 ++ answered (state.releaseAbandoned gone).2 :=
            (List.append_assoc _ _ _).symm
        _ ~ waiting state.pending := hWaits

end Waits

/-! ## The sender's callers -/

section Callers

variable [FrameCodec P]

/-- Every retained or written frame is the encoding of a submitted one, and every
caller has one wait, retained or answered. -/
structure WaitInv (sender : Sender P) : Prop where
  frames : ∀ f ∈ sender.state.pending, ∃ frame : ChannelSeq P, frame.seq = f.seq ∧
    FrameCodec.encode frame = some f.frame ∧
    ∀ caller, f.reply = some caller → (caller, frame) ∈ sender.submitted
  written : ∀ n bytes, (n, bytes) ∈ sender.handed → ∃ frame : ChannelSeq P, frame.seq = n ∧
    FrameCodec.encode frame = some bytes
  waits : (waiting sender.state.pending ++ answered sender.outcomes).Nodup
  known : ∀ caller ∈ waiting sender.state.pending ++ answered sender.outcomes,
    caller < sender.callers
  submitted : sender.submitted.map Prod.fst = List.range sender.callers

namespace WaitInv

variable {sender : Sender P}

theorem shrink (h : WaitInv sender) {state : ReliableState} {answers : List Resolution}
    (hSub : ∀ f ∈ state.pending, f ∈ sender.state.pending)
    (hWaits : waiting state.pending ++ answered answers ~ waiting sender.state.pending) :
    WaitInv { sender with state := state, outcomes := sender.outcomes ++ answers } := by
  have hPerm : waiting state.pending ++ answered (sender.outcomes ++ answers) ~
      waiting sender.state.pending ++ answered sender.outcomes := by
    rw [answered_append]
    calc waiting state.pending ++ (answered sender.outcomes ++ answered answers)
      _ ~ waiting state.pending ++ (answered answers ++ answered sender.outcomes) :=
          List.perm_append_comm.append_left _
      _ = waiting state.pending ++ answered answers ++ answered sender.outcomes :=
          (List.append_assoc _ _ _).symm
      _ ~ waiting sender.state.pending ++ answered sender.outcomes := hWaits.append_right _
  exact ⟨fun f hf => h.frames f (hSub f hf), h.written, hPerm.nodup_iff.mpr h.waits,
    fun caller hCaller => h.known caller (hPerm.mem_iff.mp hCaller), h.submitted⟩

/-- Changing the flags of one frame, and writing copies of retained frames. -/
theorem update (h : WaitInv sender) (hIncreasing : sender.state.pending.Pairwise
      fun f g => f.seq < g.seq) (seq : Nat) (change : PendingFrame → PendingFrame)
    {writing : List Nat} {handed : List (Nat × List UInt8)}
    (hSeq : ∀ f, (change f).seq = f.seq) (hFrame : ∀ f, (change f).frame = f.frame)
    (hReply : ∀ f, (change f).reply = f.reply)
    (hHanded : ∀ copy ∈ handed, copy ∈ sender.handed ∨
      ∃ f ∈ sender.state.pending, copy = (f.seq, f.frame)) :
    WaitInv { sender with
      state := { sender.state with pending := updateSeq seq change sender.state.pending }
      writing, handed } := by
  have hWaits := waiting_updateSeq sender.state.pending seq hReply
  refine ⟨fun f hf => ?_, fun n bytes hCopy => ?_, ?_, ?_, h.submitted⟩
  · rcases (mem_updateSeq hIncreasing).mp hf with ⟨hf, -⟩ | ⟨g, hg, -, rfl⟩
    · exact h.frames f hf
    · rw [hSeq, hFrame, hReply]
      exact h.frames g hg
  · rcases hHanded _ hCopy with hCopy | ⟨f, hf, hCopy⟩
    · exact h.written n bytes hCopy
    · obtain ⟨frame, hNumber, hEncode, -⟩ := h.frames f hf
      obtain ⟨rfl, rfl⟩ := Prod.mk.inj hCopy
      exact ⟨frame, hNumber, hEncode⟩
  · dsimp only
    rw [hWaits]
    exact h.waits
  · dsimp only
    rw [hWaits]
    exact h.known

/-- A submission adds its caller to the waits or to the answers. -/
theorem submit_waits (sender : Sender P) (channel : String) (payload : P) (answers : Funding) :
    waiting (sender.submit channel payload answers).state.pending ++
        answered (sender.submit channel payload answers).outcomes ~
      sender.callers :: (waiting sender.state.pending ++ answered sender.outcomes) := by
  unfold Sender.submit
  rcases submit_cases sender.state channel payload sender.callers answers with
    ⟨text, hSubmit⟩ | ⟨bytes, -, hSubmit⟩
  · rw [hSubmit, answered_append, ← List.append_assoc]
    exact List.perm_append_singleton _ _
  · rw [hSubmit]
    dsimp only
    rw [List.append_nil, waiting_append, List.append_assoc]
    exact List.perm_middle

/-- A submission gives its caller a wait, or an answer. -/
theorem submit (h : WaitInv sender) (channel : String) (payload : P) (answers : Funding) :
    WaitInv (sender.submit channel payload answers) := by
  have hWaits := submit_waits sender channel payload answers
  have hNew : sender.callers ∉ waiting sender.state.pending ++ answered sender.outcomes :=
    fun hOld => Nat.lt_irrefl _ (h.known _ hOld)
  have hOlder (f : PendingFrame) (hf : f ∈ sender.state.pending) : ∃ frame : ChannelSeq P,
      frame.seq = f.seq ∧ FrameCodec.encode frame = some f.frame ∧
      ∀ caller, f.reply = some caller →
        (caller, frame) ∈ (sender.submit channel payload answers).submitted := by
    obtain ⟨frame, hNumber, hEncode, hReply⟩ := h.frames f hf
    exact ⟨frame, hNumber, hEncode, fun caller hCaller =>
      List.mem_append_left _ (hReply caller hCaller)⟩
  refine ⟨?_, h.written, ?_, ?_, ?_⟩
  · rcases submit_cases sender.state channel payload sender.callers answers with
      ⟨text, hSubmit⟩ | ⟨bytes, hEncode, hSubmit⟩
    · have hState : (sender.submit channel payload answers).state = sender.state :=
        congrArg Prod.fst hSubmit
      rw [hState]
      exact hOlder
    · have hState := congrArg Prod.fst hSubmit
      intro f hf
      change f ∈ (sender.state.submit channel payload sender.callers answers).1.pending at hf
      rw [hState] at hf
      rcases List.mem_append.mp hf with hf | hf
      · exact hOlder f hf
      · obtain rfl := List.mem_singleton.mp hf
        refine ⟨_, rfl, hEncode, fun caller hCaller => ?_⟩
        obtain rfl := Option.some.inj hCaller
        exact List.mem_append_right _ List.mem_cons_self
  · exact hWaits.nodup_iff.mpr (List.nodup_cons.mpr ⟨hNew, h.waits⟩)
  · intro caller hCaller
    rcases List.mem_cons.mp (hWaits.mem_iff.mp hCaller) with rfl | hCaller
    · exact Nat.lt_succ_self _
    · exact Nat.lt_succ_of_lt (h.known caller hCaller)
  · unfold Sender.submit
    rw [List.map_append, h.submitted, List.range_succ]
    rfl

theorem acknowledge (h : WaitInv sender) (stream upTo : Nat) :
    WaitInv (sender.acknowledge stream upTo) := by
  obtain ⟨-, hSub, -, hWaits⟩ := acknowledge_spec sender.state sender.hasGone stream upTo
  exact h.shrink hSub hWaits

/-- The steps of the sender keep every caller's one wait. -/
theorem step {a b : Sender P} (h : WaitInv a) (hSound : a.Sound) (hStep : Sender.Local a b) :
    WaitInv b := by
  obtain ⟨high, hStream⟩ := hSound
  cases hStep with
  | submit channel payload answers => exact h.submit channel payload answers
  | hasUnsent =>
    obtain ⟨hSub, -, hWaits⟩ := releaseAbandoned_spec a.state a.hasGone
    exact h.shrink hSub hWaits
  | nextUnsent funded =>
    obtain ⟨hSub, -, hWaits⟩ := releaseAbandoned_spec a.state a.hasGone
    have hSwept := h.shrink hSub hWaits
    have hIncreasing := (hStream.releaseAbandoned a.hasGone).increasing
    rcases nextUnsent_cases a.state a.hasGone funded with hNext | ⟨f, hFind, hNext⟩
    · unfold Sender.nextUnsent
      rw [hNext]
      simpa using hSwept
    · unfold Sender.nextUnsent
      rw [hNext]
      refine hSwept.update hIncreasing f.seq (fun g => { g with handedOut := true })
        (fun _ => rfl) (fun _ => rfl) (fun _ => rfl) fun copy hCopy => ?_
      rcases List.mem_append.mp hCopy with hCopy | hCopy
      · exact .inl hCopy
      · exact .inr ⟨f, (first_unsent hIncreasing hFind).1, List.mem_singleton.mp hCopy⟩
  | markSent seq hWriting =>
    exact h.update hStream.increasing seq (fun g => { g with sent := true })
      (fun _ => rfl) (fun _ => rfl) (fun _ => rfl) fun _ hCopy => .inl hCopy
  | writeFailed seq => exact ⟨h.frames, h.written, h.waits, h.known, h.submitted⟩
  | abandon caller => exact ⟨h.frames, h.written, h.waits, h.known, h.submitted⟩

end WaitInv

/-- What a step of the sender keeps: everything written and submitted, and no caller
is told of success. -/
theorem Sender.Local.grows {a b : Sender P} (hStep : Sender.Local a b) :
    (∀ copy ∈ a.handed, copy ∈ b.handed) ∧ (∀ entry ∈ a.submitted, entry ∈ b.submitted) ∧
      ∀ caller, (caller, .ok ()) ∈ b.outcomes → (caller, .ok ()) ∈ a.outcomes := by
  have hSweep (caller : CallerId)
      (hCaller : (caller, .ok ()) ∈ a.outcomes ++ (a.state.releaseAbandoned a.hasGone).2) :
      (caller, .ok ()) ∈ a.outcomes := by
    rcases List.mem_append.mp hCaller with hCaller | hCaller
    · exact hCaller
    · exact absurd rfl ((releaseAbandoned_spec a.state a.hasGone).2.1 _ hCaller)
  cases hStep with
  | submit channel payload answers =>
    refine ⟨fun _ h => h, fun _ h => List.mem_append_left _ h, fun caller hCaller => ?_⟩
    rcases List.mem_append.mp hCaller with hCaller | hCaller
    · exact hCaller
    · rcases submit_cases a.state channel payload a.callers answers with
        ⟨text, hSubmit⟩ | ⟨bytes, -, hSubmit⟩
      · rw [hSubmit] at hCaller
        simp at hCaller
      · rw [hSubmit] at hCaller
        simp at hCaller
  | hasUnsent => exact ⟨fun _ h => h, fun _ h => h, hSweep⟩
  | nextUnsent funded =>
    refine ⟨fun _ h => List.mem_append_left _ h, fun _ h => h, fun caller hCaller => ?_⟩
    apply hSweep
    unfold Sender.nextUnsent at hCaller
    rcases nextUnsent_cases a.state a.hasGone funded with hNext | ⟨f, -, hNext⟩
    · rw [hNext] at hCaller
      exact hCaller
    · rw [hNext] at hCaller
      exact hCaller
  | markSent seq hWriting => exact ⟨fun _ h => h, fun _ h => h, fun _ h => h⟩
  | writeFailed seq => exact ⟨fun _ h => h, fun _ h => h, fun _ h => h⟩
  | abandon caller => exact ⟨fun _ h => h, fun _ h => h, fun _ h => h⟩

end Callers

/-! ## The two sides -/

/-- A sender, the receiver of its peer, what was delivered there and the marks
reported back. -/
structure Session (P : Type) where
  sender : Sender P
  receiver : ReliableState
  delivered : List (ChannelSeq P)
  acks : List (Nat × Nat)

/-- The frame an outcome handed to the application. -/
def deliveredBy (frame : ChannelSeq P) : Except Unit InboundOutcome → List (ChannelSeq P)
  | .ok (.delivered _) => [frame]
  | _ => []

/-- The acknowledgement an outcome is answered with. -/
def reportedBy (frame : ChannelSeq P) : Except Unit InboundOutcome → List (Nat × Nat)
  | .ok outcome => outcome.acknowledge.toList.map fun mark => (frame.stream, mark)
  | .error _ => []

namespace Session

def start (stream peer : Nat) : Session P where
  sender := .start stream
  receiver := .new peer
  delivered := []
  acks := []

/-- A frame arrives; the application takes it or refuses. -/
def receive (session : Session P) (frame : ChannelSeq P) (takes : Bool) : Session P :=
  let result := session.receiver.tryReceive frame fun _ => if takes then .ok () else .error ()
  { session with
    receiver := result.2
    delivered := session.delivered ++ deliveredBy frame result.1
    acks := session.acks ++ reportedBy frame result.1 }

/-- One step of either side. What arrives was written, and a mark that comes back was
reported; both may happen any number of times. -/
inductive Step [FrameCodec P] : Session P → Session P → Prop
  | sender (session : Session P) {sender : Sender P} : Sender.Local session.sender sender →
      Step session { session with sender }
  | receive (session : Session P) (seq : Nat) (bytes : List UInt8) (frame : ChannelSeq P)
      (takes : Bool) : (seq, bytes) ∈ session.sender.handed →
      FrameCodec.decode bytes = some frame → Step session (session.receive frame takes)
  | acknowledge (session : Session P) (stream upTo : Nat) : (stream, upTo) ∈ session.acks →
      Step session { session with sender := session.sender.acknowledge stream upTo }

def Reachable [FrameCodec P] (stream peer : Nat) (session : Session P) : Prop :=
  Relation.ReflTransGen Step (start stream peer) session

end Session

/-- An inbound frame is delivered as the next one, or leaves the mark and reports
no more than it. -/
theorem tryReceive_cases {E : Type} (state : ReliableState) (frame : ChannelSeq P)
    (deliver : ChannelSeq P → Except E Unit) :
    ((state.tryReceive frame deliver).1 = .ok (.delivered frame.seq) ∧
        frame.seq = state.inbound.lastSeq + 1 ∧
        (state.tryReceive frame deliver).2.inbound.lastSeq = frame.seq) ∨
      ((state.tryReceive frame deliver).2.inbound.lastSeq = state.inbound.lastSeq ∧
        ∀ outcome, (state.tryReceive frame deliver).1 = .ok outcome →
          outcome = .duplicate state.inbound.lastSeq ∨ outcome = .gap state.inbound.lastSeq ∨
            outcome = .foreignStream) := by
  unfold ReliableState.tryReceive
  cases hSucc : checkedSucc state.inbound.lastSeq with
  | none =>
    cases hBound : state.inbound.stream with
    | none => simp [hSucc]
    | some bound =>
      by_cases hForeign : bound = frame.stream
      · simp [hSucc, hForeign]
      · simp [hForeign]
  | some next =>
    have hNext := eq_succ_of_checkedSucc hSucc
    subst hNext
    cases hBound : state.inbound.stream with
    | none =>
      simp only [hSucc]
      split
      · cases deliver frame <;> simp_all
      · split <;> simp
    | some bound =>
      by_cases hForeign : bound = frame.stream
      · simp only [hSucc, hForeign, ne_eq, not_true, if_false]
        split
        · cases deliver frame <;> simp_all
        · split <;> simp
      · simp [hForeign]

/-- What the two sides agree on. -/
structure SessionInv [FrameCodec P] (session : Session P) : Prop where
  sound : session.sender.Sound
  waits : WaitInv session.sender
  mark : session.receiver.inbound.lastSeq = session.delivered.length
  numbers : session.delivered.map ChannelSeq.seq = List.range' 1 session.delivered.length
  origin : ∀ frame ∈ session.delivered, ∃ bytes, (frame.seq, bytes) ∈ session.sender.handed ∧
    FrameCodec.decode bytes = some frame
  reported : ∀ ack ∈ session.acks, ack.2 ≤ session.delivered.length
  told : ∀ caller, (caller, .ok ()) ∈ session.sender.outcomes →
    ∃ frame, (caller, frame) ∈ session.sender.submitted ∧ frame ∈ session.delivered

namespace SessionInv

variable [FrameCodec P] {session : Session P}

theorem start (stream peer : Nat) : SessionInv (Session.start stream peer : Session P) where
  sound := Sender.start_sound stream
  waits := by
    constructor <;> simp [Session.start, Sender.start, ReliableState.new, waiting, answered]
  mark := rfl
  numbers := rfl
  origin := by simp [Session.start]
  reported := by simp [Session.start]
  told := by simp [Session.start, Sender.start]

theorem sender (h : SessionInv session) {next : Sender P}
    (hStep : Sender.Local session.sender next) : SessionInv { session with sender := next } := by
  obtain ⟨hHanded, hSubmitted, hTold⟩ := hStep.grows
  refine ⟨hStep.sound h.sound, h.waits.step h.sound hStep, h.mark, h.numbers, fun frame hFrame => ?_,
    h.reported, fun caller hCaller => ?_⟩
  · obtain ⟨bytes, hCopy, hDecode⟩ := h.origin frame hFrame
    exact ⟨bytes, hHanded _ hCopy, hDecode⟩
  · obtain ⟨frame, hFrame, hDelivered⟩ := h.told caller (hTold caller hCaller)
    exact ⟨frame, hSubmitted _ hFrame, hDelivered⟩

/-- A frame of the mark or below, once sent, was delivered as it was submitted. -/
theorem delivered_of_sent (h : SessionInv session) {f : PendingFrame} {frame : ChannelSeq P}
    (hf : f ∈ session.sender.state.pending) (hSent : f.sent = true)
    (hSeq : f.seq ≤ session.delivered.length) (hEncode : FrameCodec.encode frame = some f.frame) :
    frame ∈ session.delivered := by
  obtain ⟨high, hStream⟩ := h.sound
  have hRange := (hStream.range f hf).1
  have hNumber : f.seq ∈ session.delivered.map ChannelSeq.seq := by
    rw [h.numbers, List.mem_range'_1]
    omega
  obtain ⟨arrived, hArrived, hSame⟩ := List.mem_map.mp hNumber
  obtain ⟨bytes, hCopy, hDecode⟩ := h.origin arrived hArrived
  -- the number was handed out with one value of its bytes
  have hOwn := hStream.copies f hf (hStream.sent f hf hSent)
  rw [hSame] at hCopy
  rw [hStream.same f.seq bytes f.frame hCopy hOwn, FrameCodec.decode_encode hEncode] at hDecode
  rw [Option.some.inj hDecode]
  exact hArrived

theorem acknowledge (h : SessionInv session) {stream upTo : Nat}
    (hAck : (stream, upTo) ∈ session.acks) :
    SessionInv { session with sender := session.sender.acknowledge stream upTo } := by
  obtain ⟨-, -, hOk, -⟩ :=
    acknowledge_spec session.sender.state session.sender.hasGone stream upTo
  refine ⟨Sender.acknowledge_sound h.sound stream upTo, h.waits.acknowledge stream upTo, h.mark,
    h.numbers, h.origin, h.reported, fun caller hCaller => ?_⟩
  rcases List.mem_append.mp hCaller with hCaller | hCaller
  · exact h.told caller hCaller
  · obtain ⟨f, hf, hSent, hSeq, hReply⟩ := hOk caller hCaller
    obtain ⟨frame, -, hEncode, hOwner⟩ := h.waits.frames f hf
    have hMark := h.reported _ hAck
    exact ⟨frame, hOwner caller hReply,
      h.delivered_of_sent hf hSent (Nat.le_trans hSeq hMark) hEncode⟩

theorem receive (h : SessionInv session) {seq : Nat} {bytes : List UInt8} {frame : ChannelSeq P}
    (hCopy : (seq, bytes) ∈ session.sender.handed) (hDecode : FrameCodec.decode bytes = some frame)
    (takes : Bool) : SessionInv (session.receive frame takes) := by
  unfold Session.receive
  dsimp only
  rcases tryReceive_cases session.receiver frame
      (fun _ => if takes then .ok () else .error ()) with
    ⟨hOutcome, hNext, hLast⟩ | ⟨hLast, hOutcome⟩
  · rw [h.mark] at hNext
    rw [hOutcome]
    refine ⟨h.sound, h.waits, ?_, ?_, fun arrived hArrived => ?_, fun ack hAck => ?_,
      fun caller hCaller => ?_⟩
    · rw [hLast, hNext]
      simp [deliveredBy]
    · rw [List.map_append, h.numbers]
      simp [deliveredBy, List.range'_1_concat, hNext]
      omega
    · rcases List.mem_append.mp hArrived with hArrived | hArrived
      · exact h.origin arrived hArrived
      · obtain rfl := List.mem_singleton.mp hArrived
        obtain ⟨own, hSeq, hEncode⟩ := h.waits.written seq bytes hCopy
        rw [FrameCodec.decode_encode hEncode] at hDecode
        obtain rfl := Option.some.inj hDecode
        refine ⟨bytes, ?_, FrameCodec.decode_encode hEncode⟩
        rw [hSeq]
        exact hCopy
    · rcases List.mem_append.mp hAck with hAck | hAck
      · have := h.reported ack hAck
        simp only [List.length_append]
        omega
      · simp only [reportedBy, InboundOutcome.acknowledge, Option.toList_some, List.map_cons,
          List.map_nil, List.mem_singleton] at hAck
        subst hAck
        simp [deliveredBy, hNext]
    · obtain ⟨own, hOwner, hDelivered⟩ := h.told caller hCaller
      exact ⟨own, hOwner, List.mem_append_left _ hDelivered⟩
  · generalize session.receiver.tryReceive frame _ = result at hLast hOutcome ⊢
    have hNone : deliveredBy frame result.1 = [] := by
      cases hResult : result.1 with
      | error e => rfl
      | ok outcome => rcases hOutcome outcome hResult with rfl | rfl | rfl <;> rfl
    rw [hNone, List.append_nil]
    refine ⟨h.sound, h.waits, hLast.trans h.mark, h.numbers, h.origin, fun ack hAck => ?_, h.told⟩
    rcases List.mem_append.mp hAck with hAck | hAck
    · exact h.reported ack hAck
    · rw [← h.mark]
      cases hResult : result.1 with
      | error e => simp [hResult, reportedBy] at hAck
      | ok outcome =>
        rw [hResult] at hAck
        rcases hOutcome outcome hResult with rfl | rfl | rfl
        · simp_all [reportedBy, InboundOutcome.acknowledge]
        · simp_all [reportedBy, InboundOutcome.acknowledge]
        · simp [reportedBy, InboundOutcome.acknowledge] at hAck

theorem step (a b : Session P) (h : SessionInv a) (hStep : Session.Step a b) : SessionInv b := by
  cases hStep with
  | sender hLocal => exact h.sender hLocal
  | receive seq bytes frame takes hCopy hDecode => exact h.receive hCopy hDecode takes
  | acknowledge stream upTo hAck => exact h.acknowledge hAck

end SessionInv

end MyOwnMesh.Reliable
