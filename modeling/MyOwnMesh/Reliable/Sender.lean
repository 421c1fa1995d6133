import Mathlib.Data.List.Nodup
import MyOwnMesh.Foundation.Transition
import MyOwnMesh.Reliable.Stream

/-!
# The sending side of a reliable stream

The sender of a session with what surrounds it: callers that submit and may drop
their wait, any number of flushes that hand frames to writes, writes that return
or fail, and acknowledgements with any mark. A write reports only a number that
the stream has handed to it.

Every reachable state keeps the stream without a hole (`StreamInv`): the numbers
ever handed to a write are a prefix of the natural numbers, each with one value
of its bytes, and nothing above that prefix leaves the queue except from its end,
where the number is given back.
-/

namespace MyOwnMesh.Reliable

open Foundation

variable {P : Type}

/-! ## The system -/

/-- The sender with its environment. The last three fields record what happened:
the frames handed to writes, what each caller submitted and the outcomes sent. -/
structure Sender (P : Type) where
  state : ReliableState
  callers : Nat
  gone : List CallerId
  writing : List Nat
  handed : List (Nat × List UInt8)
  submitted : List (CallerId × ChannelSeq P)
  outcomes : List Resolution

namespace Sender

def start (stream : Nat) : Sender P where
  state := .new stream
  callers := 0
  gone := []
  writing := []
  handed := []
  submitted := []
  outcomes := []

def hasGone (sender : Sender P) (caller : CallerId) : Bool := sender.gone.contains caller

/-- A new caller submits a payload and waits for its outcome. -/
def submit [FrameCodec P] (sender : Sender P) (channel : String) (payload : P)
    (answers : Funding) : Sender P :=
  let result := sender.state.submit channel payload sender.callers answers
  { sender with
    state := result.1
    callers := sender.callers + 1
    submitted := sender.submitted ++
      [(sender.callers, ⟨sender.state.stream, sender.state.nextSeq + 1, channel, payload⟩)]
    outcomes := sender.outcomes ++ result.2 }

def hasUnsent (sender : Sender P) : Sender P :=
  let result := sender.state.hasUnsent sender.hasGone
  { sender with state := result.2.1, outcomes := sender.outcomes ++ result.2.2 }

/-- A flush asks for the next frame and starts to write it. -/
def nextUnsent (sender : Sender P) (funded : Bool) : Sender P :=
  let result := sender.state.nextUnsent sender.hasGone funded
  { sender with
    state := result.2.1
    writing := sender.writing ++ (result.1.map UnsentFrame.seq).toList
    handed := sender.handed ++ (result.1.map fun unsent => (unsent.seq, unsent.bytes)).toList
    outcomes := sender.outcomes ++ result.2.2 }

def markSent (sender : Sender P) (seq : Nat) : Sender P :=
  { sender with state := sender.state.markSent seq, writing := sender.writing.erase seq }

/-- A write has failed; its bytes may have arrived. -/
def writeFailed (sender : Sender P) (seq : Nat) : Sender P :=
  { sender with writing := sender.writing.erase seq }

def abandon (sender : Sender P) (caller : CallerId) : Sender P :=
  { sender with gone := caller :: sender.gone }

def acknowledge (sender : Sender P) (stream upTo : Nat) : Sender P :=
  let result := sender.state.acknowledge sender.hasGone stream upTo
  { sender with state := result.2.1, outcomes := sender.outcomes ++ result.2.2 }

/-- One step of the sending side without its peer. -/
inductive Local [FrameCodec P] : Sender P → Sender P → Prop
  | submit (sender : Sender P) (channel : String) (payload : P) (answers : Funding) :
      Local sender (sender.submit channel payload answers)
  | hasUnsent (sender : Sender P) : Local sender sender.hasUnsent
  | nextUnsent (sender : Sender P) (funded : Bool) : Local sender (sender.nextUnsent funded)
  | markSent (sender : Sender P) (seq : Nat) : seq ∈ sender.writing →
      Local sender (sender.markSent seq)
  | writeFailed (sender : Sender P) (seq : Nat) : Local sender (sender.writeFailed seq)
  | abandon (sender : Sender P) (caller : CallerId) : Local sender (sender.abandon caller)

/-- One step of the sending side; the peer may acknowledge anything. -/
inductive Step [FrameCodec P] : Sender P → Sender P → Prop
  | own {a b : Sender P} : Local a b → Step a b
  | acknowledge (sender : Sender P) (stream upTo : Nat) :
      Step sender (sender.acknowledge stream upTo)

/-- A state some run of the sending side leads to. -/
def Reachable [FrameCodec P] (stream : Nat) (sender : Sender P) : Prop :=
  Relation.ReflTransGen Step (start stream) sender

end Sender

/-! ## The stream invariant -/

/-- A stream without a hole: `high` numbers have been handed out. -/
structure StreamInv (high : Nat) (handed : List (Nat × List UInt8)) (writing : List Nat)
    (nextSeq : Nat) (pending : List PendingFrame) : Prop where
  increasing : pending.Pairwise fun f g => f.seq < g.seq
  range : ∀ f ∈ pending, 1 ≤ f.seq ∧ f.seq ≤ nextSeq
  handed_iff : ∀ n, (∃ bytes, (n, bytes) ∈ handed) ↔ 1 ≤ n ∧ n ≤ high
  same : ∀ n bytes bytes', (n, bytes) ∈ handed → (n, bytes') ∈ handed → bytes = bytes'
  high_le : high ≤ nextSeq
  flag : ∀ f ∈ pending, f.handedOut = true ↔ f.seq ≤ high
  copies : ∀ f ∈ pending, f.handedOut = true → (f.seq, f.frame) ∈ handed
  sent : ∀ f ∈ pending, f.sent = true → f.handedOut = true
  retained : ∀ n, high < n → n ≤ nextSeq → ∃ f ∈ pending, f.seq = n
  block : ∀ f ∈ pending, f.sent = false → ∀ n, f.seq ≤ n → n ≤ nextSeq →
    ∃ g ∈ pending, g.seq = n ∧ g.sent = false
  front : ∀ n ∈ writing, n ≤ high ∧ ∀ f ∈ pending, f.sent = false → n ≤ f.seq

/-! ## Frames and their numbers -/

section Frames

variable {pending : List PendingFrame} {seq : Nat} {change : PendingFrame → PendingFrame}

/-- A number names one retained frame. -/
theorem eq_of_seq_eq (h : pending.Pairwise fun f g => f.seq < g.seq) {f g : PendingFrame}
    (hf : f ∈ pending) (hg : g ∈ pending) (hSeq : f.seq = g.seq) : f = g := by
  have hNodup : (pending.map PendingFrame.seq).Nodup :=
    List.pairwise_map.mpr (h.imp fun hLt => Nat.ne_of_lt hLt)
  exact List.inj_on_of_nodup_map hNodup hf hg hSeq

theorem map_seq_updateSeq (hChange : ∀ f, (change f).seq = f.seq) :
    (updateSeq seq change pending).map PendingFrame.seq = pending.map PendingFrame.seq := by
  induction pending with
  | nil => rfl
  | cons f newer ih =>
    unfold updateSeq
    split
    · simp [hChange]
    · simp [ih]

/-- Updating a number changes its one frame. -/
theorem mem_updateSeq (h : pending.Pairwise fun f g => f.seq < g.seq) {g : PendingFrame} :
    g ∈ updateSeq seq change pending ↔
      (g ∈ pending ∧ g.seq ≠ seq) ∨ ∃ f ∈ pending, f.seq = seq ∧ g = change f := by
  induction pending with
  | nil => simp [updateSeq]
  | cons f newer ih =>
    obtain ⟨hFirst, hNewer⟩ := List.pairwise_cons.mp h
    unfold updateSeq
    by_cases hSeq : f.seq = seq
    · rw [if_pos hSeq, List.mem_cons]
      have hOther (x : PendingFrame) (hx : x ∈ newer) : x.seq ≠ seq := by
        have := hFirst x hx
        omega
      constructor
      · intro hg
        rcases hg with rfl | hg
        · exact .inr ⟨f, List.mem_cons_self, hSeq, rfl⟩
        · exact .inl ⟨List.mem_cons_of_mem f hg, hOther g hg⟩
      · intro hg
        rcases hg with ⟨hg, hNe⟩ | ⟨x, hx, hxSeq, rfl⟩
        · rcases List.mem_cons.mp hg with rfl | hg
          · exact absurd hSeq hNe
          · exact .inr hg
        · rcases List.mem_cons.mp hx with rfl | hx
          · exact .inl rfl
          · exact absurd hxSeq (hOther x hx)
    · rw [if_neg hSeq, List.mem_cons, ih hNewer]
      constructor
      · intro hg
        rcases hg with rfl | ⟨hg, hNe⟩ | ⟨x, hx, hxSeq, rfl⟩
        · exact .inl ⟨List.mem_cons_self, hSeq⟩
        · exact .inl ⟨List.mem_cons_of_mem f hg, hNe⟩
        · exact .inr ⟨x, List.mem_cons_of_mem f hx, hxSeq, rfl⟩
      · intro hg
        rcases hg with ⟨hg, hNe⟩ | ⟨x, hx, hxSeq, rfl⟩
        · rcases List.mem_cons.mp hg with rfl | hg
          · exact .inl rfl
          · exact .inr (.inl ⟨hg, hNe⟩)
        · rcases List.mem_cons.mp hx with rfl | hx
          · exact absurd hxSeq hSeq
          · exact .inr (.inr ⟨x, hx, hxSeq, rfl⟩)

theorem updateSeq_increasing (hChange : ∀ f, (change f).seq = f.seq)
    (h : pending.Pairwise fun f g => f.seq < g.seq) :
    (updateSeq seq change pending).Pairwise fun f g => f.seq < g.seq := by
  have hMap : ((updateSeq seq change pending).map PendingFrame.seq).Pairwise (· < ·) := by
    rw [map_seq_updateSeq hChange]
    exact List.pairwise_map.mpr h
  exact List.pairwise_map.mp hMap

end Frames

/-! ## What keeps the invariant -/

namespace StreamInv

variable {high nextSeq : Nat} {handed : List (Nat × List UInt8)} {writing : List Nat}
  {pending : List PendingFrame}

/-- The newest frame gives its number back while no write has had it. -/
theorem dropNewest {f : PendingFrame} (h : StreamInv high handed writing nextSeq (pending ++ [f]))
    (hFree : f.handedOut = false) : StreamInv high handed writing (f.seq - 1) pending := by
  obtain ⟨hOlder, -, hLast⟩ := List.pairwise_append.mp h.increasing
  have hMem : f ∈ pending ++ [f] := List.mem_append_right _ List.mem_cons_self
  have hBelow (g : PendingFrame) (hg : g ∈ pending) : g.seq < f.seq :=
    hLast g hg f List.mem_cons_self
  have hHigh : high < f.seq := by
    have hFlag := h.flag f hMem
    rw [hFree] at hFlag
    simp only [Bool.false_eq_true, false_iff] at hFlag
    omega
  have hOld {g : PendingFrame} (hg : g ∈ pending ++ [f]) (hSeq : g.seq < f.seq) : g ∈ pending := by
    rcases List.mem_append.mp hg with hg | hg
    · exact hg
    · rw [List.mem_singleton.mp hg] at hSeq
      omega
  have hRange := h.range f hMem
  refine ⟨hOlder, fun g hg => ?_, h.handed_iff, h.same, by omega,
    fun g hg => h.flag g (List.mem_append_left _ hg),
    fun g hg => h.copies g (List.mem_append_left _ hg),
    fun g hg => h.sent g (List.mem_append_left _ hg), fun n hLow hn => ?_,
    fun g hg hSent n hLow hn => ?_, fun n hn => ?_⟩
  · have hSeq := h.range g (List.mem_append_left _ hg)
    have hLt := hBelow g hg
    omega
  · obtain ⟨g, hg, hSeq⟩ := h.retained n hLow (by omega)
    exact ⟨g, hOld hg (by omega), hSeq⟩
  · obtain ⟨x, hx, hSeq, hUnsent⟩ := h.block g (List.mem_append_left _ hg) hSent n hLow (by omega)
    exact ⟨x, hOld hx (by omega), hSeq, hUnsent⟩
  · obtain ⟨hHighN, hFront⟩ := h.front n hn
    exact ⟨hHighN, fun g hg => hFront g (List.mem_append_left _ hg)⟩

/-- Sent frames may leave from anywhere. -/
theorem removeSent {kept : List PendingFrame} (h : StreamInv high handed writing nextSeq pending)
    (hSub : kept.Sublist pending) (hKeep : ∀ f ∈ pending, f.sent = false → f ∈ kept) :
    StreamInv high handed writing nextSeq kept := by
  have hMem {f : PendingFrame} (hf : f ∈ kept) : f ∈ pending := hSub.subset hf
  refine ⟨h.increasing.sublist hSub, fun f hf => h.range f (hMem hf), h.handed_iff, h.same,
    h.high_le, fun f hf => h.flag f (hMem hf), fun f hf => h.copies f (hMem hf),
    fun f hf => h.sent f (hMem hf), fun n hLow hn => ?_, fun f hf hSent n hLow hn => ?_,
    fun n hn => ?_⟩
  · obtain ⟨f, hf, hSeq⟩ := h.retained n hLow hn
    refine ⟨f, hKeep f hf ?_, hSeq⟩
    cases hSent : f.sent with
    | false => rfl
    | true =>
      have hOut := (h.flag f hf).mp (h.sent f hf hSent)
      omega
  · obtain ⟨g, hg, hSeq, hUnsent⟩ := h.block f (hMem hf) hSent n hLow hn
    exact ⟨g, hKeep g hg hUnsent, hSeq, hUnsent⟩
  · obtain ⟨hHigh, hFront⟩ := h.front n hn
    exact ⟨hHigh, fun f hf => hFront f (hMem hf)⟩

theorem push (h : StreamInv high handed writing nextSeq pending) (bytes : List UInt8)
    (reply : Option CallerId) :
    StreamInv high handed writing (nextSeq + 1)
      (pending ++ [⟨nextSeq + 1, bytes, false, false, reply⟩]) := by
  have hHigh := h.high_le
  refine ⟨?_, fun f hf => ?_, h.handed_iff, h.same, by omega, fun f hf => ?_, fun f hf hOut => ?_,
    fun f hf hSent => ?_, fun n hLow hn => ?_, fun f hf hSent n hLow hn => ?_, fun n hn => ?_⟩
  · refine List.pairwise_append.mpr ⟨h.increasing, List.pairwise_singleton _ _, fun f hf g hg => ?_⟩
    have hSeq := h.range f hf
    rw [List.mem_singleton.mp hg]
    show f.seq < nextSeq + 1
    omega
  · rcases List.mem_append.mp hf with hf | hf
    · have hSeq := h.range f hf
      omega
    · rw [List.mem_singleton.mp hf]
      show 1 ≤ nextSeq + 1 ∧ nextSeq + 1 ≤ nextSeq + 1
      omega
  · rcases List.mem_append.mp hf with hf | hf
    · exact h.flag f hf
    · rw [List.mem_singleton.mp hf]
      show false = true ↔ nextSeq + 1 ≤ high
      constructor
      · intro hFalse
        cases hFalse
      · omega
  · rcases List.mem_append.mp hf with hf | hf
    · exact h.copies f hf hOut
    · rw [List.mem_singleton.mp hf] at hOut
      cases hOut
  · rcases List.mem_append.mp hf with hf | hf
    · exact h.sent f hf hSent
    · rw [List.mem_singleton.mp hf] at hSent
      cases hSent
  · by_cases hNew : n = nextSeq + 1
    · exact ⟨_, List.mem_append_right _ List.mem_cons_self, hNew.symm⟩
    · obtain ⟨f, hf, hSeq⟩ := h.retained n hLow (by omega)
      exact ⟨f, List.mem_append_left _ hf, hSeq⟩
  · by_cases hNew : n = nextSeq + 1
    · exact ⟨_, List.mem_append_right _ List.mem_cons_self, hNew.symm, rfl⟩
    · rcases List.mem_append.mp hf with hf | hf
      · obtain ⟨g, hg, hSeq, hUnsent⟩ := h.block f hf hSent n hLow (by omega)
        exact ⟨g, List.mem_append_left _ hg, hSeq, hUnsent⟩
      · rw [List.mem_singleton.mp hf] at hLow
        have hLow' : nextSeq + 1 ≤ n := hLow
        omega
  · obtain ⟨hHighN, hFront⟩ := h.front n hn
    refine ⟨hHighN, fun f hf hSent => ?_⟩
    rcases List.mem_append.mp hf with hf | hf
    · exact hFront f hf hSent
    · rw [List.mem_singleton.mp hf]
      show n ≤ nextSeq + 1
      omega

/-- The first unsent frame is handed to a write: its number is known already, or
it is the next one. -/
theorem handOut {f : PendingFrame} (h : StreamInv high handed writing nextSeq pending)
    (hf : f ∈ pending) (hUnsent : f.sent = false)
    (hFirst : ∀ g ∈ pending, g.sent = false → f.seq ≤ g.seq) :
    StreamInv (max high f.seq) (handed ++ [(f.seq, f.frame)]) (writing ++ [f.seq]) nextSeq
      (updateSeq f.seq (fun g => { g with handedOut := true }) pending) := by
  have hNext : f.seq ≤ high + 1 := by
    by_contra hFar
    have hSeq := h.range f hf
    obtain ⟨g, hg, hgSeq⟩ := h.retained (high + 1) (by omega) (by omega)
    have hgUnsent : g.sent = false := by
      cases hSent : g.sent with
      | false => rfl
      | true =>
        have hOut := (h.flag g hg).mp (h.sent g hg hSent)
        omega
    have hLe := hFirst g hg hgUnsent
    omega
  have hRange := h.range f hf
  have hHigh := h.high_le
  have hOwn (bytes : List UInt8) (hBytes : (f.seq, bytes) ∈ handed) : bytes = f.frame := by
    have hKnown : f.seq ≤ high := ((h.handed_iff f.seq).mp ⟨bytes, hBytes⟩).2
    exact h.same _ _ _ hBytes (h.copies f hf ((h.flag f hf).mpr hKnown))
  refine ⟨updateSeq_increasing (fun _ => rfl) h.increasing, fun g hg => ?_, fun n => ?_,
    fun n bytes bytes' hBytes hBytes' => ?_, by omega, fun g hg => ?_, fun g hg hOut => ?_,
    fun g hg hSent => ?_, fun n hLow hn => ?_, fun g hg hSent n hLow hn => ?_, fun n hn => ?_⟩
  · rcases (mem_updateSeq h.increasing).mp hg with ⟨hg, -⟩ | ⟨x, hx, -, rfl⟩
    · exact h.range g hg
    · exact h.range x hx
  · constructor
    · rintro ⟨bytes, hBytes⟩
      rcases List.mem_append.mp hBytes with hBytes | hBytes
      · have hOld := (h.handed_iff n).mp ⟨bytes, hBytes⟩
        omega
      · have hNew : n = f.seq := congrArg Prod.fst (List.mem_singleton.mp hBytes)
        omega
    · intro hn
      by_cases hKnown : n ≤ high
      · obtain ⟨bytes, hBytes⟩ := (h.handed_iff n).mpr ⟨hn.1, hKnown⟩
        exact ⟨bytes, List.mem_append_left _ hBytes⟩
      · have hNew : n = f.seq := by omega
        exact ⟨f.frame, List.mem_append_right _ (by simp [hNew])⟩
  · rcases List.mem_append.mp hBytes with hBytes | hBytes
    · rcases List.mem_append.mp hBytes' with hBytes' | hBytes'
      · exact h.same n bytes bytes' hBytes hBytes'
      · obtain ⟨rfl, rfl⟩ := Prod.mk.inj (List.mem_singleton.mp hBytes')
        exact hOwn bytes hBytes
    · obtain ⟨rfl, rfl⟩ := Prod.mk.inj (List.mem_singleton.mp hBytes)
      rcases List.mem_append.mp hBytes' with hBytes' | hBytes'
      · exact (hOwn bytes' hBytes').symm
      · exact (congrArg Prod.snd (List.mem_singleton.mp hBytes')).symm
  · rcases (mem_updateSeq h.increasing).mp hg with ⟨hg, hNe⟩ | ⟨x, hx, hSeq, rfl⟩
    · rw [h.flag g hg]
      omega
    · show true = true ↔ x.seq ≤ max high f.seq
      simp only [true_iff]
      omega
  · rcases (mem_updateSeq h.increasing).mp hg with ⟨hg, hNe⟩ | ⟨x, hx, hSeq, rfl⟩
    · exact List.mem_append_left _ (h.copies g hg hOut)
    · obtain rfl := eq_of_seq_eq h.increasing hx hf hSeq
      exact List.mem_append_right _ List.mem_cons_self
  · rcases (mem_updateSeq h.increasing).mp hg with ⟨hg, hNe⟩ | ⟨x, hx, hSeq, rfl⟩
    · exact h.sent g hg hSent
    · rfl
  · obtain ⟨g, hg, hSeq⟩ := h.retained n (by omega) hn
    exact ⟨g, (mem_updateSeq h.increasing).mpr (.inl ⟨hg, by omega⟩), hSeq⟩
  · have hOld : ∃ x ∈ pending, x.seq = g.seq ∧ x.sent = false := by
      rcases (mem_updateSeq h.increasing).mp hg with ⟨hg, -⟩ | ⟨x, hx, -, rfl⟩
      · exact ⟨g, hg, rfl, hSent⟩
      · exact ⟨x, hx, rfl, hSent⟩
    obtain ⟨x, hx, hxSeq, hxSent⟩ := hOld
    obtain ⟨y, hy, hySeq, hySent⟩ := h.block x hx hxSent n (by omega) hn
    by_cases hSelf : y.seq = f.seq
    · exact ⟨_, (mem_updateSeq h.increasing).mpr (.inr ⟨y, hy, hSelf, rfl⟩), hySeq, hySent⟩
    · exact ⟨y, (mem_updateSeq h.increasing).mpr (.inl ⟨hy, hSelf⟩), hySeq, hySent⟩
  · have hOld (m : Nat) (hm : ∀ x ∈ pending, x.sent = false → m ≤ x.seq) :
        ∀ g ∈ updateSeq f.seq (fun g => { g with handedOut := true }) pending,
          g.sent = false → m ≤ g.seq := by
      intro g hg hSent
      rcases (mem_updateSeq h.increasing).mp hg with ⟨hg, -⟩ | ⟨x, hx, -, rfl⟩
      · exact hm g hg hSent
      · exact hm x hx hSent
    rcases List.mem_append.mp hn with hn | hn
    · obtain ⟨hLe, hFront⟩ := h.front n hn
      exact ⟨by omega, hOld n hFront⟩
    · obtain rfl := List.mem_singleton.mp hn
      exact ⟨by omega, hOld f.seq hFirst⟩

/-- A write that returns was handed the first unsent frame, or one already sent. -/
theorem mark (h : StreamInv high handed writing nextSeq pending) {seq : Nat}
    (hSeq : seq ∈ writing) :
    StreamInv high handed (writing.erase seq) nextSeq
      (updateSeq seq (fun f => { f with sent := true }) pending) := by
  obtain ⟨hKnown, hFront⟩ := h.front seq hSeq
  refine ⟨updateSeq_increasing (fun _ => rfl) h.increasing, fun g hg => ?_, h.handed_iff, h.same,
    h.high_le, fun g hg => ?_, fun g hg hOut => ?_, fun g hg hSent => ?_, fun n hLow hn => ?_,
    fun g hg hSent n hLow hn => ?_, fun n hn => ?_⟩
  · rcases (mem_updateSeq h.increasing).mp hg with ⟨hg, -⟩ | ⟨x, hx, -, rfl⟩
    · exact h.range g hg
    · exact h.range x hx
  · rcases (mem_updateSeq h.increasing).mp hg with ⟨hg, -⟩ | ⟨x, hx, -, rfl⟩
    · exact h.flag g hg
    · exact h.flag x hx
  · rcases (mem_updateSeq h.increasing).mp hg with ⟨hg, -⟩ | ⟨x, hx, -, rfl⟩
    · exact h.copies g hg hOut
    · exact h.copies x hx hOut
  · rcases (mem_updateSeq h.increasing).mp hg with ⟨hg, -⟩ | ⟨x, hx, hxSeq, rfl⟩
    · exact h.sent g hg hSent
    · exact (h.flag x hx).mpr (by omega)
  · obtain ⟨g, hg, hgSeq⟩ := h.retained n hLow hn
    exact ⟨g, (mem_updateSeq h.increasing).mpr (.inl ⟨hg, by omega⟩), hgSeq⟩
  · rcases (mem_updateSeq h.increasing).mp hg with ⟨hg, hNe⟩ | ⟨x, hx, -, rfl⟩
    · have hAbove := hFront g hg hSent
      obtain ⟨y, hy, hySeq, hySent⟩ := h.block g hg hSent n hLow hn
      exact ⟨y, (mem_updateSeq h.increasing).mpr (.inl ⟨hy, by omega⟩), hySeq, hySent⟩
    · cases hSent
  · obtain ⟨hLe, hFirst⟩ := h.front n (List.mem_of_mem_erase hn)
    refine ⟨hLe, fun g hg hSent => ?_⟩
    rcases (mem_updateSeq h.increasing).mp hg with ⟨hg, -⟩ | ⟨x, hx, -, rfl⟩
    · exact hFirst g hg hSent
    · cases hSent

/-- Writes that end without a result change nothing. -/
theorem forget (h : StreamInv high handed writing nextSeq pending) (seq : Nat) :
    StreamInv high handed (writing.erase seq) nextSeq pending :=
  { h with front := fun n hn => h.front n (List.mem_of_mem_erase hn) }

end StreamInv

/-! ## The operations -/

section Operations

variable {high nextSeq : Nat} {handed : List (Nat × List UInt8)} {writing : List Nat}
  {pending : List PendingFrame} {gone : CallerId → Bool} {state : ReliableState}

theorem StreamInv.releaseTail (gone : CallerId → Bool) (frames : List PendingFrame) :
    ∀ {nextSeq : Nat}, StreamInv high handed writing nextSeq frames.reverse →
      StreamInv high handed writing (releaseTail gone frames nextSeq).2.1
        (releaseTail gone frames nextSeq).1.reverse := by
  induction frames with
  | nil => exact fun h => h
  | cons f older ih =>
    intro nextSeq h
    unfold Reliable.releaseTail
    split
    · next hFree =>
        rw [List.reverse_cons] at h
        simp only [Bool.and_eq_true, Bool.not_eq_true'] at hFree
        exact ih (h.dropNewest hFree.1)
    · exact h

/-- A sweep keeps the stream. -/
theorem StreamInv.releaseAbandoned (gone : CallerId → Bool)
    (h : StreamInv high handed writing state.nextSeq state.pending) :
    StreamInv high handed writing (state.releaseAbandoned gone).1.nextSeq
      (state.releaseAbandoned gone).1.pending := by
  have hReverse : StreamInv high handed writing state.nextSeq state.pending.reverse.reverse := by
    rw [List.reverse_reverse]
    exact h
  have hTail := StreamInv.releaseTail gone _ hReverse
  refine hTail.removeSent List.filter_sublist fun f hf hSent => ?_
  exact List.mem_filter.mpr ⟨hf, by simp [hSent]⟩

/-- The settled frames are a front part, all sent and covered. -/
theorem settleFront_spec (upTo : Nat) (pending : List PendingFrame) :
    ∃ front, pending = front ++ (settleFront upTo pending).1 ∧
      (∀ f ∈ front, f.sent = true ∧ f.seq ≤ upTo) ∧
      (settleFront upTo pending).2.2 = front.flatMap fun f => (f.resolve (.ok ())).2 := by
  induction pending with
  | nil => exact ⟨[], rfl, by simp, rfl⟩
  | cons f newer ih =>
    unfold settleFront
    split
    · next hCovered =>
        simp only [Bool.and_eq_true, decide_eq_true_eq] at hCovered
        obtain ⟨front, hSplit, hFront, hLog⟩ := ih
        refine ⟨f :: front, ?_, ?_, ?_⟩
        · exact congrArg (List.cons f) hSplit
        · intro g hg
          rcases List.mem_cons.mp hg with rfl | hg
          · exact hCovered
          · exact hFront g hg
        · have hSilent : ((f.resolve (.ok ())).1).drop = [] := by
            unfold PendingFrame.resolve
            cases hReply : f.reply with
            | none => simp [PendingFrame.drop, PendingFrame.resolve, hReply]
            | some caller => simp [PendingFrame.drop, PendingFrame.resolve]
          rw [List.flatMap_cons, ← hLog]
          dsimp only
          rw [hSilent, List.append_nil]
    · exact ⟨[], rfl, by simp, rfl⟩

/-- The first unsent frame has the least number of them. -/
theorem first_unsent {f : PendingFrame} (h : pending.Pairwise fun f g => f.seq < g.seq)
    (hFind : pending.find? (fun frame => !frame.sent) = some f) :
    f ∈ pending ∧ f.sent = false ∧ ∀ g ∈ pending, g.sent = false → f.seq ≤ g.seq := by
  obtain ⟨hUnsent, older, newer, rfl, hOlder⟩ := List.find?_eq_some_iff_append.mp hFind
  refine ⟨by simp, by simpa using hUnsent, fun g hg hSent => ?_⟩
  rcases List.mem_append.mp hg with hg | hg
  · have hSentG := hOlder g hg
    simp [hSent] at hSentG
  · rcases List.mem_cons.mp hg with rfl | hg
    · exact Nat.le_refl _
    · obtain ⟨-, hRest, -⟩ := List.pairwise_append.mp h
      exact Nat.le_of_lt ((List.pairwise_cons.mp hRest).1 g hg)

/-- Settling keeps the stream: only sent frames go. -/
theorem StreamInv.settleFront (upTo : Nat) (h : StreamInv high handed writing nextSeq pending) :
    StreamInv high handed writing nextSeq (settleFront upTo pending).1 := by
  obtain ⟨front, hSplit, hFront, -⟩ := settleFront_spec upTo pending
  apply h.removeSent
  · exact List.IsSuffix.sublist ⟨front, hSplit.symm⟩
  · intro f hf hSent
    rcases List.mem_append.mp (hSplit ▸ hf) with hf | hf
    · simp [(hFront f hf).1] at hSent
    · exact hf

/-- An acknowledgement keeps the stream. -/
theorem StreamInv.acknowledge (stream upTo : Nat)
    (h : StreamInv high handed writing state.nextSeq state.pending) :
    StreamInv high handed writing (state.acknowledge gone stream upTo).2.1.nextSeq
      (state.acknowledge gone stream upTo).2.1.pending := by
  unfold ReliableState.acknowledge
  split
  · exact h
  · exact (h.releaseAbandoned gone).settleFront upTo

/-- What is retained is the frame's encoding. -/
theorem encode_of_encodeFunded [FrameCodec P] {frame : ChannelSeq P} {answers : Funding}
    {bytes : List UInt8} (h : ReliableState.encodeFunded frame answers = .ok bytes) :
    FrameCodec.encode frame = some bytes := by
  unfold ReliableState.encodeFunded at h
  cases hEncode : FrameCodec.encode frame with
  | none => simp [hEncode] at h
  | some encoded =>
    rw [hEncode] at h
    dsimp only at h
    repeat' split at h
    all_goals first | cases h; rfl | cases h

/-- A submission is refused and changes nothing, or retains one unsent frame under
the next number. -/
theorem submit_cases [FrameCodec P] (state : ReliableState) (channel : String) (payload : P)
    (reply : CallerId) (answers : Funding) :
    (∃ text, state.submit channel payload reply answers = (state, [(reply, .error text)])) ∨
      ∃ bytes, FrameCodec.encode ⟨state.stream, state.nextSeq + 1, channel, payload⟩ =
          some bytes ∧
        state.submit channel payload reply answers =
          ({ state with
              nextSeq := state.nextSeq + 1
              pending := state.pending ++ [⟨state.nextSeq + 1, bytes, false, false, some reply⟩] },
            []) := by
  unfold ReliableState.submit
  cases hSucc : checkedSucc state.nextSeq with
  | none => exact .inl ⟨_, rfl⟩
  | some seq =>
    obtain rfl := eq_succ_of_checkedSucc hSucc
    dsimp only
    cases hEncode : ReliableState.encodeFunded
        ⟨state.stream, state.nextSeq + 1, channel, payload⟩ answers with
    | error text => exact .inl ⟨text, rfl⟩
    | ok bytes => exact .inr ⟨bytes, encode_of_encodeFunded hEncode, rfl⟩

/-- A flush gets nothing, or the first unsent frame after the sweep. -/
theorem nextUnsent_cases (state : ReliableState) (gone : CallerId → Bool) (funded : Bool) :
    state.nextUnsent gone funded =
        (none, (state.releaseAbandoned gone).1, (state.releaseAbandoned gone).2) ∨
      ∃ f, (state.releaseAbandoned gone).1.pending.find? (fun frame => !frame.sent) = some f ∧
        state.nextUnsent gone funded =
          (some ⟨f.seq, f.frame⟩,
            { (state.releaseAbandoned gone).1 with
              pending := updateSeq f.seq (fun f => { f with handedOut := true })
                (state.releaseAbandoned gone).1.pending },
            (state.releaseAbandoned gone).2) := by
  unfold ReliableState.nextUnsent
  dsimp only
  cases hFind : (state.releaseAbandoned gone).1.pending.find? (fun frame => !frame.sent) with
  | none => exact .inl rfl
  | some f =>
    cases funded with
    | false => exact .inl rfl
    | true => exact .inr ⟨f, rfl, rfl⟩

end Operations

/-! ## Runs -/

namespace Sender

variable [FrameCodec P]

def Sound (sender : Sender P) : Prop :=
  ∃ high, StreamInv high sender.handed sender.writing sender.state.nextSeq sender.state.pending

theorem Local.sound {a b : Sender P} (h : a.Sound) (hStep : Local a b) : b.Sound := by
  obtain ⟨high, h⟩ := h
  cases hStep with
  | submit channel payload answers =>
    rcases submit_cases a.state channel payload a.callers answers with
      ⟨text, hSubmit⟩ | ⟨bytes, -, hSubmit⟩
    · refine ⟨high, ?_⟩
      unfold Sender.submit
      rw [hSubmit]
      exact h
    · refine ⟨high, ?_⟩
      unfold Sender.submit
      rw [hSubmit]
      exact h.push bytes a.callers
  | hasUnsent => exact ⟨high, h.releaseAbandoned a.hasGone⟩
  | nextUnsent funded =>
    have hSwept := h.releaseAbandoned a.hasGone
    rcases nextUnsent_cases a.state a.hasGone funded with hNext | ⟨f, hFind, hNext⟩
    · refine ⟨high, ?_⟩
      unfold Sender.nextUnsent
      rw [hNext]
      simpa using hSwept
    · obtain ⟨hf, hUnsent, hFirst⟩ := first_unsent hSwept.increasing hFind
      refine ⟨max high f.seq, ?_⟩
      unfold Sender.nextUnsent
      rw [hNext]
      exact hSwept.handOut hf hUnsent hFirst
  | markSent seq hWriting => exact ⟨high, h.mark hWriting⟩
  | writeFailed seq => exact ⟨high, h.forget seq⟩
  | abandon caller => exact ⟨high, h⟩

omit [FrameCodec P] in
theorem acknowledge_sound {sender : Sender P} (h : sender.Sound) (stream upTo : Nat) :
    (sender.acknowledge stream upTo).Sound := by
  obtain ⟨high, h⟩ := h
  exact ⟨high, h.acknowledge stream upTo⟩

theorem Step.sound (a b : Sender P) (h : a.Sound) (hStep : Step a b) : b.Sound := by
  cases hStep with
  | own hLocal => exact hLocal.sound h
  | acknowledge stream upTo => exact acknowledge_sound h stream upTo

omit [FrameCodec P] in
theorem start_sound (stream : Nat) : (start stream : Sender P).Sound := by
  refine ⟨0, ?_⟩
  constructor <;> simp [start, ReliableState.new] <;> omega

/-- Every reachable sender has a stream without a hole. -/
theorem Reachable.sound {stream : Nat} {sender : Sender P} (h : sender.Reachable stream) :
    sender.Sound :=
  invariant_of_run Step.sound (start_sound stream) h

end Sender

/-- The unsent frames are a block that ends at the last number. -/
theorem StreamInv.unsent_block {high nextSeq : Nat} {handed : List (Nat × List UInt8)}
    {writing : List Nat} {pending : List PendingFrame}
    (h : StreamInv high handed writing nextSeq pending) :
    ∃ low, ∀ n, (∃ f ∈ pending, f.sent = false ∧ f.seq = n) ↔ low ≤ n ∧ n ≤ nextSeq := by
  cases hFind : pending.find? (fun frame => !frame.sent) with
  | none =>
    refine ⟨nextSeq + 1, fun n => ⟨fun hn => ?_, fun hn => by omega⟩⟩
    obtain ⟨f, hf, hUnsent, -⟩ := hn
    have hSent := List.find?_eq_none.mp hFind f hf
    simp [hUnsent] at hSent
  | some f =>
    obtain ⟨hf, hUnsent, hFirst⟩ := first_unsent h.increasing hFind
    refine ⟨f.seq, fun n => ⟨fun hn => ?_, fun hn => ?_⟩⟩
    · obtain ⟨g, hg, hgUnsent, rfl⟩ := hn
      exact ⟨hFirst g hg hgUnsent, (h.range g hg).2⟩
    · obtain ⟨g, hg, hSeq, hgUnsent⟩ := h.block f hf hUnsent n hn.1 hn.2
      exact ⟨g, hg, hgUnsent, hSeq⟩

/-- In every run: the numbers ever handed to a write are `1..k`, each always with
the same bytes; the retained frames increase; the unsent ones are a block that ends
at `nextSeq`; and a submission is refused without a trace or gets `nextSeq + 1`. -/
theorem stream_without_hole [FrameCodec P] {stream : Nat} {sender : Sender P}
    (h : sender.Reachable stream) :
    ∃ k, (∀ n, (∃ bytes, (n, bytes) ∈ sender.handed) ↔ 1 ≤ n ∧ n ≤ k) ∧
      (∀ n bytes bytes', (n, bytes) ∈ sender.handed → (n, bytes') ∈ sender.handed →
        bytes = bytes') ∧
      (sender.state.pending.Pairwise fun f g => f.seq < g.seq) ∧
      (∃ low, ∀ n, (∃ f ∈ sender.state.pending, f.sent = false ∧ f.seq = n) ↔
        low ≤ n ∧ n ≤ sender.state.nextSeq) ∧
      k ≤ sender.state.nextSeq ∧
      ∀ channel (payload : P) answers,
        let result := sender.state.submit channel payload sender.callers answers
        (∃ text, result = (sender.state, [(sender.callers, .error text)])) ∨
          ∃ bytes, result.1 = { sender.state with
            nextSeq := sender.state.nextSeq + 1
            pending := sender.state.pending ++
              [⟨sender.state.nextSeq + 1, bytes, false, false, some sender.callers⟩] } := by
  obtain ⟨k, hInv⟩ := h.sound
  refine ⟨k, hInv.handed_iff, hInv.same, hInv.increasing, hInv.unsent_block, hInv.high_le, ?_⟩
  intro channel payload answers
  rcases submit_cases sender.state channel payload sender.callers answers with
    hRefused | ⟨bytes, -, hSubmit⟩
  · exact .inl hRefused
  · exact .inr ⟨bytes, congrArg Prod.fst hSubmit⟩

/-! A run of two callers: the second gives up before its frame is handed out, so the
next submission gets the number again. -/

/-- Frames of the stream 7 and the channel "chat", as their number. -/
instance sampleCodec : FrameCodec Unit where
  encode frame :=
    if frame.stream = 7 ∧ frame.channel = "chat" ∧ frame.seq < 256 then
      some [UInt8.ofNat frame.seq]
    else none
  decode
    | [byte] => some ⟨7, byte.toNat, "chat", ()⟩
    | _ => none
  decode_encode := by
    intro frame bytes h
    split at h
    · next hFrame =>
        obtain ⟨hStream, hChannel, hSeq⟩ := hFrame
        obtain rfl := Option.some.inj h
        obtain ⟨stream, seq, channel, payload⟩ := frame
        simp only at hStream hChannel hSeq
        subst hStream hChannel
        simp [Nat.mod_eq_of_lt hSeq]
    · cases h

/-- The provider funds everything. -/
def fundedAll : Funding := ⟨none, none, none, none, true⟩

/-- Two submissions, the second abandoned, then one hand-out. -/
def sampleSender : Sender Unit :=
  ((((Sender.start 7).submit "chat" () fundedAll).submit "chat" () fundedAll).abandon 1).nextUnsent
    true

theorem sampleSender_reachable : sampleSender.Reachable 7 :=
  (((Relation.ReflTransGen.single (.own (.submit _ "chat" () fundedAll))).tail
    (.own (.submit _ "chat" () fundedAll))).tail (.own (.abandon _ 1))).tail
    (.own (.nextUnsent _ true))

theorem stream_without_hole_abandoned :
    sampleSender.handed = [(1, [1])] ∧ sampleSender.state.nextSeq = 1 ∧
      ∃ k, (∀ n, (∃ bytes, (n, bytes) ∈ sampleSender.handed) ↔ 1 ≤ n ∧ n ≤ k) ∧
        k ≤ sampleSender.state.nextSeq := by
  obtain ⟨k, hHanded, -, -, -, hLe, -⟩ := stream_without_hole sampleSender_reachable
  exact ⟨by decide, by decide, k, hHanded, hLe⟩

end MyOwnMesh.Reliable
