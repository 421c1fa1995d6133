import MyOwnMesh.Realtime.H264
import MyOwnMesh.Realtime.UnitStream

/-!
# What the unit assembler emits

`Held` is what the assembler knows of the stream: its numbers are those of the packets
shifted by one offset, what it holds are packets of the current timestamp and of a time
that is not earlier than the current one, and its anchor is the marker of the last framed
unit. The invariant is kept by each arrival, and it makes every complete span a run of
one unit that follows the last one.
-/

namespace MyOwnMesh.Realtime

open Foundation RealtimeUnitAssembler

/-- What an assembler that has seen some packets holds. `now` is the time of the current
unit, `previous` the last framed run. -/
structure Held (sender : RtpSender) (offset : Int) (seen : List Nat) (previous : Option UnitRun)
    (newest now : Nat) (a : RealtimeUnitAssembler) : Prop where
  newest_eq : sender.newest seen = some newest
  gapless : sender.Gapless seen
  lastSeq : a.lastSeq = some (sender.sequence newest, newest + offset)
  stamp : BitVec.ofNat 32 now = a.timestamp
  now_le : now ≤ sender.time newest
  parts : ∀ (seq : Int) (p : Payload), a.parts[seq]? = some p → ∃ k : Nat, k ∈ seen ∧
    sender.payload k ≠ [] ∧ seq = k + offset ∧ p = sender.payload k ∧
      sender.stamp k = a.timestamp ∧ now ≤ sender.time k
  marker : ∀ seq, a.markerSeq = some seq → ∃ k : Nat, seq = k + offset ∧ sender.marker k = true
  anchor : ∀ seq, a.prevEnd = some seq → ∃ run, previous = some run ∧ seq = run.last + offset
  framed : ∀ run, previous = some run → sender.marker run.last = true ∧
    (sender.time run.last < now ∨
      sender.time run.last = now ∧ a.prevEnd = some (run.last + offset))

section Complete

variable {sender : RtpSender} {offset : Int} {seen : List Nat} {previous : Option UnitRun}
  {newest now : Nat} {a : RealtimeUnitAssembler} {framing : RealtimeUnitFraming}

/-- Two adjacent packets that are held are of one unit. -/
theorem Held.adjacent (h : Held sender offset seen previous newest now a) {k : Nat}
    {p q : Payload} (hk : a.parts[(k : Int) + offset]? = some p)
    (hNext : a.parts[((k + 1 : Nat) : Int) + offset]? = some q) :
    sender.time k = sender.time (k + 1) := by
  obtain ⟨i, hi, hiPayload, hiEq, -, hiStamp, -⟩ := h.parts _ _ hk
  obtain ⟨j, hj, hjPayload, hjEq, -, hjStamp, -⟩ := h.parts _ _ hNext
  have hik : i = k := by omega
  have hjk : j = k + 1 := by omega
  rw [hik] at hi hiPayload hiStamp
  rw [hjk] at hj hjPayload hjStamp
  have hGap := h.gapless k k (k + 1) hi hiPayload hj hjPayload (Nat.le_refl k) (Nat.lt_succ_self k)
  have hMono := sender.time_mono k
  have hMod := stamp_eq_iff.mp (hiStamp.trans hjStamp.symm)
  omega

variable {first last : Int}

/-- A complete span is the span of a run: where it starts, and that it is all held. -/
theorem completeSpan_eq_some (h : completeSpan framing a = some (first, last)) :
    a.markerSeq = some last ∧ expectedStart framing a = some first ∧ first ≤ last ∧
      ∀ k, first ≤ k → k ≤ last → ∃ p, a.parts[k]? = some p := by
  unfold completeSpan at h
  cases hMarker : a.markerSeq with
  | none =>
    rw [hMarker] at h
    cases h
  | some m =>
    cases hStart : expectedStart framing a with
    | none =>
      rw [hMarker, hStart] at h
      cases h
    | some s =>
      rw [hMarker, hStart] at h
      dsimp only at h
      by_cases hLt : m < s
      · rw [if_pos hLt] at h
        cases h
      · rw [if_neg hLt] at h
        by_cases hHole : (UnitFragments.new a.parts s m).entries.length < (m - s + 1).toNat
        · rw [if_pos hHole] at h
          cases h
        · rw [if_neg hHole] at h
          cases h
          refine ⟨rfl, rfl, by omega, fun k hFirst hLast => ?_⟩
          obtain ⟨entry, hEntry, rfl⟩ := mem_of_filled
            (UnitFragments.new a.parts first last).ordered
            (fun e he => (mem_new.mp he).2) (Nat.not_lt.mp hHole) k hFirst hLast
          exact ⟨entry.2, (mem_new.mp hEntry).1⟩

/-- The expected start is after the last framed run, or at a payload that starts a unit. -/
theorem Held.expectedStart (h : Held sender offset seen previous newest now a)
    (hStart : expectedStart framing a = some first) :
    ∃ i : Nat, first = i + offset ∧
      ((∃ earlier, previous = some earlier ∧ i = earlier.last + 1) ∨
        (a.prevEnd = none ∧ framing.payloadStartsUnit (sender.payload i) = true)) := by
  unfold RealtimeUnitAssembler.expectedStart at hStart
  cases hPrev : a.prevEnd with
  | some p =>
    rw [hPrev] at hStart
    obtain ⟨run, hRun, hp⟩ := h.anchor p hPrev
    refine ⟨run.last + 1, ?_, .inl ⟨run, hRun, rfl⟩⟩
    rw [← Option.some.inj hStart, hp]
    omega
  | none =>
    rw [hPrev] at hStart
    cases hHead : a.parts.toList.head? with
    | none =>
      rw [hHead] at hStart
      cases hStart
    | some entry =>
      obtain ⟨lo, p⟩ := entry
      rw [hHead] at hStart
      dsimp only at hStart
      have hGet : a.parts[lo]? = some p :=
        Std.ExtTreeMap.mem_toList_iff_getElem?_eq_some.mp (List.mem_of_mem_head? hHead)
      obtain ⟨k, -, -, hlo, hp, -, -⟩ := h.parts lo p hGet
      by_cases hStarts : framing.payloadStartsUnit p = true
      · rw [if_pos hStarts] at hStart
        refine ⟨k, ?_, .inr ⟨rfl, hp ▸ hStarts⟩⟩
        rw [← Option.some.inj hStart, hlo]
      · rw [if_neg hStarts] at hStart
        cases hStart

/-- The packets of a span that is held from `i` through `j` are of one unit. -/
theorem Held.one_unit (h : Held sender offset seen previous newest now a) {i j : Nat}
    (hHeld : ∀ k : Nat, i ≤ k → k ≤ j → ∃ p, a.parts[(k : Int) + offset]? = some p) :
    ∀ k, i ≤ k → k ≤ j → sender.time k = sender.time j := by
  intro k hik hkj
  induction hLeft : j - k generalizing k with
  | zero =>
    have hEq : k = j := by omega
    rw [hEq]
  | succ left ih =>
    obtain ⟨p, hp⟩ := hHeld k hik hkj
    obtain ⟨q, hq⟩ := hHeld (k + 1) (by omega) (by omega)
    rw [h.adjacent hp hq]
    exact ih (k + 1) (by omega) (by omega) (by omega)

/-- **A complete span is a run that follows the last framed one.** -/
theorem Held.complete (h : Held sender offset seen previous newest now a)
    (hSpan : completeSpan framing a = some (first, last)) :
    ∃ run : UnitRun, (first, last) = ((run.first : Int) + offset, (run.last : Int) + offset) ∧
      sender.Covers seen run ∧ Follows sender framing previous run ∧
      UnitFragments.new a.parts first last = sender.fragments offset run ∧
      sender.stamp run.last = a.timestamp ∧
      Held sender offset seen (some run) newest (sender.time run.last) (a.consumed last) := by
  obtain ⟨hMarker, hStart, hLe, hFilled⟩ := completeSpan_eq_some hSpan
  obtain ⟨j, rfl, hEnd⟩ := h.marker last hMarker
  obtain ⟨i, rfl, hFollows⟩ := h.expectedStart hStart
  have hHeld : ∀ k : Nat, i ≤ k → k ≤ j → ∃ p, a.parts[(k : Int) + offset]? = some p :=
    fun k hik hkj => hFilled _ (by omega) (by omega)
  have hPart : ∀ k : Nat, i ≤ k → k ≤ j → k ∈ seen ∧ sender.payload k ≠ [] ∧
      a.parts[(k : Int) + offset]? = some (sender.payload k) ∧ sender.stamp k = a.timestamp ∧
      now ≤ sender.time k := by
    intro k hik hkj
    obtain ⟨p, hp⟩ := hHeld k hik hkj
    obtain ⟨k', hSeen, hPayload, hEq, rfl, hStamp, hNow⟩ := h.parts _ _ hp
    have hk : k' = k := by omega
    rw [hk] at hSeen hPayload hStamp hNow hp
    exact ⟨hSeen, hPayload, hp, hStamp, hNow⟩
  have hij : i ≤ j := by omega
  have hOne := h.one_unit hHeld
  obtain ⟨hSeen, hPayload, -, hStamp, hNow⟩ := hPart j hij (Nat.le_refl j)
  have hNewest : sender.time j ≤ sender.time newest :=
    sender.time_le ((newest_eq_some.mp h.newest_eq).2 j hSeen hPayload)
  refine ⟨⟨i, j⟩, rfl, ⟨hij, fun k hik hkj => (hPart k hik hkj).1, hOne, hEnd⟩, ⟨?_, ?_⟩, ?_,
    hStamp, ?_⟩
  · exact hFollows.imp id And.right
  · -- The next packet after a marker is of a later time; without the anchor the time has moved on.
    intro earlier hEarlier
    obtain ⟨hLastMarker, hBefore⟩ := h.framed earlier hEarlier
    have hFirst := hOne i (Nat.le_refl i) hij
    rcases hFollows with ⟨earlier', hEarlier', hi⟩ | ⟨hNone, -⟩
    · have hEq : earlier' = earlier := Option.some.inj (hEarlier'.symm.trans hEarlier)
      have hGrows := (sender.marker_iff earlier.last).mp hLastMarker
      rw [hEq] at hi
      change i = earlier.last + 1 at hi
      rw [← hi, hFirst] at hGrows
      exact hGrows
    · rcases hBefore with hLt | ⟨-, hAnchor⟩
      · exact hLt.trans_le hNow
      · rw [hNone] at hAnchor
        cases hAnchor
  · refine fragments_eq_of_mem_iff fun entry => ?_
    rw [mem_new, mem_fragments]
    constructor
    · rintro ⟨hGet, hFirst, hLast⟩
      obtain ⟨k, -, -, hk, hp, -, -⟩ := h.parts _ _ hGet
      exact ⟨k, by dsimp only; omega, by dsimp only; omega, Prod.ext hk hp⟩
    · rintro ⟨k, hik, hkj, rfl⟩
      exact ⟨(hPart k hik hkj).2.2.1, by dsimp only at hik ⊢; omega, by dsimp only at hkj ⊢; omega⟩
  · refine ⟨h.newest_eq, h.gapless, h.lastSeq, hStamp, hNewest, ?_, ?_, ?_, ?_⟩
    · intro seq p hGet
      rw [show (a.consumed ((j : Int) + offset)).parts = ∅ from rfl,
        Std.ExtTreeMap.getElem?_empty] at hGet
      cases hGet
    · intro seq hSeq
      cases hSeq
    · intro seq hSeq
      exact ⟨_, rfl, (Option.some.inj hSeq).symm⟩
    · intro run hRun
      rw [← Option.some.inj hRun]
      exact ⟨hEnd, .inr ⟨rfl, rfl⟩⟩

end Complete

/-! ## Arrivals -/

section Arrive

variable {sender : RtpSender} {offset : Int} {seen : List Nat} {previous : Option UnitRun}
  {newest now n : Nat} {a : RealtimeUnitAssembler}

/-- More packets seen, and a newer newest one. -/
theorem Held.more (h : Held sender offset seen previous newest now a) {later : List Nat}
    {newer : Nat} {a' : RealtimeUnitAssembler}
    (hSeen : ∀ k ∈ seen, k ∈ later) (hNewest : sender.newest later = some newer)
    (hGapless : sender.Gapless later) (hNewer : newest ≤ newer)
    (hState : a' = { a with lastSeq := some (sender.sequence newer, newer + offset) }) :
    Held sender offset later previous newer now a' := by
  subst hState
  refine ⟨hNewest, hGapless, rfl, h.stamp, h.now_le.trans (sender.time_le hNewer), ?_, h.marker,
    h.anchor, h.framed⟩
  intro seq p hGet
  obtain ⟨k, hk, hRest⟩ := h.parts seq p hGet
  exact ⟨k, hSeen k hk, hRest⟩

/-- A near packet is unwrapped to its number, and the anchor advances to the newest. -/
theorem Held.unwrapSeq (h : Held sender offset seen previous newest now a)
    (hNear : sender.Near newest n) :
    a.unwrapSeq (sender.sequence n) = ((n : Int) + offset,
      { a with
        lastSeq := some (sender.sequence (max newest n), ((max newest n : Nat) : Int) + offset) }) := by
  have hDelta := sequence_delta sender hNear.1.1 hNear.1.2
  unfold RealtimeUnitAssembler.unwrapSeq
  rw [h.lastSeq]
  dsimp only
  rw [hDelta]
  have hSeq : (newest : Int) + offset + ((n : Int) - newest) = n + offset := by omega
  rw [hSeq]
  by_cases hNew : newest < n
  · rw [if_pos (by omega), Nat.max_eq_right (Nat.le_of_lt hNew)]
  · rw [if_neg (by omega), Nat.max_eq_left (Nat.le_of_not_lt hNew), ← h.lastSeq]

/-- Holding a packet of the current timestamp. -/
theorem Held.collect (h : Held sender offset seen previous newest now a) (hSeen : n ∈ seen)
    (hPayload : sender.payload n ≠ []) (hStamp : sender.stamp n = a.timestamp)
    (hNow : now ≤ sender.time n) :
    ∃ a', collect .granting a ((n : Int) + offset) (sender.packet n) = .held a' ∧
      Held sender offset seen previous newest now a' := by
  have hMark {b : RealtimeUnitAssembler} (hb : Held sender offset seen previous newest now b) :
      Held sender offset seen previous newest now
        (b.noteMarker ((n : Int) + offset) (sender.packet n).marker) := by
    unfold noteMarker
    by_cases hMarker : (sender.packet n).marker = true
    · rw [if_pos hMarker]
      exact { hb with
        marker := fun seq hSeq => ⟨n, (Option.some.inj hSeq).symm, hMarker⟩ }
    · rw [if_neg hMarker]
      exact hb
  unfold RealtimeUnitAssembler.collect
  by_cases hContains : a.parts.contains ((n : Int) + offset) = true
  · rw [if_pos hContains]
    exact ⟨_, rfl, hMark h⟩
  · rw [if_neg hContains, if_neg (by decide), if_neg (by rintro ⟨-, hRefused⟩; exact hRefused rfl),
      if_neg (by decide)]
    refine ⟨_, rfl, hMark { h with parts := ?_ }⟩
    intro seq p hGet
    change (a.parts.insert ((n : Int) + offset) (sender.payload n))[seq]? = some p at hGet
    rw [getElem?_insert_eq] at hGet
    by_cases hEq : (n : Int) + offset = seq
    · rw [if_pos hEq] at hGet
      exact ⟨n, hSeen, hPayload, hEq.symm, (Option.some.inj hGet).symm, hStamp, hNow⟩
    · rw [if_neg hEq] at hGet
      exact h.parts seq p hGet

/-- The unit of a later time begins. -/
theorem Held.beginTimestamp (h : Held sender offset seen previous newest now a)
    (hLater : now < sender.time n) (hLe : sender.time n ≤ sender.time newest) :
    Held sender offset seen previous newest (sender.time n)
      (a.beginTimestamp (sender.stamp n)) := by
  refine ⟨h.newest_eq, h.gapless, h.lastSeq, rfl, hLe, ?_, ?_, ?_, ?_⟩
  · intro seq p hGet
    rw [show (a.beginTimestamp (sender.stamp n)).parts = ∅ from rfl,
      Std.ExtTreeMap.getElem?_empty] at hGet
    cases hGet
  · intro seq hSeq
    cases hSeq
  · intro seq hSeq
    change (if a.parts.isEmpty then a.prevEnd else none) = some seq at hSeq
    by_cases hEmpty : a.parts.isEmpty = true
    · rw [if_pos hEmpty] at hSeq
      exact h.anchor seq hSeq
    · rw [if_neg hEmpty] at hSeq
      cases hSeq
  · intro run hRun
    obtain ⟨hMarker, hBefore⟩ := h.framed run hRun
    refine ⟨hMarker, .inl ?_⟩
    rcases hBefore with hLt | ⟨hEq, -⟩
    · exact hLt.trans hLater
    · rwa [hEq]

/-- **Every arrival keeps the invariant**, up to the look for a complete unit. -/
theorem Held.takeIn (h : Held sender offset seen previous newest now a)
    (hNear : ∀ newest ∈ sender.newest seen, sender.payload n = [] ∨ sender.Near newest n) :
    (∃ a' newest' now', takeIn .granting a (sender.packet n) = .held a' ∧
      Held sender offset (seen ++ [n]) previous newest' now' a') ∨
    (∃ a' newest', takeIn .granting a (sender.packet n) = .refused (.ok none) a' ∧
      Held sender offset (seen ++ [n]) previous newest' now a') := by
  have hGapless := gapless_snoc h.gapless hNear
  have hSeen : ∀ k ∈ seen, k ∈ seen ++ [n] := fun k hk => List.mem_append_left _ hk
  unfold RealtimeUnitAssembler.takeIn
  by_cases hPayload : sender.payload n = []
  · rw [if_pos (show (sender.packet n).payload = [] from hPayload)]
    refine .inr ⟨_, newest, rfl, h.more hSeen ?_ hGapless (Nat.le_refl _) ?_⟩
    · rw [newest_snoc_nil hPayload, h.newest_eq]
    · rw [← h.lastSeq]
  · rw [if_neg (show ¬ (sender.packet n).payload = [] from hPayload)]
    have hNear := (hNear newest h.newest_eq).resolve_left hPayload
    have hOld : now ≤ sender.time n + 2 ^ 31 := h.now_le.trans hNear.2.2
    have hUnwrap : a.unwrapSeq (sender.packet n).sequenceNumber = _ := h.unwrapSeq hNear
    have hMore := h.more hSeen (newest_snoc h.newest_eq hPayload) hGapless (Nat.le_max_left _ n) rfl
    have hMem : n ∈ seen ++ [n] := List.mem_append_right _ (List.mem_singleton_self n)
    rw [hUnwrap]
    dsimp only
    by_cases hStamp : (sender.packet n).timestamp = a.timestamp
    · rw [if_pos hStamp]
      have hNow : now ≤ sender.time n := le_of_stamp_eq (hStamp.trans h.stamp.symm) hOld
      obtain ⟨a', hCollect, hHeld⟩ := hMore.collect hMem hPayload hStamp hNow
      exact .inl ⟨a', _, now, hCollect, hHeld⟩
    · rw [if_neg hStamp, h.lastSeq, Option.isNone_some, Bool.false_or]
      by_cases hNewer : newerRtpTs (sender.packet n).timestamp a.timestamp = true
      · rw [if_pos hNewer]
        have hLater : now < sender.time n := by
          rw [← h.stamp] at hNewer
          exact lt_of_newerRtpTs hNewer hOld
        have hBegun := hMore.beginTimestamp hLater (sender.time_le (Nat.le_max_right newest n))
        obtain ⟨a', hCollect, hHeld⟩ := hBegun.collect hMem hPayload rfl (Nat.le_refl _)
        exact .inl ⟨a', _, _, hCollect, hHeld⟩
      · rw [if_neg hNewer]
        exact .inr ⟨_, _, rfl, hMore⟩

end Arrive

/-! ## Runs -/

section Run

variable {sender : RtpSender} {offset : Int} {framing : RealtimeUnitFraming}

/-- With a flow that refuses nothing, a complete unit is framed and consumed. -/
theorem emitSpan_granting (framing : RealtimeUnitFraming) (a : RealtimeUnitAssembler)
    (first last : Int) :
    emitSpan framing .granting a first last =
      (frameUnit framing a.timestamp (UnitFragments.new a.parts first last), a.consumed last) := by
  unfold emitSpan frameUnit
  cases framing.framedLen (UnitFragments.new a.parts first last) with
  | error e => rfl
  | ok framedLen =>
    dsimp only
    rw [if_neg (fun hRefused => hRefused.2 rfl)]
    cases hData : framing.writeFramed (UnitFragments.new a.parts first last) framedLen with
    | error e =>
      rw [except_bind_of_ok rfl, except_bind_of_error hData]
    | ok data =>
      rw [except_bind_of_ok rfl, except_bind_of_ok hData]
      dsimp only
      split <;> rfl

/-- What one push does: it returns nothing, or frames a run that follows the last one. -/
inductive Stepped (sender : RtpSender) (framing : RealtimeUnitFraming) (offset : Int)
    (seen : List Nat) (previous : Option UnitRun) : AssemblyStep → Option UnitRun → Prop
  | waits : Stepped sender framing offset seen previous ⟨none, .ok none⟩ previous
  | frames {run : UnitRun} (hCovers : sender.Covers seen run)
      (hFollows : Follows sender framing previous run) :
      Stepped sender framing offset seen previous
        ⟨some (run.first + offset, run.last + offset),
          frameUnit framing (sender.stamp run.last) (sender.fragments offset run)⟩ (some run)

variable {seen : List Nat} {previous : Option UnitRun}

variable {n newest now : Nat}

theorem Stepped.accounted {arrivals : List Nat} {next : Option UnitRun} {step : AssemblyStep}
    {steps : List AssemblyStep} (h : Stepped sender framing offset (seen ++ [n]) previous step next)
    (hLater : Accounted sender framing offset (seen ++ [n]) next arrivals steps) :
    Accounted sender framing offset seen previous (n :: arrivals) (step :: steps) := by
  cases h with
  | waits => exact .waits hLater
  | frames hCovers hFollows => exact .frames hCovers hFollows hLater

variable {a : RealtimeUnitAssembler}

/-- A push that holds its packet frames the unit it completes, if any. -/
theorem push_held {a' : RealtimeUnitAssembler} {pkt : RtpPacket}
    (hTaken : takeIn .granting a pkt = .held a')
    (hHeld : Held sender offset seen previous newest now a') :
    ∃ next now', Held sender offset seen next newest now' (push framing .granting a pkt).2 ∧
      Stepped sender framing offset seen previous
        ⟨framedSpan framing .granting a pkt, (push framing .granting a pkt).1⟩ next := by
  unfold framedSpan push
  rw [hTaken]
  dsimp only
  unfold tryEmit
  cases hSpan : completeSpan framing a' with
  | none => exact ⟨previous, now, hHeld, .waits⟩
  | some span =>
    obtain ⟨first, last⟩ := span
    obtain ⟨run, hEq, hCovers, hFollows, hFragments, hStamp, hNext⟩ := hHeld.complete hSpan
    dsimp only
    rw [emitSpan_granting, hFragments, hEq, ← hStamp]
    exact ⟨_, _, hNext, .frames hCovers hFollows⟩

/-- A packet without a payload is skipped. -/
theorem push_padding (a : RealtimeUnitAssembler) (hPayload : sender.payload n = []) :
    push framing .granting a (sender.packet n) = (.ok none, a) ∧
      framedSpan framing .granting a (sender.packet n) = none := by
  have hTaken : takeIn .granting a (sender.packet n) = .refused (.ok none) a := if_pos hPayload
  unfold framedSpan push
  rw [hTaken]
  exact ⟨rfl, rfl⟩

/-- **Every push keeps the invariant** and frames at most a run that follows the last one. -/
theorem Held.push (h : Held sender offset seen previous newest now a)
    (hNear : ∀ newest ∈ sender.newest seen, sender.payload n = [] ∨ sender.Near newest n) :
    ∃ next newest' now', Held sender offset (seen ++ [n]) next newest' now'
        (push framing .granting a (sender.packet n)).2 ∧
      Stepped sender framing offset (seen ++ [n]) previous
        ⟨framedSpan framing .granting a (sender.packet n),
          (push framing .granting a (sender.packet n)).1⟩ next := by
  rcases h.takeIn hNear with ⟨a', newest', now', hTaken, hHeld⟩ | ⟨a', newest', hTaken, hHeld⟩
  · obtain ⟨next, now'', hNext, hStep⟩ := push_held hTaken hHeld
    exact ⟨next, newest', now'', hNext, hStep⟩
  · unfold framedSpan RealtimeUnitAssembler.push
    rw [hTaken]
    exact ⟨previous, newest', now, hHeld, .waits⟩

/-- Every run of arrivals near each other is accounted for. -/
theorem accounted (later : List Nat) :
    ∀ {seen : List Nat} {previous : Option UnitRun} {newest now : Nat}
      {a : RealtimeUnitAssembler}, Held sender offset seen previous newest now a →
      sender.Windowed seen later →
      Accounted sender framing offset seen previous later
        (steps framing a (later.map sender.packet)) := by
  induction later with
  | nil => exact fun _ _ => .done
  | cons n later ih =>
    intro seen previous newest now a h hWindow
    obtain ⟨next, newest', now', hNext, hStep⟩ := h.push hWindow.1
    exact hStep.accounted (ih hNext hWindow.2)

/-- The state of an assembler that is about to hold its first packet. -/
theorem held_first (hSeen : ∀ k ∈ seen, sender.payload k = []) (hPayload : sender.payload n ≠ [])
    (hParts : a.parts = ∅) (hMarker : a.markerSeq = none) (hPrev : a.prevEnd = none)
    (hStamp : a.timestamp = sender.stamp n)
    (hLast : a.lastSeq = some (sender.sequence n, n + offset)) :
    Held sender offset (seen ++ [n]) none n (sender.time n) a := by
  have hOnly : ∀ k ∈ seen ++ [n], sender.payload k ≠ [] → k = n := by
    intro k hk hkPayload
    rcases List.mem_append.mp hk with hOld | hNew
    · exact absurd (hSeen k hOld) hkPayload
    · exact List.mem_singleton.mp hNew
  refine ⟨?_, ?_, hLast, hStamp.symm, Nat.le_refl _, ?_, ?_, ?_, ?_⟩
  · refine newest_eq_some.mpr ⟨⟨List.mem_append_right _ (List.mem_singleton_self n), hPayload⟩, ?_⟩
    exact fun k hk hkPayload => Nat.le_of_eq (hOnly k hk hkPayload)
  · intro k x y hx hxPayload hy hyPayload hxk hky
    have hxn := hOnly x hx hxPayload
    have hyn := hOnly y hy hyPayload
    omega
  · intro seq p hGet
    rw [hParts, Std.ExtTreeMap.getElem?_empty] at hGet
    cases hGet
  · intro seq hSeq
    rw [hMarker] at hSeq
    cases hSeq
  · intro seq hSeq
    rw [hPrev] at hSeq
    cases hSeq
  · intro run hRun
    cases hRun

/-- The first packet with a payload is held, whatever its timestamp. -/
theorem takeIn_first (hSeen : ∀ k ∈ seen, sender.payload k = []) (hPayload : sender.payload n ≠ [])
    (hOffset : ((sender.sequence n).toNat : Int) = n + offset) :
    ∃ a', takeIn .granting guarded (sender.packet n) = .held a' ∧
      Held sender offset (seen ++ [n]) none n (sender.time n) a' := by
  have hMem : n ∈ seen ++ [n] := List.mem_append_right _ (List.mem_singleton_self n)
  unfold RealtimeUnitAssembler.takeIn
  rw [if_neg (show ¬ (sender.packet n).payload = [] from hPayload)]
  have hUnwrap : guarded.unwrapSeq (sender.packet n).sequenceNumber = ((n : Int) + offset,
      { guarded with lastSeq := some (sender.sequence n, (n : Int) + offset) }) := by
    rw [← hOffset]
    rfl
  rw [hUnwrap]
  dsimp only
  by_cases hStamp : (sender.packet n).timestamp = guarded.timestamp
  · rw [if_pos hStamp]
    have hFirst : Held sender offset (seen ++ [n]) none n (sender.time n)
        { guarded with lastSeq := some (sender.sequence n, (n : Int) + offset) } :=
      held_first hSeen hPayload rfl rfl rfl hStamp.symm rfl
    exact hFirst.collect hMem hPayload hStamp (Nat.le_refl _)
  · rw [if_neg hStamp, if_pos (show (guarded.lastSeq.isNone || _) = true from rfl)]
    exact (held_first hSeen hPayload rfl rfl rfl rfl rfl).collect hMem hPayload rfl (Nat.le_refl _)

/-- A new assembler is accounted for from the first packet with a payload on. -/
theorem accounted_start (later : List Nat) :
    ∀ {seen : List Nat}, (∀ k ∈ seen, sender.payload k = []) → sender.Windowed seen later →
      Accounted sender framing (sender.offset later) seen none later
        (steps framing guarded (later.map sender.packet)) := by
  induction later with
  | nil => exact fun _ _ => .done
  | cons n later ih =>
    intro seen hSeen hWindow
    by_cases hPayload : sender.payload n = []
    · have hSeen' : ∀ k ∈ seen ++ [n], sender.payload k = [] := by
        intro k hk
        rcases List.mem_append.mp hk with hOld | hNew
        · exact hSeen k hOld
        · rw [List.mem_singleton.mp hNew, hPayload]
      have hOffset : sender.offset (n :: later) = sender.offset later :=
        offset_append (fun k hk => hSeen' k (List.mem_append_right _ hk)) later
      rw [hOffset]
      obtain ⟨hPush, hSpan⟩ := push_padding guarded hPayload
      rw [List.map_cons, steps, hPush, hSpan]
      exact .waits (ih hSeen' hWindow.2)
    · obtain ⟨a', hTaken, hHeld⟩ := takeIn_first hSeen hPayload (offset_cons hPayload later)
      obtain ⟨next, now, hNext, hStep⟩ := push_held hTaken hHeld
      exact hStep.accounted (accounted later hNext hWindow.2)

/-! ### The emitted units -/

theorem frameUnit_eq_ok {timestamp : BitVec 32} {fragments : UnitFragments}
    {unit : AssembledUnit}
    (h : (frameUnit framing timestamp fragments).toOption.join = some unit) :
    frameUnit framing timestamp fragments = .ok (some unit) ∧ unit.rtpTimestamp = timestamp := by
  have hUnit : frameUnit framing timestamp fragments = .ok (some unit) := by
    cases hFrame : frameUnit framing timestamp fragments with
    | error e =>
      rw [hFrame] at h
      cases h
    | ok framed =>
      rw [hFrame] at h
      exact congrArg Except.ok h
  refine ⟨hUnit, ?_⟩
  obtain ⟨framedLen, -, hWrite⟩ := except_bind_eq_ok.mp hUnit
  obtain ⟨data, -, hData⟩ := except_bind_eq_ok.mp hWrite
  by_cases hEmpty : data = []
  · rw [if_pos hEmpty] at hData
    cases hData
  · rw [if_neg hEmpty] at hData
    cases hData
    rfl

/-- The unit is what the framing makes of the run, with the timestamp of the run. -/
def IsUnitOf (sender : RtpSender) (framing : RealtimeUnitFraming) (offset : Int)
    (unit : AssembledUnit) (run : UnitRun) : Prop :=
  frameUnit framing (sender.stamp run.last) (sender.fragments offset run) = .ok (some unit) ∧
    unit.rtpTimestamp = sender.stamp run.last

/-- The units emitted are those of runs of increasing times, all later than the run framed
before. -/
theorem Accounted.emitted {arrivals : List Nat} {steps : List AssemblyStep}
    (h : Accounted sender framing offset seen previous arrivals steps) :
    ∃ runs : List UnitRun, runs.Pairwise (sender.time ·.last < sender.time ·.last) ∧
      (∀ run ∈ runs, sender.Covers (seen ++ arrivals) run ∧
        ∀ earlier, previous = some earlier → sender.time earlier.last < sender.time run.last) ∧
      List.Forall₂ (IsUnitOf sender framing offset) (emittedUnits steps) runs := by
  induction h with
  | done => exact ⟨[], .nil, (fun run hRun => by cases hRun), .nil⟩
  | @waits seen arrivals previous n steps _ ih =>
    rw [List.append_assoc] at ih
    exact ih
  | @frames seen arrivals previous n steps run hCovers hFollows _ ih =>
    obtain ⟨runs, hOrdered, hRuns, hUnits⟩ := ih
    rw [List.append_assoc] at hRuns
    have hLater : ∀ next ∈ runs, sender.time run.last < sender.time next.last :=
      fun next hNext => (hRuns next hNext).2 run rfl
    have hAll : ∀ next ∈ runs, sender.Covers (seen ++ n :: arrivals) next ∧
        ∀ earlier, previous = some earlier → sender.time earlier.last < sender.time next.last :=
      fun next hNext => ⟨(hRuns next hNext).1, fun earlier hEarlier =>
        (hFollows.later earlier hEarlier).trans (hLater next hNext)⟩
    cases hUnit : (frameUnit framing (sender.stamp run.last)
        (sender.fragments offset run)).toOption.join with
    | none =>
      refine ⟨runs, hOrdered, hAll, ?_⟩
      unfold emittedUnits
      rw [List.filterMap_cons_none (f := fun step : AssemblyStep => step.result.toOption.join) hUnit]
      exact hUnits
    | some unit =>
      refine ⟨run :: runs, List.pairwise_cons.mpr ⟨hLater, hOrdered⟩, ?_, ?_⟩
      · intro next hNext
        rcases List.mem_cons.mp hNext with rfl | hRest
        · refine ⟨hCovers.mono fun k hk => ?_, hFollows.later⟩
          rw [← List.singleton_append, ← List.append_assoc]
          exact List.mem_append_left _ hk
        · exact hAll next hRest
      · unfold emittedUnits
        rw [List.filterMap_cons_some (f := fun step : AssemblyStep => step.result.toOption.join) hUnit]
        exact .cons (frameUnit_eq_ok hUnit) hUnits

/-- **RTP unit assembly.** For arrivals near each other and a flow that refuses nothing,
every push frames a contiguous run of received packets of one unit, up to its marker, that
begins right after the run framed before it or at a payload that starts a unit; and the
units emitted are those of runs whose times strictly increase. -/
theorem emitted_units_are_runs (sender : RtpSender) (framing : RealtimeUnitFraming)
    {arrivals : List Nat} (hWindow : sender.Windowed [] arrivals) :
    Accounted sender framing (sender.offset arrivals) [] none arrivals
      (steps framing guarded (arrivals.map sender.packet)) ∧
    ∃ runs : List UnitRun, runs.Pairwise (sender.time ·.last < sender.time ·.last) ∧
      (∀ run ∈ runs, sender.Covers arrivals run) ∧
      List.Forall₂ (IsUnitOf sender framing (sender.offset arrivals))
        (emittedUnits (steps framing guarded (arrivals.map sender.packet))) runs := by
  have hAccounted : Accounted sender framing (sender.offset arrivals) [] none arrivals
      (steps framing guarded (arrivals.map sender.packet)) :=
    accounted_start arrivals (fun k hk => by cases hk) hWindow
  obtain ⟨runs, hOrdered, hRuns, hUnits⟩ := hAccounted.emitted
  exact ⟨hAccounted, runs, hOrdered, fun run hRun => (hRuns run hRun).1, hUnits⟩

end Run

/-! ## Sample streams -/

section Sample

/-- Every packet is a unit of its own. -/
def packetSender (payload : Nat → Payload) : RtpSender where
  payload := payload
  time n := n
  marker _ := true
  firstSequence := 0xffff
  time_mono n := Nat.le_succ n
  marker_iff n := by simp

/-- A slice, a packet that H.264 framing refuses, and the end of a fragmented slice. -/
def refusedBetween : RtpSender :=
  packetSender fun n => [[0x65, 0x88, 0x80], [0x7d, 0x85, 0, 0, 1], [0x7c, 0x45, 1]].getD n []

/-- A slice, and the end of a fragmented slice one more than `2 ^ 16` packets of padding later. -/
def paddedBetween : RtpSender :=
  packetSender fun n =>
    if n = 0 then [0x65, 0x88, 0x80] else if n = 65537 then [0x7c, 0x45, 1] else []

/-- Out of order, with a copy, and across the wrap of the sequence numbers. -/
theorem emitted_units_are_runs_reordered :
    refusedBetween.Windowed [] [0, 1, 0, 2] ∧
      ∃ runs : List UnitRun, runs.length = 2 ∧
        runs.Pairwise (refusedBetween.time ·.last < refusedBetween.time ·.last) ∧
        ∀ run ∈ runs, refusedBetween.Covers [0, 1, 0, 2] run := by
  have hWindow : refusedBetween.Windowed [] [0, 1, 0, 2] := by decide
  obtain ⟨-, runs, hOrdered, hRuns, hUnits⟩ :=
    emitted_units_are_runs refusedBetween h264Framing hWindow
  have hTwo : (emittedUnits (steps h264Framing guarded
      ([0, 1, 0, 2].map refusedBetween.packet))).length = 2 := by decide +kernel
  exact ⟨hWindow, runs, hUnits.length_eq ▸ hTwo, hOrdered, hRuns⟩

/-- Two units are emitted, the second neither after the first nor at a payload that starts one. -/
def Misanchored (sender : RtpSender) (arrivals : List Nat) : Prop :=
  ∃ first second : AssembledUnit,
    emittedUnits (steps h264Framing guarded (arrivals.map sender.packet)) = [first, second] ∧
    ∀ earlier run : UnitRun,
      sender.Covers arrivals earlier → sender.stamp earlier.last = first.rtpTimestamp →
      sender.Covers arrivals run → sender.stamp run.last = second.rtpTimestamp →
      run.first ≠ earlier.last + 1 ∧
        h264Framing.payloadStartsUnit (sender.payload run.first) = false

/-- For units of one packet it is enough to look at the packets that were received. -/
theorem misanchored_of_packets {payload : Nat → Payload} {arrivals : List Nat}
    (first second : AssembledUnit)
    (hUnits : emittedUnits (steps h264Framing guarded
      (arrivals.map (packetSender payload).packet)) = [first, second])
    (hApart : ∀ m ∈ arrivals, BitVec.ofNat 32 m = first.rtpTimestamp → ∀ n ∈ arrivals,
      BitVec.ofNat 32 n = second.rtpTimestamp →
        n ≠ m + 1 ∧ h264Framing.payloadStartsUnit (payload n) = false) :
    Misanchored (packetSender payload) arrivals := by
  refine ⟨first, second, hUnits, fun earlier run hEarlier hFirst hRun hSecond => ?_⟩
  have hOne : run.first = run.last := hRun.one_unit run.first (Nat.le_refl _) hRun.le
  rw [hOne]
  exact hApart earlier.last (hEarlier.received _ hEarlier.le (Nat.le_refl _)) hFirst run.last
    (hRun.received _ hRun.le (Nat.le_refl _)) hSecond

/-- A unit that the framing refuses is consumed too: the unit after it is emitted without a
start of its own, although the last emitted unit is not the one before it. And padding is
skipped before its number is unwrapped: behind enough of it a packet is taken for the next one,
although each arrival is near the newest one when padding counts. -/
theorem unit_emitted_after_refused :
    (∃ sender arrivals, sender.Windowed [] arrivals ∧ Misanchored sender arrivals) ∧
    ∃ sender arrivals, { sender with payload := fun _ => [0] }.Windowed [] arrivals ∧
      Misanchored sender arrivals := by
  refine ⟨⟨refusedBetween, [0, 1, 2], by decide, misanchored_of_packets
      ⟨0, true, [0, 0, 0, 1, 0x65, 0x88, 0x80], true⟩ ⟨2, true, [0, 0, 0, 1, 0x65, 1], true⟩
      (by decide +kernel) (by decide +kernel)⟩,
    paddedBetween, [0, 32767, 65534, 65537], by decide +kernel, misanchored_of_packets
      ⟨0, true, [0, 0, 0, 1, 0x65, 0x88, 0x80], true⟩ ⟨65537, true, [0, 0, 0, 1, 0x65, 1], true⟩
      (by decide +kernel) (by decide +kernel)⟩

end Sample

end MyOwnMesh.Realtime
