import MyOwnMesh.Realtime.UnitRun

/-!
# Late copies of emitted units

A copy of a packet whose unit was emitted is dropped once a packet of a later unit has
arrived: its timestamp is older than the current one. Before that the timestamp of the
emitted unit is still the current one, and the copy is held as if it began a unit; the
next unit then finds something unfinished and drops the anchor.
-/

namespace MyOwnMesh.Realtime

open Foundation RealtimeUnitAssembler

/-- The unit of a packet has been emitted. -/
def UnitEmitted (sender : RtpSender) (offset : Int) (steps : List AssemblyStep) (n : Nat) : Prop :=
  ∃ step ∈ steps, ∃ (unit : AssembledUnit) (run : UnitRun), step.result = .ok (some unit) ∧
    step.span = some (run.first + offset, run.last + offset) ∧
    sender.time n = sender.time run.last

/-- `ys` are the arrivals `xs` and further copies of packets of units already emitted, each
padding or of a timestamp that is no longer the current one. -/
inductive WithCopies (sender : RtpSender) (framing : RealtimeUnitFraming) :
    List Nat → List Nat → Prop
  | nil : WithCopies sender framing [] []
  | arrival {xs ys : List Nat} (n : Nat) (h : WithCopies sender framing xs ys) :
      WithCopies sender framing (xs ++ [n]) (ys ++ [n])
  | copy {xs ys : List Nat} (n : Nat) (h : WithCopies sender framing xs ys)
      (hEmitted : UnitEmitted sender (sender.offset ys)
        (steps framing guarded (ys.map sender.packet)) n)
      (hOld : sender.payload n = [] ∨
        sender.stamp n ≠ (after framing guarded (ys.map sender.packet)).timestamp) :
      WithCopies sender framing xs (ys ++ [n])

/-! ## Runs by their last arrival -/

section Snoc

variable {sender : RtpSender} {framing : RealtimeUnitFraming}

theorem windowed_snoc {arrivals : List Nat} {n : Nat} :
    ∀ {seen : List Nat}, sender.Windowed seen (arrivals ++ [n]) →
      sender.Windowed seen arrivals ∧ ∀ newest ∈ sender.newest (seen ++ arrivals),
        sender.payload n = [] ∨ sender.Near newest n := by
  induction arrivals with
  | nil =>
    intro seen h
    rw [List.append_nil]
    exact ⟨trivial, h.1⟩
  | cons m arrivals ih =>
    intro seen h
    obtain ⟨hLater, hLast⟩ := ih h.2
    rw [List.append_assoc] at hLast
    exact ⟨⟨h.1, hLater⟩, hLast⟩

theorem after_snoc (a : RealtimeUnitAssembler) (pkts : List RtpPacket) (pkt : RtpPacket) :
    after framing a (pkts ++ [pkt]) = (push framing .granting (after framing a pkts) pkt).2 := by
  unfold after
  rw [List.foldl_append]
  rfl

theorem steps_snoc (pkts : List RtpPacket) (pkt : RtpPacket) :
    ∀ a : RealtimeUnitAssembler, steps framing a (pkts ++ [pkt]) = steps framing a pkts ++
      [⟨framedSpan framing .granting (after framing a pkts) pkt,
        (push framing .granting (after framing a pkts) pkt).1⟩] := by
  induction pkts with
  | nil => exact fun _ => rfl
  | cons first pkts ih =>
    intro a
    rw [List.cons_append, steps, ih]
    rfl

theorem emittedUnits_snoc (steps : List AssemblyStep) (step : AssemblyStep) :
    emittedUnits (steps ++ [step]) = emittedUnits steps ++ step.result.toOption.join.toList := by
  unfold emittedUnits
  rw [List.filterMap_append]
  cases hUnit : step.result.toOption.join with
  | none => exact congrArg _ (List.filterMap_cons_none hUnit)
  | some unit => exact congrArg _ (List.filterMap_cons_some hUnit)

/-- The offset is settled by the first packet with a payload. -/
theorem offset_snoc {arrivals : List Nat} {n newest : Nat}
    (h : sender.newest arrivals = some newest) :
    sender.offset (arrivals ++ [n]) = sender.offset arrivals := by
  obtain ⟨⟨hMem, hPayload⟩, -⟩ := newest_eq_some.mp h
  have hFound : newest ∈ arrivals.filter fun n => sender.payload n ≠ [] :=
    List.mem_filter.mpr ⟨hMem, decide_eq_true hPayload⟩
  unfold RtpSender.offset
  rw [List.filter_append, List.head?_append_of_ne_nil _ (List.ne_nil_of_mem hFound)]

end Snoc

/-! ## Emitted units lie before the current one -/

section Latest

variable {sender : RtpSender} {framing : RealtimeUnitFraming} {offset : Int}
  {previous next : Option UnitRun} {seen : List Nat} {earlier : List AssemblyStep}
  {step : AssemblyStep}

/-- No emitted unit is later than the last framed run. -/
def Latest (sender : RtpSender) (offset : Int) (previous : Option UnitRun)
    (steps : List AssemblyStep) : Prop :=
  ∀ n, UnitEmitted sender offset steps n →
    ∃ latest, previous = some latest ∧ sender.time n ≤ sender.time latest.last

theorem Stepped.latest (h : Stepped sender framing offset seen previous step next)
    (hLatest : Latest sender offset previous earlier) :
    Latest sender offset next (earlier ++ [step]) := by
  rintro n ⟨emitted, hMem, unit, run, hUnit, hSpan, hTime⟩
  have hOld (hOld : emitted ∈ earlier) :
      ∃ latest, previous = some latest ∧ sender.time n ≤ sender.time latest.last :=
    hLatest n ⟨emitted, hOld, unit, run, hUnit, hSpan, hTime⟩
  cases h with
  | waits =>
    rcases List.mem_append.mp hMem with hBefore | hLast
    · exact hOld hBefore
    · rw [List.mem_singleton.mp hLast] at hSpan
      cases hSpan
  | @frames framed hCovers hFollows =>
    refine ⟨framed, rfl, ?_⟩
    rcases List.mem_append.mp hMem with hBefore | hLast
    · obtain ⟨latest, hLatest, hLe⟩ := hOld hBefore
      exact hLe.trans (Nat.le_of_lt (hFollows.later latest hLatest))
    · rw [List.mem_singleton.mp hLast] at hSpan
      have hLast : (framed.last : Int) + offset = run.last + offset :=
        congrArg Prod.snd (Option.some.inj hSpan)
      have hEq : run.last = framed.last := by omega
      rw [hTime, hEq]

/-- After arrivals near each other the assembler is new, or it is in the invariant and no
emitted unit is later than the last framed run. -/
theorem held_after (arrivals : List Nat) (hWindow : sender.Windowed [] arrivals) :
    ((∀ k ∈ arrivals, sender.payload k = []) ∧
      after framing guarded (arrivals.map sender.packet) = guarded ∧
      ∀ offset, Latest sender offset none
        (steps framing guarded (arrivals.map sender.packet))) ∨
    ∃ previous newest now, Held sender (sender.offset arrivals) arrivals previous newest now
        (after framing guarded (arrivals.map sender.packet)) ∧
      Latest sender (sender.offset arrivals) previous
        (steps framing guarded (arrivals.map sender.packet)) := by
  induction arrivals using List.reverseRecOn with
  | nil =>
    refine .inl ⟨fun k hk => (List.not_mem_nil hk).elim, rfl, ?_⟩
    rintro offset n ⟨step, hStep, -⟩
    exact (List.not_mem_nil hStep).elim
  | append_singleton arrivals n ih =>
    obtain ⟨hBefore, hNear⟩ := windowed_snoc hWindow
    rw [List.nil_append] at hNear
    rw [List.map_append, List.map_singleton, after_snoc, steps_snoc]
    rcases ih hBefore with ⟨hNone, hAfter, hLatest⟩ | ⟨previous, newest, now, hHeld, hLatest⟩
    · rw [hAfter]
      by_cases hPayload : sender.payload n = []
      · obtain ⟨hPush, hSpan⟩ := push_padding guarded hPayload
        rw [hPush, hSpan]
        have hStep (offset : Int) : Stepped sender framing offset arrivals none
            ⟨none, .ok none⟩ none := .waits
        refine .inl ⟨?_, rfl, fun offset => (hStep offset).latest (hLatest offset)⟩
        intro k hk
        rcases List.mem_append.mp hk with hOld | hNew
        · exact hNone k hOld
        · rw [List.mem_singleton.mp hNew, hPayload]
      · rw [offset_append hNone]
        obtain ⟨a', hTaken, hHeld⟩ := takeIn_first hNone hPayload (offset_cons hPayload [])
        obtain ⟨next, now, hNext, hStep⟩ := push_held hTaken hHeld
        exact .inr ⟨next, n, now, hNext, hStep.latest (hLatest _)⟩
    · rw [offset_snoc hHeld.newest_eq]
      obtain ⟨next, newest', now', hNext, hStep⟩ := hHeld.push hNear
      exact .inr ⟨next, newest', now', hNext, hStep.latest hLatest⟩

end Latest

/-! ## Copies -/

section Copies

variable {sender : RtpSender} {framing : RealtimeUnitFraming}

/-- Padding, and a packet that is not later than the current unit and not of its timestamp, is
dropped. -/
theorem push_old {offset : Int} {seen : List Nat} {previous : Option UnitRun}
    {newest now n : Nat} {a : RealtimeUnitAssembler}
    (h : Held sender offset seen previous newest now a)
    (hNear : sender.payload n = [] ∨ sender.Near newest n) (hTime : sender.time n ≤ now)
    (hOld : sender.payload n = [] ∨ sender.stamp n ≠ a.timestamp) :
    push framing .granting a (sender.packet n) = (.ok none, a) := by
  by_cases hPayload : sender.payload n = []
  · exact (push_padding a hPayload).1
  · have hNear := hNear.resolve_left hPayload
    have hStamp := hOld.resolve_left hPayload
    have hLt : sender.time n < now := by
      refine Nat.lt_of_le_of_ne hTime fun hEq => hStamp ?_
      unfold RtpSender.stamp
      rw [hEq, h.stamp]
    have hLe : n ≤ newest := by
      by_contra hGt
      have hAfter := sender.time_le (Nat.le_of_not_le hGt)
      have hNow := h.now_le
      omega
    have hUnwrap : a.unwrapSeq (sender.packet n).sequenceNumber = ((n : Int) + offset, a) := by
      have hMax := h.unwrapSeq hNear
      rwa [Nat.max_eq_left hLe, ← h.lastSeq] at hMax
    have hNewer : newerRtpTs (sender.stamp n) a.timestamp = false := by
      rw [← h.stamp]
      exact newerRtpTs_of_le hTime (h.now_le.trans hNear.2.2)
    have hTaken : takeIn .granting a (sender.packet n) = .refused (.ok none) a := by
      unfold RealtimeUnitAssembler.takeIn
      rw [if_neg (show ¬ (sender.packet n).payload = [] from hPayload), hUnwrap]
      dsimp only
      rw [if_neg (show ¬ (sender.packet n).timestamp = a.timestamp from hStamp), h.lastSeq,
        Option.isNone_some, Bool.false_or,
        if_neg (Bool.eq_false_iff.mp (show newerRtpTs (sender.packet n).timestamp _ = false
          from hNewer))]
    unfold push
    rw [hTaken]

/-- Such a copy does nothing. -/
theorem push_copy {arrivals : List Nat} {n : Nat} (hWindow : sender.Windowed [] (arrivals ++ [n]))
    (hEmitted : UnitEmitted sender (sender.offset arrivals)
      (steps framing guarded (arrivals.map sender.packet)) n)
    (hOld : sender.payload n = [] ∨
      sender.stamp n ≠ (after framing guarded (arrivals.map sender.packet)).timestamp) :
    push framing .granting (after framing guarded (arrivals.map sender.packet))
      (sender.packet n) =
        (.ok none, after framing guarded (arrivals.map sender.packet)) := by
  obtain ⟨hBefore, hNear⟩ := windowed_snoc hWindow
  rcases held_after arrivals hBefore with ⟨-, -, hLatest⟩ | ⟨previous, newest, now, hHeld, hLatest⟩
  · obtain ⟨latest, hNone, -⟩ := hLatest _ n hEmitted
    cases hNone
  · obtain ⟨latest, hSome, hLe⟩ := hLatest n hEmitted
    refine push_old hHeld (hNear newest hHeld.newest_eq) (hLe.trans ?_) hOld
    rcases (hHeld.framed latest hSome).2 with hLt | ⟨hEq, -⟩
    · exact Nat.le_of_lt hLt
    · exact Nat.le_of_eq hEq

/-- **Late copies are harmless** once a later unit has begun: copies of packets of emitted
units leave the emitted units and the assembler as they are. -/
theorem late_copies_harmless {xs ys : List Nat} (h : WithCopies sender framing xs ys)
    (hWindow : sender.Windowed [] ys) :
    emittedUnits (steps framing guarded (ys.map sender.packet)) =
        emittedUnits (steps framing guarded (xs.map sender.packet)) ∧
      after framing guarded (ys.map sender.packet) =
        after framing guarded (xs.map sender.packet) := by
  induction h with
  | nil => exact ⟨rfl, rfl⟩
  | arrival n _ ih =>
    obtain ⟨hUnits, hAfter⟩ := ih (windowed_snoc hWindow).1
    simp only [List.map_append, List.map_singleton, after_snoc, steps_snoc, emittedUnits_snoc]
    rw [hUnits, hAfter]
    exact ⟨rfl, rfl⟩
  | copy n _ hEmitted hOld ih =>
    obtain ⟨hUnits, hAfter⟩ := ih (windowed_snoc hWindow).1
    have hPush := push_copy hWindow hEmitted hOld
    simp only [List.map_append, List.map_singleton, after_snoc, steps_snoc, emittedUnits_snoc]
    rw [hPush]
    exact ⟨(List.append_nil _).trans hUnits, hAfter⟩

end Copies

/-! ## Sample streams -/

section Sample

/-- A unit of one packet and then units of three. -/
def threePacketSender : RtpSender where
  payload n := [0x65, 0x80, BitVec.ofNat 8 n]
  time n := (n + 2) / 3
  marker n := (n + 2) / 3 < (n + 1 + 2) / 3
  firstSequence := 0xffff
  time_mono n := by omega
  marker_iff n := decide_eq_true_iff

/-- A copy of the first packet after one of the next unit. -/
theorem late_copies_harmless_next_unit :
    WithCopies threePacketSender h264Framing [0, 2, 3, 1] [0, 2, 0, 3, 1] ∧
      emittedUnits (steps h264Framing guarded ([0, 2, 0, 3, 1].map threePacketSender.packet)) =
        emittedUnits (steps h264Framing guarded ([0, 2, 3, 1].map threePacketSender.packet)) := by
  have hStart : WithCopies threePacketSender h264Framing [0, 2] [0, 2] :=
    .arrival 2 (.arrival 0 .nil)
  have hEmitted : UnitEmitted threePacketSender (threePacketSender.offset [0, 2])
      (steps h264Framing guarded ([0, 2].map threePacketSender.packet)) 0 :=
    ⟨_, List.mem_cons_self, ⟨0, true, [0, 0, 0, 1, 0x65, 0x80, 0], true⟩, ⟨0, 0⟩,
      by decide +kernel, by decide +kernel, rfl⟩
  have hCopies : WithCopies threePacketSender h264Framing [0, 2, 3, 1] [0, 2, 0, 3, 1] :=
    .arrival 1 (.arrival 3 (.copy 0 hStart hEmitted (by decide +kernel)))
  exact ⟨hCopies, (late_copies_harmless hCopies (by decide)).1⟩

/-- A copy that comes before any packet of the next unit: the anchor is dropped, and of the
next unit only the packets from the first one that arrived are emitted. -/
theorem early_copy_loses_head : ∃ (sender : RtpSender) (before later : List Nat) (n : Nat),
    sender.Windowed [] (before ++ n :: later) ∧
    UnitEmitted sender (sender.offset before)
      (steps h264Framing guarded (before.map sender.packet)) n ∧
    emittedUnits (steps h264Framing (after h264Framing guarded (before.map sender.packet))
        (later.map sender.packet)) =
      [⟨1, true, [0, 0, 0, 1, 0x65, 0x80, 1, 0, 0, 0, 1, 0x65, 0x80, 2, 0, 0, 0, 1, 0x65, 0x80, 3],
        true⟩] ∧
    emittedUnits (steps h264Framing (after h264Framing guarded ((before ++ [n]).map sender.packet))
        (later.map sender.packet)) =
      [⟨1, true, [0, 0, 0, 1, 0x65, 0x80, 2, 0, 0, 0, 1, 0x65, 0x80, 3], true⟩] := by
  refine ⟨threePacketSender, [0], [2, 3, 1], 0, by decide, ?_, by decide +kernel, by decide +kernel⟩
  exact ⟨_, List.mem_cons_self, ⟨0, true, [0, 0, 0, 1, 0x65, 0x80, 0], true⟩, ⟨0, 0⟩,
    by decide +kernel, by decide +kernel, rfl⟩

end Sample

end MyOwnMesh.Realtime
