import MyOwnMesh.Realtime.UnitAssembly
import Mathlib.Algebra.Order.Ring.Nat
import Mathlib.Data.List.Range

/-!
# Streams through the unit assembler

A sender numbers its packets and gives all packets of a unit one timestamp. The packets
arrive in any order, some of them never and some several times, each of them near the
newest one so far. The assembler then only frames contiguous runs of one unit up to its
marker, in the order of the stream; each begins after the run framed before it, or at a
payload that starts a unit.

The true time of a unit is unbounded and the header carries it modulo `2 ^ 32`. Packets of
two units can carry the same timestamp, but two adjacent packets that do are of one unit:
the arrivals leave no gap of half the range.
-/

namespace MyOwnMesh.Realtime

open Foundation

/-! ## Senders -/

/-- The packets of a stream in the order of their numbers. A unit ends where the time
grows, and its last packet has the marker. -/
structure RtpSender where
  payload : Nat → Payload
  time : Nat → Nat
  marker : Nat → Bool
  firstSequence : BitVec 16
  time_mono : ∀ n, time n ≤ time (n + 1)
  marker_iff : ∀ n, marker n = true ↔ time n < time (n + 1)

/-- The packets of a unit, from the first to the last. -/
structure UnitRun where
  first : Nat
  last : Nat

namespace RtpSender

variable (sender : RtpSender)

def sequence (n : Nat) : BitVec 16 := sender.firstSequence + BitVec.ofNat 16 n

def stamp (n : Nat) : BitVec 32 := BitVec.ofNat 32 (sender.time n)

/-- The packet with number `n`, as it is sent. -/
def packet (n : Nat) : RtpPacket :=
  { sequenceNumber := sender.sequence n
    timestamp := sender.stamp n
    marker := sender.marker n
    payload := sender.payload n }

theorem time_le {m n : Nat} (h : m ≤ n) : sender.time m ≤ sender.time n := by
  induction h with
  | refl => exact Nat.le_refl _
  | step _ ih => exact ih.trans (sender.time_mono _)

/-- The newest of some packets, those without a payload apart. -/
def newest (seen : List Nat) : Option Nat :=
  (seen.filter fun n => sender.payload n ≠ []).max?

/-- The assembler numbers the packets from the raw number of the first one it sees. -/
def offset (arrivals : List Nat) : Int :=
  match (arrivals.filter fun n => sender.payload n ≠ []).head? with
  | some n => (sender.sequence n).toNat - n
  | none => 0

/-- Within 32767 sequence numbers and half the range of the timestamps. -/
def Near (newest n : Nat) : Prop :=
  (n ≤ newest + 32767 ∧ newest ≤ n + 32767) ∧
    sender.time n ≤ sender.time newest + 2 ^ 31 ∧ sender.time newest ≤ sender.time n + 2 ^ 31

instance (newest n : Nat) : Decidable (sender.Near newest n) :=
  inferInstanceAs (Decidable (_ ∧ _))

/-- Every arrival is near the newest one so far. -/
def Windowed : List Nat → List Nat → Prop
  | _, [] => True
  | seen, n :: later =>
    (∀ newest ∈ sender.newest seen, sender.payload n = [] ∨ sender.Near newest n) ∧
      Windowed (seen ++ [n]) later

instance decidableWindowed : ∀ seen arrivals, Decidable (sender.Windowed seen arrivals)
  | _, [] => inferInstanceAs (Decidable True)
  | seen, n :: later =>
    have := decidableWindowed (seen ++ [n]) later
    inferInstanceAs (Decidable (_ ∧ _))

/-- The run consists of received packets of one unit and ends with its marker. -/
structure Covers (seen : List Nat) (run : UnitRun) : Prop where
  le : run.first ≤ run.last
  received : ∀ k, run.first ≤ k → k ≤ run.last → k ∈ seen
  one_unit : ∀ k, run.first ≤ k → k ≤ run.last → sender.time k = sender.time run.last
  marker : sender.marker run.last = true

theorem Covers.mono {sender : RtpSender} {seen later : List Nat} {run : UnitRun}
    (h : sender.Covers seen run) (hSeen : ∀ k ∈ seen, k ∈ later) : sender.Covers later run :=
  { h with received := fun k hFirst hLast => hSeen k (h.received k hFirst hLast) }

/-- The fragments of a run, in sequence order. -/
def fragments (offset : Int) (run : UnitRun) : UnitFragments where
  entries := (List.range' run.first (run.last + 1 - run.first)).map fun k : Nat =>
    ((k : Int) + offset, sender.payload k)
  ordered := by
    rw [List.pairwise_map]
    exact (List.pairwise_lt_range' _).imp fun hLt => by dsimp only; omega

end RtpSender

/-- What the framing makes of the fragments of a unit. -/
def frameUnit (framing : RealtimeUnitFraming) (timestamp : BitVec 32)
    (fragments : UnitFragments) : Except UnitError (Option AssembledUnit) := do
  let framedLen ← framing.framedLen fragments
  let data ← framing.writeFramed fragments framedLen
  if data = [] then pure none
  else
    pure (some
      { rtpTimestamp := timestamp
        entryPoint := framing.isEntryPoint data
        data := data
        output := framedLen ≠ 0 })

/-- A run that may be framed after `previous`: it begins right after it or at a payload
that starts a unit, and it is of a later unit. -/
structure Follows (sender : RtpSender) (framing : RealtimeUnitFraming)
    (previous : Option UnitRun) (run : UnitRun) : Prop where
  start : (∃ earlier, previous = some earlier ∧ run.first = earlier.last + 1) ∨
    framing.payloadStartsUnit (sender.payload run.first) = true
  later : ∀ earlier, previous = some earlier → sender.time earlier.last < sender.time run.last

/-- The steps are accounted for: each returns nothing, or frames a run of the packets
received so far that follows the one framed before it. -/
inductive Accounted (sender : RtpSender) (framing : RealtimeUnitFraming) (offset : Int) :
    List Nat → Option UnitRun → List Nat → List AssemblyStep → Prop
  | done {seen : List Nat} {previous : Option UnitRun} :
      Accounted sender framing offset seen previous [] []
  | waits {seen arrivals : List Nat} {previous : Option UnitRun} {n : Nat}
      {steps : List AssemblyStep}
      (later : Accounted sender framing offset (seen ++ [n]) previous arrivals steps) :
      Accounted sender framing offset seen previous (n :: arrivals) (⟨none, .ok none⟩ :: steps)
  | frames {seen arrivals : List Nat} {previous : Option UnitRun} {n : Nat}
      {steps : List AssemblyStep} {run : UnitRun} (hCovers : sender.Covers (seen ++ [n]) run)
      (hFollows : Follows sender framing previous run)
      (later : Accounted sender framing offset (seen ++ [n]) (some run) arrivals steps) :
      Accounted sender framing offset seen previous (n :: arrivals)
        (⟨some (run.first + offset, run.last + offset),
          frameUnit framing (sender.stamp run.last) (sender.fragments offset run)⟩ :: steps)

/-! ## Numbers and times -/

section Arithmetic

variable (sender : RtpSender)

/-- A raw sequence number is unwrapped against a near one. -/
theorem sequence_delta {m n : Nat} (h : m ≤ n + 32767) (h' : n ≤ m + 32767) :
    (sender.sequence m - sender.sequence n).toInt = (m : Int) - n := by
  have hSub : sender.sequence m - sender.sequence n = BitVec.ofNat 16 m - BitVec.ofNat 16 n := by
    unfold RtpSender.sequence
    bv_omega
  rw [hSub, BitVec.toInt_sub, BitVec.toInt_ofNat', BitVec.toInt_ofNat', Int.bmod_sub_bmod,
    Int.sub_bmod_bmod]
  exact Int.bmod_eq_of_le (by omega) (by omega)

theorem stamp_eq_iff {t u : Nat} :
    BitVec.ofNat 32 t = BitVec.ofNat 32 u ↔ t % 2 ^ 32 = u % 2 ^ 32 := by
  rw [← BitVec.toNat_inj, BitVec.toNat_ofNat, BitVec.toNat_ofNat]

/-- A newer timestamp is of a later time, if its packet is not too old. -/
theorem lt_of_newerRtpTs {t u : Nat}
    (h : newerRtpTs (BitVec.ofNat 32 t) (BitVec.ofNat 32 u) = true) (hNear : u ≤ t + 2 ^ 31) :
    u < t := by
  unfold newerRtpTs at h
  rw [decide_eq_true_iff, BitVec.toNat_sub, BitVec.toNat_ofNat, BitVec.toNat_ofNat, Ne,
    stamp_eq_iff] at h
  omega

/-- An earlier time is not newer, if it is not too old. -/
theorem newerRtpTs_of_le {t u : Nat} (h : t ≤ u) (hNear : u ≤ t + 2 ^ 31) :
    newerRtpTs (BitVec.ofNat 32 t) (BitVec.ofNat 32 u) = false := by
  by_contra hNewer
  have hLt := lt_of_newerRtpTs (Bool.not_eq_false _ ▸ hNewer) hNear
  omega

/-- Equal timestamps of a packet that is not too old are of a time not earlier. -/
theorem le_of_stamp_eq {t u : Nat} (h : BitVec.ofNat 32 t = BitVec.ofNat 32 u)
    (hNear : u ≤ t + 2 ^ 31) : u ≤ t := by
  rw [stamp_eq_iff] at h
  omega

end Arithmetic

/-! ## Filled spans -/

section Filled

variable {entries : List (Int × Payload)}

/-- Different cursors of a span are at most as many as its positions. -/
theorem length_le_of_ordered (hOrdered : entries.Pairwise fun a b => a.1 < b.1) :
    ∀ {first last : Int}, (∀ entry ∈ entries, first ≤ entry.1 ∧ entry.1 ≤ last) →
      entries.length ≤ (last - first + 1).toNat := by
  induction entries with
  | nil => exact fun _ => Nat.zero_le _
  | cons entry entries ih =>
    intro first last hSpan
    have hHead := hSpan entry List.mem_cons_self
    obtain ⟨hLt, hRest⟩ := List.pairwise_cons.mp hOrdered
    have hLength := ih hRest (fun e he => ⟨show entry.1 + 1 ≤ e.1 from hLt e he,
      (hSpan e (List.mem_cons_of_mem _ he)).2⟩)
    rw [List.length_cons]
    omega

/-- As many cursors as positions fill the span. -/
theorem mem_of_filled (hOrdered : entries.Pairwise fun a b => a.1 < b.1) :
    ∀ {first last : Int}, (∀ entry ∈ entries, first ≤ entry.1 ∧ entry.1 ≤ last) →
      (last - first + 1).toNat ≤ entries.length →
      ∀ k, first ≤ k → k ≤ last → ∃ entry ∈ entries, entry.1 = k := by
  induction entries with
  | nil =>
    intro first last _ hLength k hFirst hLast
    rw [List.length_nil] at hLength
    omega
  | cons entry entries ih =>
    intro first last hSpan hLength k hFirst hLast
    have hHead := hSpan entry List.mem_cons_self
    obtain ⟨hLt, hRest⟩ := List.pairwise_cons.mp hOrdered
    have hTail : ∀ e ∈ entries, entry.1 + 1 ≤ e.1 ∧ e.1 ≤ last := fun e he =>
      ⟨hLt e he, (hSpan e (List.mem_cons_of_mem _ he)).2⟩
    have hBound := length_le_of_ordered hRest hTail
    rw [List.length_cons] at hLength
    by_cases hEq : entry.1 = k
    · exact ⟨entry, List.mem_cons_self, hEq⟩
    · obtain ⟨e, he, hKey⟩ := ih hRest hTail (by omega) k (by omega) hLast
      exact ⟨e, List.mem_cons_of_mem _ he, hKey⟩

theorem mem_new {parts : OrdMap Int Payload} {first last : Int} {entry : Int × Payload} :
    entry ∈ (UnitFragments.new parts first last).entries ↔
      parts[entry.1]? = some entry.2 ∧ first ≤ entry.1 ∧ entry.1 ≤ last := by
  unfold UnitFragments.new
  rw [List.mem_filter, decide_eq_true_iff, Std.ExtTreeMap.mem_toList_iff_getElem?_eq_some]

/-- Fragments with the same entries are the same. -/
theorem fragments_eq_of_mem_iff {a b : UnitFragments}
    (h : ∀ entry, entry ∈ a.entries ↔ entry ∈ b.entries) : a = b := by
  have : Std.Antisymm fun a b : Int × Payload => a.1 < b.1 :=
    ⟨fun a b hab hba => absurd (Int.lt_trans hab hba) (Int.lt_irrefl _)⟩
  have : Std.Irrefl fun a b : Int × Payload => a.1 < b.1 := ⟨fun a => Int.lt_irrefl _⟩
  exact UnitFragments.ext (List.Pairwise.eq_of_mem_iff a.ordered b.ordered h)

theorem mem_fragments {sender : RtpSender} {offset : Int} {run : UnitRun}
    {entry : Int × Payload} :
    entry ∈ (sender.fragments offset run).entries ↔ ∃ k : Nat, run.first ≤ k ∧ k ≤ run.last ∧
      entry = ((k : Int) + offset, sender.payload k) := by
  unfold RtpSender.fragments
  rw [List.mem_map]
  constructor
  · rintro ⟨k, hk, rfl⟩
    rw [List.mem_range'_1] at hk
    exact ⟨k, hk.1, by omega, rfl⟩
  · rintro ⟨k, hFirst, hLast, rfl⟩
    exact ⟨k, List.mem_range'_1.mpr ⟨hFirst, by omega⟩, rfl⟩

end Filled

/-! ## Arrivals -/

section Arrivals

variable {sender : RtpSender} {seen : List Nat} {n newest : Nat}

/-- Between two packets that were received the time does not jump. -/
def RtpSender.Gapless (sender : RtpSender) (seen : List Nat) : Prop :=
  ∀ k x y, x ∈ seen → sender.payload x ≠ [] → y ∈ seen → sender.payload y ≠ [] → x ≤ k → k < y →
    sender.time (k + 1) ≤ sender.time k + 2 ^ 31

theorem newest_eq_some :
    sender.newest seen = some newest ↔ (newest ∈ seen ∧ sender.payload newest ≠ []) ∧
      ∀ k ∈ seen, sender.payload k ≠ [] → k ≤ newest := by
  unfold RtpSender.newest
  rw [List.max?_eq_some_iff, List.mem_filter, decide_eq_true_iff]
  simp only [List.mem_filter, decide_eq_true_eq, and_imp]

theorem newest_eq_none : sender.newest seen = none ↔ ∀ k ∈ seen, sender.payload k = [] := by
  unfold RtpSender.newest
  rw [List.max?_eq_none_iff, List.filter_eq_nil_iff]
  simp

theorem newest_snoc (h : sender.newest seen = some newest) (hPayload : sender.payload n ≠ []) :
    sender.newest (seen ++ [n]) = some (max newest n) := by
  obtain ⟨⟨hMem, hNonempty⟩, hMax⟩ := newest_eq_some.mp h
  refine newest_eq_some.mpr ⟨?_, fun k hk hkPayload => ?_⟩
  · rcases Nat.le_total newest n with hLe | hLe
    · rw [Nat.max_eq_right hLe]
      exact ⟨List.mem_append_right _ (List.mem_singleton_self n), hPayload⟩
    · rw [Nat.max_eq_left hLe]
      exact ⟨List.mem_append_left _ hMem, hNonempty⟩
  · rcases List.mem_append.mp hk with hOld | hNew
    · exact (hMax k hOld hkPayload).trans (Nat.le_max_left _ _)
    · rw [List.mem_singleton.mp hNew]
      exact Nat.le_max_right _ _

/-- A packet without a payload is not counted. -/
theorem newest_snoc_nil (hPayload : sender.payload n = []) :
    sender.newest (seen ++ [n]) = sender.newest seen := by
  unfold RtpSender.newest
  have hNone : [n].filter (fun n => sender.payload n ≠ []) = [] := by simp [hPayload]
  rw [List.filter_append, hNone, List.append_nil]

/-- Packets without a payload do not settle the offset. -/
theorem offset_append (hSeen : ∀ k ∈ seen, sender.payload k = []) (later : List Nat) :
    sender.offset (seen ++ later) = sender.offset later := by
  unfold RtpSender.offset
  have hNone : seen.filter (fun n => sender.payload n ≠ []) = [] := by
    rw [List.filter_eq_nil_iff]
    simpa using hSeen
  rw [List.filter_append, hNone, List.nil_append]

/-- The first packet with a payload does. -/
theorem offset_cons (hPayload : sender.payload n ≠ []) (later : List Nat) :
    ((sender.sequence n).toNat : Int) = n + sender.offset (n :: later) := by
  unfold RtpSender.offset
  rw [List.filter_cons_of_pos (by simpa using hPayload), List.head?_cons]
  dsimp only
  omega

/-- A near arrival leaves no gap. -/
theorem gapless_snoc (h : sender.Gapless seen)
    (hNear : ∀ newest ∈ sender.newest seen, sender.payload n = [] ∨ sender.Near newest n) :
    sender.Gapless (seen ++ [n]) := by
  intro k x y hx hxPayload hy hyPayload hxk hky
  have hTime := sender.time_le hxk
  have hTime' := sender.time_le (show k + 1 ≤ y from hky)
  cases hNewest : sender.newest seen with
  | none =>
    -- Then the new packet is the only one, and lies on one side of the cut.
    rw [newest_eq_none] at hNewest
    have hOnly : ∀ z ∈ seen ++ [n], sender.payload z ≠ [] → z = n := by
      intro z hz hzPayload
      rcases List.mem_append.mp hz with hOld | hNew
      · exact absurd (hNewest z hOld) hzPayload
      · exact List.mem_singleton.mp hNew
    have hxn := hOnly x hx hxPayload
    have hyn := hOnly y hy hyPayload
    omega
  | some newest =>
    obtain ⟨⟨hMem, hNonempty⟩, hMax⟩ := newest_eq_some.mp hNewest
    have hNearNewest := hNear newest hNewest
    by_cases hOld : ∃ x' ∈ seen, sender.payload x' ≠ [] ∧ x' ≤ k
    · obtain ⟨x', hx', hx'Payload, hx'k⟩ := hOld
      by_cases hOld' : ∃ y' ∈ seen, sender.payload y' ≠ [] ∧ k < y'
      · obtain ⟨y', hy', hy'Payload, hky'⟩ := hOld'
        exact h k x' y' hx' hx'Payload hy' hy'Payload hx'k hky'
      · -- The new packet is the first one after the cut, the newest one lies before it.
        have hyn : y = n := by
          rcases List.mem_append.mp hy with hOldY | hNewY
          · exact absurd ⟨y, hOldY, hyPayload, hky⟩ hOld'
          · exact List.mem_singleton.mp hNewY
        have hNewestLe : newest ≤ k := by
          by_contra hGt
          exact hOld' ⟨newest, hMem, hNonempty, by omega⟩
        have hBefore := sender.time_le hNewestLe
        rcases hNearNewest with hNil | hNear
        · exact absurd hNil (hyn ▸ hyPayload)
        · have hBound := hNear.2.1
          rw [hyn] at hTime'
          omega
    · -- The new packet is the first one before the cut, the newest one lies after it.
      have hxn : x = n := by
        rcases List.mem_append.mp hx with hOldX | hNewX
        · exact absurd ⟨x, hOldX, hxPayload, hxk⟩ hOld
        · exact List.mem_singleton.mp hNewX
      have hNewestGt : k + 1 ≤ newest := by
        by_contra hLe
        exact hOld ⟨newest, hMem, hNonempty, by omega⟩
      have hAfter := sender.time_le hNewestGt
      rcases hNearNewest with hNil | hNear
      · exact absurd hNil (hxn ▸ hxPayload)
      · have hBound := hNear.2.2
        rw [hxn] at hTime
        omega

end Arrivals

end MyOwnMesh.Realtime
