import MyOwnMesh.Foundation.Transition
import Mathlib.Algebra.BigOperators.Group.List.Basic
import Mathlib.Data.List.Nodup
import Mathlib.Data.List.Perm.Basic

/-!
# Observation reports

A tree of observation scopes measures resource use. An observation is begun,
measured anew and finished at its own scope and at every ancestor, one scope after
the other and each under the lock of that scope, so calls of different leases
interleave between scopes. A scope keeps for each family the active and the
completed totals, the peak, and the oldest start of a live lease with the number of
leases that share it; when the last of these finishes, the next oldest start is
unknown and the family says so.

`Tracks` says what a family state stands for. Each section under a lock moves one
lease and keeps it, so it holds at every scope between any two sections.
-/

namespace MyOwnMesh.Resource

open Foundation

/-! ## Measurements -/

def counterMax : Nat := 2 ^ 64 - 1

/-- The nanoseconds of the longest duration. -/
def durationMax : Nat := counterMax * 1000000000 + 999999999

/-- What a measurement counts. -/
inductive UseDimension where
  | items
  | logicalBytes
  | retainedBytes
  | tasks
deriving DecidableEq

instance {p : UseDimension → Prop} [DecidablePred p] : Decidable (∀ d, p d) :=
  decidable_of_iff (p .items ∧ p .logicalBytes ∧ p .retainedBytes ∧ p .tasks)
    ⟨fun ⟨h1, h2, h3, h4⟩ d => match d with
      | .items => h1
      | .logicalBytes => h2
      | .retainedBytes => h3
      | .tasks => h4,
    fun h => ⟨h _, h _, h _, h _⟩⟩

/-- An observed quantity, one `u64` in each dimension. -/
abbrev ResourceUse := UseDimension → Nat

namespace ResourceUse

def zero : ResourceUse := fun _ => 0

def checkedAdd (a b : ResourceUse) : Option ResourceUse :=
  if ∀ d, a d + b d ≤ counterMax then some fun d => a d + b d else none

def saturatingAdd (a b : ResourceUse) : ResourceUse := fun d => min (a d + b d) counterMax

def checkedSub (a b : ResourceUse) : Option ResourceUse :=
  if ∀ d, b d ≤ a d then some fun d => a d - b d else none

def saturatingSub (a b : ResourceUse) : ResourceUse := fun d => a d - b d

def componentwiseMax (a b : ResourceUse) : ResourceUse := fun d => max (a d) (b d)

theorem checkedAdd_eq {a b : ResourceUse} (h : ∀ d, a d + b d ≤ counterMax) :
    a.checkedAdd b = some fun d => a d + b d := if_pos h

theorem checkedSub_eq {a b : ResourceUse} (h : ∀ d, b d ≤ a d) :
    a.checkedSub b = some fun d => a d - b d := if_pos h

end ResourceUse

/-- A measurement, and whether its producer could measure exactly. -/
structure ResourceMeasurement where
  observed : ResourceUse
  inexact : Bool

/-! ## One family of one scope -/

/-- What is recorded of one family of leases. -/
structure FamilyState where
  active : ResourceUse
  peakActive : ResourceUse
  activeLeaseCount : Nat
  peakActiveLeaseCount : Nat
  oldestActiveStartedAt : Option Nat
  oldestActiveStartCount : Nat
  oldestActiveLifetimeInexact : Bool
  completedLeaseCount : Nat
  completedTotalUse : ResourceUse
  completedTotalLifetime : Nat
  measurementInexact : Bool

namespace FamilyState

def default : FamilyState where
  active := .zero
  peakActive := .zero
  activeLeaseCount := 0
  peakActiveLeaseCount := 0
  oldestActiveStartedAt := none
  oldestActiveStartCount := 0
  oldestActiveLifetimeInexact := false
  completedLeaseCount := 0
  completedTotalUse := .zero
  completedTotalLifetime := 0
  measurementInexact := false

/-- Replace a quantity by a checked result, or by a saturated one that is marked. -/
def checkedUse (st : FamilyState) (checked : Option ResourceUse) (saturated : ResourceUse)
    (set : FamilyState → ResourceUse → FamilyState) : FamilyState :=
  match checked with
  | some next => set st next
  | none => set { st with measurementInexact := true } saturated

/-- Replace a count by its successor, or mark it saturated. -/
def checkedCount (st : FamilyState) (count : Nat) (set : FamilyState → Nat → FamilyState) :
    FamilyState :=
  if count < counterMax then set st (count + 1)
  else set { st with measurementInexact := true } counterMax

/-- Replace a count by its predecessor, or mark it saturated. -/
def checkedDiscount (st : FamilyState) (count : Nat) (set : FamilyState → Nat → FamilyState) :
    FamilyState :=
  if count = 0 then set { st with measurementInexact := true } 0 else set st (count - 1)

def addActive (st : FamilyState) (observed : ResourceUse) : FamilyState :=
  st.checkedUse (st.active.checkedAdd observed) (st.active.saturatingAdd observed)
    fun st active => { st with active }

def subActive (st : FamilyState) (observed : ResourceUse) : FamilyState :=
  st.checkedUse (st.active.checkedSub observed) (st.active.saturatingSub observed)
    fun st active => { st with active }

def raisePeak (st : FamilyState) : FamilyState :=
  { st with peakActive := st.peakActive.componentwiseMax st.active }

/-- Update the oldest start and how many leases share it. -/
def noteStart (st : FamilyState) (wasEmpty : Bool) (startedAt : Nat) : FamilyState :=
  if wasEmpty then
    { st with
      oldestActiveStartedAt := some startedAt
      oldestActiveStartCount := 1
      oldestActiveLifetimeInexact := false }
  else
    match st.oldestActiveStartedAt with
    | none => st
    | some oldest =>
      if startedAt < oldest then
        { st with oldestActiveStartedAt := some startedAt, oldestActiveStartCount := 1 }
      else if startedAt = oldest then
        st.checkedCount st.oldestActiveStartCount
          fun st oldestActiveStartCount => { st with oldestActiveStartCount }
      else st

/-- A lease of the family becomes active. -/
def begin (st : FamilyState) (observed : ResourceUse) (startedAt : Nat) : FamilyState :=
  let wasEmpty := st.activeLeaseCount == 0
  let st := st.addActive observed
  let st := st.checkedCount st.activeLeaseCount
    fun st activeLeaseCount => { st with activeLeaseCount }
  let st := st.raisePeak
  let st := { st with
    peakActiveLeaseCount := max st.peakActiveLeaseCount st.activeLeaseCount }
  st.noteStart wasEmpty startedAt

/-- Replace the measured quantity of a live observation. -/
def replace (st : FamilyState) (previous observed : ResourceUse) : FamilyState :=
  ((st.subActive previous).addActive observed).raisePeak

/-- Note that a lease with this start has finished. -/
def noteFinish (st : FamilyState) (startedAt : Nat) : FamilyState :=
  if st.oldestActiveStartedAt = some startedAt then
    let st := st.checkedDiscount st.oldestActiveStartCount
      fun st oldestActiveStartCount => { st with oldestActiveStartCount }
    if st.oldestActiveStartCount = 0 then
      { st with
        oldestActiveStartedAt := none
        -- The next oldest start is not retained.
        oldestActiveLifetimeInexact :=
          if st.activeLeaseCount ≠ 0 then true else st.oldestActiveLifetimeInexact }
    else st
  else if st.oldestActiveStartedAt.isNone ∧ st.activeLeaseCount = 0 then
    { st with oldestActiveStartCount := 0, oldestActiveLifetimeInexact := false }
  else st

/-- Add a finished lease to the completed totals. -/
def complete (st : FamilyState) (observed : ResourceUse) (lifetime : Nat) : FamilyState :=
  let st := st.checkedCount st.completedLeaseCount
    fun st completedLeaseCount => { st with completedLeaseCount }
  let st := st.checkedUse (st.completedTotalUse.checkedAdd observed)
    (st.completedTotalUse.saturatingAdd observed)
    fun st completedTotalUse => { st with completedTotalUse }
  if st.completedTotalLifetime + lifetime ≤ durationMax then
    { st with completedTotalLifetime := st.completedTotalLifetime + lifetime }
  else { st with measurementInexact := true, completedTotalLifetime := durationMax }

/-- An active lease ends and its lifetime is counted. -/
def finish (st : FamilyState) (observed : ResourceUse) (startedAt lifetime : Nat) :
    FamilyState :=
  let st := st.subActive observed
  let st := st.checkedDiscount st.activeLeaseCount
    fun st activeLeaseCount => { st with activeLeaseCount }
  (st.noteFinish startedAt).complete observed lifetime

end FamilyState

/-- What a report shows of one family. -/
structure ResourceFamilyReport where
  active : ResourceUse
  peakActive : ResourceUse
  activeLeaseCount : Nat
  peakActiveLeaseCount : Nat
  oldestActiveLifetime : Option Nat
  oldestActiveLifetimeInexact : Bool
  completedLeaseCount : Nat
  completedTotalUse : ResourceUse
  completedTotalLifetime : Nat
  measurementInexact : Bool

/-- The report of a family; an age saturates at zero. -/
def FamilyState.snapshot (st : FamilyState) (scopeInexact : Bool) (now : Nat) :
    ResourceFamilyReport where
  active := st.active
  peakActive := st.peakActive
  activeLeaseCount := st.activeLeaseCount
  peakActiveLeaseCount := st.peakActiveLeaseCount
  oldestActiveLifetime := st.oldestActiveStartedAt.map (now - ·)
  oldestActiveLifetimeInexact := st.oldestActiveLifetimeInexact
  completedLeaseCount := st.completedLeaseCount
  completedTotalUse := st.completedTotalUse
  completedTotalLifetime := st.completedTotalLifetime
  measurementInexact := scopeInexact || st.measurementInexact

/-! ## What a family state stands for -/

/-- A live lease at some scope: its start and its current measurement. -/
structure LiveUse where
  startedAt : Nat
  observed : ResourceUse

/-- A finished lease at some scope: its last measurement and its lifetime. -/
structure FinishedUse where
  observed : ResourceUse
  lifetime : Nat

def totalUse (live : List LiveUse) (d : UseDimension) : Nat := (live.map (·.observed d)).sum

def totalFinished (done : List FinishedUse) (d : UseDimension) : Nat :=
  (done.map (·.observed d)).sum

def totalLifetime (done : List FinishedUse) : Nat := (done.map FinishedUse.lifetime).sum

/-- The componentwise maximum of a list of quantities. -/
def peakOf (past : List ResourceUse) (d : UseDimension) : Nat := (past.map (· d)).foldl max 0

/-- The totals a state has to hold fit its counters. -/
structure CountersFit (live : List LiveUse) (done : List FinishedUse) : Prop where
  active : ∀ d, totalUse live d ≤ counterMax
  count : live.length ≤ counterMax
  finished : done.length ≤ counterMax
  completed : ∀ d, totalFinished done d ≤ counterMax
  lifetime : totalLifetime done ≤ durationMax

instance (live : List LiveUse) (done : List FinishedUse) : Decidable (CountersFit live done) :=
  decidable_of_iff
    ((∀ d, totalUse live d ≤ counterMax) ∧ live.length ≤ counterMax ∧
      done.length ≤ counterMax ∧ (∀ d, totalFinished done d ≤ counterMax) ∧
      totalLifetime done ≤ durationMax)
    ⟨fun ⟨h1, h2, h3, h4, h5⟩ => ⟨h1, h2, h3, h4, h5⟩,
      fun ⟨h1, h2, h3, h4, h5⟩ => ⟨h1, h2, h3, h4, h5⟩⟩

/-- What a family knows of the oldest start: the least start of a live lease and how
many share it, or nothing because no lease is live or because it was lost. -/
def OldestKnown (st : FamilyState) (live : List LiveUse) : Prop :=
  match st.oldestActiveStartedAt with
  | some oldest => (∀ l ∈ live, oldest ≤ l.startedAt) ∧ 0 < st.oldestActiveStartCount ∧
      st.oldestActiveStartCount = live.countP (·.startedAt = oldest) ∧
      st.oldestActiveLifetimeInexact = false
  | none => live = [] ∨ st.oldestActiveLifetimeInexact = true

/-- A family state after its sections so far. -/
structure Tracks (st : FamilyState) (live : List LiveUse) (done : List FinishedUse)
    (past : List ResourceUse) : Prop where
  active : st.active = totalUse live
  count : st.activeLeaseCount = live.length
  peak : st.peakActive = peakOf past
  reached : ∀ d, totalUse live d ≤ st.peakActive d
  oldest : OldestKnown st live
  finished : st.completedLeaseCount = done.length
  completed : st.completedTotalUse = totalFinished done
  lifetime : st.completedTotalLifetime = totalLifetime done

theorem tracks_default : Tracks .default [] [] [] :=
  ⟨rfl, rfl, rfl, fun _ => Nat.le_refl 0, .inl rfl, rfl, rfl, rfl⟩

theorem totalUse_perm {live live' : List LiveUse} (h : live.Perm live') :
    totalUse live = totalUse live' :=
  funext fun _ => (h.map _).sum_eq

theorem totalFinished_perm {done done' : List FinishedUse} (h : done.Perm done') :
    totalFinished done = totalFinished done' :=
  funext fun _ => (h.map _).sum_eq

theorem OldestKnown.perm {st : FamilyState} {live live' : List LiveUse}
    (h : OldestKnown st live) (hPerm : live.Perm live') : OldestKnown st live' := by
  unfold OldestKnown at h ⊢
  split
  · rename_i oldest hSome
    rw [hSome] at h
    exact ⟨fun l hl => h.1 l (hPerm.mem_iff.mpr hl), h.2.1, h.2.2.1.trans (hPerm.countP_eq _),
      h.2.2.2⟩
  · rename_i hNone
    rw [hNone] at h
    refine h.imp_left fun hNil => ?_
    subst hNil
    exact List.nil_perm.mp hPerm

/-- The order of the leases does not matter. -/
theorem Tracks.perm {st : FamilyState} {live live' : List LiveUse}
    {done done' : List FinishedUse} {past : List ResourceUse} (h : Tracks st live done past)
    (hLive : live.Perm live') (hDone : done.Perm done') : Tracks st live' done' past where
  active := h.active.trans (totalUse_perm hLive)
  count := h.count.trans hLive.length_eq
  peak := h.peak
  reached := totalUse_perm hLive ▸ h.reached
  oldest := h.oldest.perm hLive
  finished := h.finished.trans hDone.length_eq
  completed := h.completed.trans (totalFinished_perm hDone)
  lifetime := h.lifetime.trans (hDone.map _).sum_eq

theorem CountersFit.perm {live live' : List LiveUse} {done done' : List FinishedUse}
    (h : CountersFit live done) (hLive : live.Perm live') (hDone : done.Perm done') :
    CountersFit live' done' where
  active := totalUse_perm hLive ▸ h.active
  count := hLive.length_eq ▸ h.count
  finished := hDone.length_eq ▸ h.finished
  completed := totalFinished_perm hDone ▸ h.completed
  lifetime := by
    rw [totalLifetime, ← (hDone.map FinishedUse.lifetime).sum_eq]
    exact h.lifetime

theorem totalUse_cons (l : LiveUse) (live : List LiveUse) (d : UseDimension) :
    totalUse (l :: live) d = l.observed d + totalUse live d := by
  rw [totalUse, List.map_cons, List.sum_cons]
  rfl

theorem totalFinished_cons (l : FinishedUse) (done : List FinishedUse) (d : UseDimension) :
    totalFinished (l :: done) d = l.observed d + totalFinished done d := by
  rw [totalFinished, List.map_cons, List.sum_cons]
  rfl

theorem peakOf_append (past : List ResourceUse) (active : ResourceUse) :
    peakOf (past ++ [active]) = ResourceUse.componentwiseMax (peakOf past) active := by
  funext d
  rw [peakOf, List.map_append, List.foldl_append]
  rfl

section Sections

open FamilyState

variable {st : FamilyState} {live : List LiveUse} {done : List FinishedUse}
  {past : List ResourceUse} {observed previous : ResourceUse} {startedAt lifetime : Nat}

theorem addActive_eq (h : st.active = totalUse live)
    (hFits : ∀ d, totalUse (⟨startedAt, observed⟩ :: live) d ≤ counterMax) :
    st.addActive observed = { st with active := totalUse (⟨startedAt, observed⟩ :: live) } := by
  have hSum : (fun d => st.active d + observed d) = totalUse (⟨startedAt, observed⟩ :: live) := by
    funext d
    rw [totalUse_cons, h, Nat.add_comm]
  rw [addActive, ResourceUse.checkedAdd_eq (fun d => (congrFun hSum d).symm ▸ hFits d), checkedUse,
    hSum]

theorem subActive_eq (h : st.active = totalUse (⟨startedAt, observed⟩ :: live)) :
    st.subActive observed = { st with active := totalUse live } := by
  have hLe : ∀ d, observed d ≤ st.active d := by
    intro d
    rw [h, totalUse_cons]
    exact Nat.le_add_right _ _
  have hDiff : (fun d => st.active d - observed d) = totalUse live := by
    funext d
    rw [h, totalUse_cons]
    exact Nat.add_sub_cancel_left _ _
  rw [subActive, ResourceUse.checkedSub_eq hLe, checkedUse, hDiff]

/-- A new lease has the oldest start, one of the oldest, or a later one. -/
theorem oldest_begin (observed : ResourceUse) (startedAt : Nat) (h : OldestKnown st live)
    {wasEmpty : Bool}
    (hEmpty : wasEmpty = live.isEmpty) (hFits : live.length < counterMax) :
    OldestKnown (st.noteStart wasEmpty startedAt) (⟨startedAt, observed⟩ :: live) ∧
      ∃ oldest count inexact, st.noteStart wasEmpty startedAt =
        { st with
          oldestActiveStartedAt := oldest
          oldestActiveStartCount := count
          oldestActiveLifetimeInexact := inexact } := by
  unfold noteStart
  split
  · rename_i hWas
    have hNil : live = [] := List.isEmpty_iff.mp (hEmpty ▸ hWas)
    subst hNil
    exact ⟨by simp [OldestKnown], _, _, _, rfl⟩
  · rename_i hWas
    have hSome : live ≠ [] := fun hNil => hWas (hEmpty.trans (by rw [hNil]; rfl))
    unfold OldestKnown at h
    cases hOldest : st.oldestActiveStartedAt with
    | none =>
      rw [hOldest] at h
      refine ⟨?_, _, _, _, rfl⟩
      unfold OldestKnown
      rw [hOldest]
      exact .inr (h.resolve_left hSome)
    | some oldest =>
      rw [hOldest] at h
      obtain ⟨hLeast, hPos, hCount, hExact⟩ := h
      dsimp only
      split
      · rename_i hLess
        have hNone : live.countP (·.startedAt = startedAt) = 0 := by
          refine List.countP_eq_zero.mpr fun l hl => ?_
          have := hLeast l hl
          simp only [decide_eq_true_eq]
          omega
        refine ⟨⟨?_, Nat.one_pos, ?_, hExact⟩, _, _, _, rfl⟩
        · intro l hl
          rcases List.mem_cons.mp hl with rfl | hl
          · exact Nat.le_refl _
          · exact Nat.le_of_lt (Nat.lt_of_lt_of_le hLess (hLeast l hl))
        · rw [List.countP_cons_of_pos (by simp), hNone]
      · rename_i hNotLess
        split
        · rename_i hEq
          subst hEq
          have hBound : st.oldestActiveStartCount < counterMax :=
            Nat.lt_of_le_of_lt (hCount ▸ List.countP_le_length) hFits
          rw [checkedCount, if_pos hBound]
          refine ⟨?_, _, _, _, rfl⟩
          unfold OldestKnown
          dsimp only
          rw [hOldest]
          refine ⟨?_, Nat.succ_pos _, ?_, hExact⟩
          · intro l hl
            rcases List.mem_cons.mp hl with rfl | hl
            · exact Nat.le_refl _
            · exact hLeast l hl
          · rw [List.countP_cons_of_pos (by simp), hCount]
        · rename_i hNe
          refine ⟨?_, _, _, _, rfl⟩
          unfold OldestKnown
          rw [hOldest]
          refine ⟨?_, hPos, ?_, hExact⟩
          · intro l hl
            rcases List.mem_cons.mp hl with rfl | hl
            · dsimp only
              omega
            · exact hLeast l hl
          · rw [List.countP_cons_of_neg (by simpa using hNe), hCount]

/-- **Beginning** an observation adds it to the live leases. -/
theorem Tracks.begin (h : Tracks st live done past)
    (hFits : CountersFit (⟨startedAt, observed⟩ :: live) done) :
    Tracks (st.begin observed startedAt) (⟨startedAt, observed⟩ :: live) done
      (past ++ [(st.begin observed startedAt).active]) := by
  have hCount : st.activeLeaseCount < counterMax := by
    rw [h.count]
    exact hFits.count
  unfold FamilyState.begin
  dsimp only
  rw [addActive_eq h.active hFits.active, checkedCount, if_pos hCount, raisePeak]
  dsimp only
  have hEmpty : (st.activeLeaseCount == 0) = live.isEmpty := by
    rw [h.count]
    cases live <;> rfl
  have hKnown : OldestKnown
      { st with
        active := totalUse (⟨startedAt, observed⟩ :: live)
        activeLeaseCount := st.activeLeaseCount + 1
        peakActive := st.peakActive.componentwiseMax (totalUse (⟨startedAt, observed⟩ :: live))
        peakActiveLeaseCount := max st.peakActiveLeaseCount (st.activeLeaseCount + 1) } live :=
    h.oldest
  obtain ⟨hOldest, oldest, count, inexact, hEq⟩ :=
    oldest_begin observed startedAt hKnown hEmpty hFits.count
  rw [hEq] at hOldest ⊢
  refine ⟨rfl, ?_, ?_, fun d => Nat.le_max_right _ _, hOldest, h.finished, h.completed, h.lifetime⟩
  · rw [List.length_cons, ← h.count]
  · rw [peakOf_append, ← h.peak]

/-- **Replacing** a measurement changes that of one live lease. -/
theorem Tracks.replace (h : Tracks st (⟨startedAt, previous⟩ :: live) done past)
    (hFits : CountersFit (⟨startedAt, observed⟩ :: live) done) :
    Tracks (st.replace previous observed) (⟨startedAt, observed⟩ :: live) done
      (past ++ [(st.replace previous observed).active]) := by
  unfold FamilyState.replace
  rw [subActive_eq h.active, addActive_eq rfl hFits.active, raisePeak]
  refine ⟨rfl, h.count, ?_, fun d => Nat.le_max_right _ _, ?_, h.finished, h.completed,
    h.lifetime⟩
  · rw [peakOf_append, ← h.peak]
  · -- Only the starts count for the oldest one.
    have hOldest := h.oldest
    unfold OldestKnown at hOldest ⊢
    dsimp only
    split
    · rename_i oldest hSome
      rw [hSome] at hOldest
      refine ⟨fun l hl => ?_, hOldest.2.1, ?_, hOldest.2.2.2⟩
      · rcases List.mem_cons.mp hl with rfl | hl
        · exact hOldest.1 ⟨startedAt, previous⟩ List.mem_cons_self
        · exact hOldest.1 l (List.mem_cons_of_mem _ hl)
      · rw [hOldest.2.2.1, List.countP_cons, List.countP_cons]
    · rename_i hNone
      rw [hNone] at hOldest
      exact .inr (hOldest.resolve_left (List.cons_ne_nil _ _))

/-- When the last lease with the oldest start finishes, the next one is lost. -/
theorem oldest_finish (observed : ResourceUse) (startedAt : Nat)
    (h : OldestKnown st (⟨startedAt, observed⟩ :: live))
    (hCount : st.activeLeaseCount = live.length) :
    OldestKnown (st.noteFinish startedAt) live ∧
      ∃ oldest count inexact, st.noteFinish startedAt =
        { st with
          oldestActiveStartedAt := oldest
          oldestActiveStartCount := count
          oldestActiveLifetimeInexact := inexact } := by
  unfold OldestKnown at h
  unfold noteFinish
  cases hOldest : st.oldestActiveStartedAt with
  | none =>
    rw [hOldest] at h
    have hInexact := h.resolve_left (List.cons_ne_nil _ _)
    rw [if_neg (by simp)]
    split
    · rename_i hLast
      exact ⟨.inl (List.length_eq_zero_iff.mp (hCount ▸ hLast.2)), _, _, _, rfl⟩
    · refine ⟨?_, _, _, _, rfl⟩
      unfold OldestKnown
      rw [hOldest]
      exact .inr hInexact
  | some oldest =>
    rw [hOldest] at h
    obtain ⟨hLeast, hPos, hStarts, hExact⟩ := h
    have hRest : ∀ l ∈ live, oldest ≤ l.startedAt :=
      fun l hl => hLeast l (List.mem_cons_of_mem _ hl)
    by_cases hEq : oldest = startedAt
    · subst hEq
      rw [List.countP_cons_of_pos (by simp)] at hStarts
      rw [if_pos rfl, checkedDiscount, if_neg (Nat.ne_of_gt hPos)]
      dsimp only
      split
      · rename_i hZero
        refine ⟨?_, _, _, _, rfl⟩
        unfold OldestKnown
        dsimp only
        split
        · exact .inr rfl
        · rename_i hNone
          exact .inl (List.length_eq_zero_iff.mp (hCount ▸ of_not_not hNone))
      · rename_i hSome
        refine ⟨?_, _, _, _, rfl⟩
        unfold OldestKnown
        dsimp only
        rw [hOldest]
        exact ⟨hRest, Nat.pos_of_ne_zero hSome, by omega, hExact⟩
    · rw [List.countP_cons_of_neg (by simpa using Ne.symm hEq)] at hStarts
      rw [if_neg (by simpa using hEq), if_neg (by simp)]
      refine ⟨?_, _, _, _, rfl⟩
      unfold OldestKnown
      rw [hOldest]
      exact ⟨hRest, hPos, hStarts, hExact⟩

/-- A finished lease is added to the completed totals. -/
theorem complete_eq (hCount : st.completedLeaseCount = done.length)
    (hUse : st.completedTotalUse = totalFinished done)
    (hLifetime : st.completedTotalLifetime = totalLifetime done)
    (hFits : CountersFit live (⟨observed, lifetime⟩ :: done)) :
    st.complete observed lifetime =
      { st with
        completedLeaseCount := done.length + 1
        completedTotalUse := totalFinished (⟨observed, lifetime⟩ :: done)
        completedTotalLifetime := totalLifetime (⟨observed, lifetime⟩ :: done) } := by
  have hBound : st.completedLeaseCount < counterMax := by
    rw [hCount]
    exact hFits.finished
  have hSum : (fun d => st.completedTotalUse d + observed d) =
      totalFinished (⟨observed, lifetime⟩ :: done) := by
    funext d
    rw [totalFinished_cons, hUse, Nat.add_comm]
  have hTime : st.completedTotalLifetime + lifetime =
      totalLifetime (⟨observed, lifetime⟩ :: done) := by
    rw [totalLifetime, List.map_cons, List.sum_cons, hLifetime, Nat.add_comm]
    rfl
  unfold complete
  dsimp only
  rw [checkedCount, if_pos hBound]
  dsimp only
  rw [ResourceUse.checkedAdd_eq fun d => (congrFun hSum d).symm ▸ hFits.completed d, checkedUse]
  dsimp only
  rw [hTime, if_pos hFits.lifetime, hSum, hCount]

/-- **Finishing** an observation moves it to the finished leases. -/
theorem Tracks.finish (h : Tracks st (⟨startedAt, observed⟩ :: live) done past)
    (hFits : CountersFit live (⟨observed, lifetime⟩ :: done)) :
    Tracks (st.finish observed startedAt lifetime) live (⟨observed, lifetime⟩ :: done)
      (past ++ [(st.finish observed startedAt lifetime).active]) := by
  have hCount : st.activeLeaseCount = live.length + 1 := h.count
  unfold FamilyState.finish
  dsimp only
  rw [subActive_eq h.active, checkedDiscount, if_neg (by dsimp only; omega)]
  dsimp only
  have hKnown : OldestKnown
      { st with active := totalUse live, activeLeaseCount := st.activeLeaseCount - 1 }
      (⟨startedAt, observed⟩ :: live) := h.oldest
  obtain ⟨hOldest, oldest, count, inexact, hEq⟩ :=
    oldest_finish observed startedAt hKnown (by dsimp only; omega)
  rw [hEq] at hOldest ⊢
  rw [complete_eq ?_ ?_ ?_ hFits]
  rotate_left
  · exact h.finished
  · exact h.completed
  · exact h.lifetime
  -- The active totals only fall, so the peak stays.
  have hReached : ∀ d, totalUse live d ≤ st.peakActive d := by
    intro d
    refine Nat.le_trans ?_ (h.reached d)
    rw [totalUse_cons]
    exact Nat.le_add_left _ _
  refine ⟨rfl, ?_, ?_, hReached, hOldest, rfl, rfl, rfl⟩
  · dsimp only
    omega
  · rw [peakOf_append, ← h.peak]
    exact funext fun d => (Nat.max_eq_left (hReached d)).symm

end Sections

/-! ## The tree of scopes -/

/-- The latest call on a lease. -/
inductive ObservationCall where
  | observe (measurement : ResourceMeasurement)
  | replace (previous : ResourceUse) (measurement : ResourceMeasurement)
  | finish (observed : ResourceUse) (lifetime : Nat)

namespace ObservationCall

/-- The measurement of the lease where the call has not been yet. -/
def before : ObservationCall → Option ResourceUse
  | observe _ => none
  | replace previous _ => some previous
  | finish observed _ => some observed

/-- The measurement of the lease where the call has been. -/
def after : ObservationCall → Option ResourceUse
  | observe measurement => some measurement.observed
  | replace _ measurement => some measurement.observed
  | finish _ _ => none

def done : ObservationCall → Option FinishedUse
  | finish observed lifetime => some ⟨observed, lifetime⟩
  | _ => none

def inexact : ObservationCall → Bool
  | observe measurement => measurement.inexact
  | replace _ measurement => measurement.inexact
  | finish _ _ => false

/-- What a call does to the family state of one scope. -/
def update (st : FamilyState) (startedAt : Nat) : ObservationCall → FamilyState
  | observe measurement => st.begin measurement.observed startedAt
  | replace previous measurement => st.replace previous measurement.observed
  | finish observed lifetime => st.finish observed startedAt lifetime

end ObservationCall

variable {φ : Type}

/-- An observation: its accountant as the scopes from the root to its own, its
family and start, its latest call and the scopes that call has still to visit. -/
structure ObservationLease (φ : Type) where
  accountant : List Nat
  family : φ
  startedAt : Nat
  call : ObservationCall
  todo : List Nat

/-- All scopes with their accountants, their states and the leases; `past` records
the values the active totals of a scope had. -/
structure ScopeTree (φ : Type) where
  scopes : List (List Nat)
  states : Nat → φ → FamilyState
  inexact : Nat → Bool
  leases : List (ObservationLease φ)
  past : Nat → φ → List ResourceUse

/-- A step of one of the threads. -/
inductive ScopeStep (φ : Type) where
  | observationOnly
  | childScope (parent : Nat)
  | observe (scope : Nat) (family : φ) (measurement : ResourceMeasurement) (startedAt : Nat)
  | replace (lease : Nat) (measurement : ResourceMeasurement)
  | drop (lease : Nat) (finishedAt : Nat)
  | visit (lease : Nat)

namespace ScopeTree

def new : ScopeTree φ := ⟨[], fun _ _ => .default, fun _ => false, [], fun _ _ => []⟩

/-- Start another call on a lease that is not in a call; a finished one has none. -/
def startCall (s : ScopeTree φ) (lease : Nat)
    (call : ObservationLease φ → ResourceUse → ObservationCall) : Option (ScopeTree φ) := do
  let l ← s.leases[lease]?
  if l.todo.isEmpty then
    let observed ← l.call.after
    return { s with
      leases := s.leases.set lease { l with call := call l observed, todo := l.accountant } }
  else none

variable [DecidableEq φ]

/-- The section of a call under the lock of the next scope. -/
def runSection (s : ScopeTree φ) (lease : Nat) (l : ObservationLease φ) (scope : Nat)
    (rest : List Nat) : ScopeTree φ :=
  let next := l.call.update (s.states scope l.family) l.startedAt
  { s with
    states := fun i f => if i = scope ∧ f = l.family then next else s.states i f
    inexact := fun i => if i = scope then s.inexact i || l.call.inexact else s.inexact i
    leases := s.leases.set lease { l with todo := rest }
    past := fun i f => if i = scope ∧ f = l.family then s.past i f ++ [next.active]
      else s.past i f }

/-- One step; `none` when it is not possible. -/
def move (s : ScopeTree φ) : ScopeStep φ → Option (ScopeTree φ)
  | .observationOnly => some { s with scopes := s.scopes ++ [[s.scopes.length]] }
  | .childScope parent => do
    let accountant ← s.scopes[parent]?
    return { s with scopes := s.scopes ++ [accountant ++ [s.scopes.length]] }
  | .observe scope family measurement startedAt => do
    let accountant ← s.scopes[scope]?
    return { s with
      leases := s.leases ++ [⟨accountant, family, startedAt, .observe measurement, accountant⟩] }
  | .replace lease measurement => s.startCall lease fun _ observed => .replace observed measurement
  | .drop lease finishedAt =>
    s.startCall lease fun l observed => .finish observed (finishedAt - l.startedAt)
  | .visit lease => do
    let l ← s.leases[lease]?
    match l.todo with
    | [] => none
    | scope :: rest => return s.runSection lease l scope rest

/-- A lease as a scope sees it: at or below the scope, with the measurement of its
latest call that has reached the scope. -/
def liveAt (scope : Nat) (family : φ) (l : ObservationLease φ) : Option LiveUse :=
  if l.family = family ∧ scope ∈ l.accountant then
    (if scope ∈ l.todo then l.call.before else l.call.after).map fun observed =>
      ⟨l.startedAt, observed⟩
  else none

/-- The completion of a lease that a scope has seen. -/
def finishedAt (scope : Nat) (family : φ) (l : ObservationLease φ) : Option FinishedUse :=
  if l.family = family ∧ scope ∈ l.accountant ∧ scope ∉ l.todo then l.call.done else none

def live (s : ScopeTree φ) (scope : Nat) (family : φ) : List LiveUse :=
  s.leases.filterMap (liveAt scope family)

def finished (s : ScopeTree φ) (scope : Nat) (family : φ) : List FinishedUse :=
  s.leases.filterMap (finishedAt scope family)

/-- No counter of any scope and family overflows. -/
def Fits (s : ScopeTree φ) : Prop :=
  ∀ l ∈ s.leases, ∀ scope ∈ l.accountant,
    CountersFit (s.live scope l.family) (s.finished scope l.family)

instance (s : ScopeTree φ) : Decidable s.Fits :=
  inferInstanceAs (Decidable (∀ l ∈ s.leases, ∀ scope ∈ l.accountant, _))

def report (s : ScopeTree φ) (scope : Nat) (family : φ) (now : Nat) : ResourceFamilyReport :=
  (s.states scope family).snapshot (s.inexact scope) now

/-- A step after which no counter has overflowed. -/
def StaysWithin (s : ScopeTree φ) (step : ScopeStep φ) : Prop :=
  (s.move step).all fun t => decide t.Fits

instance (s : ScopeTree φ) (step : ScopeStep φ) : Decidable (s.StaysWithin step) :=
  inferInstanceAs (Decidable (_ = true))

/-- The states reached without a counter overflow. -/
def Reached (s : ScopeTree φ) : Prop := Runs move StaysWithin new s

/-! ## Every section is truthful -/

/-- The recorded states are those of the leases. -/
structure Truthful (s : ScopeTree φ) : Prop where
  scopes : ∀ accountant ∈ s.scopes, accountant.Nodup ∧ ∀ i ∈ accountant, i < s.scopes.length
  leases : ∀ l ∈ s.leases, l.accountant.Nodup ∧ l.todo <:+ l.accountant
  tracks : ∀ scope family, Tracks (s.states scope family) (s.live scope family)
    (s.finished scope family) (s.past scope family)

omit [DecidableEq φ] in
/-- A lease in the list, and the list with another in its place. -/
theorem exists_split {leases : List (ObservationLease φ)} {i : Nat} {l : ObservationLease φ}
    (h : leases[i]? = some l) : ∃ pre post, leases = pre ++ l :: post ∧
      ∀ l', leases.set i l' = pre ++ l' :: post := by
  obtain ⟨hi, hGet⟩ := List.getElem?_eq_some_iff.mp h
  refine ⟨leases.take i, leases.drop (i + 1), ?_, fun l' => ?_⟩
  · rw [← hGet, List.getElem_cons_drop, List.take_append_drop]
  · exact List.set_eq_take_append_cons_drop.trans (if_pos hi)

omit [DecidableEq φ] in
theorem filterMap_middle {β : Type} (f : ObservationLease φ → Option β)
    (pre post : List (ObservationLease φ)) (l : ObservationLease φ) :
    ((pre ++ l :: post).filterMap f).Perm ((f l).toList ++ (pre ++ post).filterMap f) := by
  rw [List.filterMap_append, List.filterMap_append]
  cases h : f l with
  | none => rw [List.filterMap_cons_none h]; exact .refl _
  | some x => rw [List.filterMap_cons_some h]; exact List.perm_middle

namespace Truthful

variable {s t : ScopeTree φ}

/-- A call that has not been anywhere yet is not seen anywhere. -/
theorem startCall (h : s.Truthful) {lease : Nat}
    {call : ObservationLease φ → ResourceUse → ObservationCall}
    (hBefore : ∀ l observed, (call l observed).before = some observed)
    (hStep : s.startCall lease call = some t) : t.Truthful := by
  simp only [ScopeTree.startCall, Option.bind_eq_bind, Option.bind_eq_some_iff] at hStep
  obtain ⟨l, hGet, hStep⟩ := hStep
  split at hStep
  · rename_i hIdle
    obtain ⟨observed, hAfter, hStep⟩ := Option.bind_eq_some_iff.mp hStep
    cases hStep
    have hTodo : l.todo = [] := List.isEmpty_iff.mp hIdle
    obtain ⟨pre, post, hSplit, hSet⟩ := exists_split hGet
    have hLease := h.leases l (List.mem_of_getElem? hGet)
    have hDone : l.call.done = none := by
      cases hCall : l.call with
      | finish observed lifetime =>
        rw [hCall] at hAfter
        cases hAfter
      | observe | replace => rfl
    have hLive (scope : Nat) (family : φ) : liveAt scope family
        { l with call := call l observed, todo := l.accountant } = liveAt scope family l := by
      unfold liveAt
      dsimp only
      split
      · rename_i hHere
        rw [if_pos hHere.2, hTodo, if_neg List.not_mem_nil, hBefore, hAfter]
      · rfl
    have hFinished (scope : Nat) (family : φ) : finishedAt scope family
        { l with call := call l observed, todo := l.accountant } =
          finishedAt scope family l := by
      unfold finishedAt
      dsimp only
      rw [if_neg (fun hHere => hHere.2.2 hHere.2.1), hDone, ite_self]
    refine ⟨h.scopes, fun l' hl' => ?_, fun scope family => ?_⟩
    · dsimp only at hl'
      rw [hSet] at hl'
      rcases List.mem_append.mp hl' with hl' | hl'
      · exact h.leases l' (hSplit ▸ List.mem_append_left _ hl')
      · rcases List.mem_cons.mp hl' with rfl | hl'
        · exact ⟨hLease.1, List.suffix_rfl⟩
        · exact h.leases l' (hSplit ▸ List.mem_append_right _ (List.mem_cons_of_mem _ hl'))
    · have hTracks := h.tracks scope family
      unfold live finished at hTracks ⊢
      dsimp only
      rw [hSet]
      rw [hSplit] at hTracks
      simpa only [List.filterMap_append, List.filterMap_cons, hLive, hFinished] using hTracks
  · cases hStep

/-- **A section** of a call at a scope is a section of its family there. -/
theorem tracks_section {st : FamilyState} {live : List LiveUse} {done : List FinishedUse}
    {past : List ResourceUse} {call : ObservationCall} {startedAt : Nat}
    (h : Tracks st ((call.before.map (⟨startedAt, ·⟩)).toList ++ live) done past)
    (hFits : CountersFit ((call.after.map (⟨startedAt, ·⟩)).toList ++ live)
      (call.done.toList ++ done)) :
    Tracks (call.update st startedAt) ((call.after.map (⟨startedAt, ·⟩)).toList ++ live)
      (call.done.toList ++ done) (past ++ [(call.update st startedAt).active]) := by
  cases call with
  | observe measurement => exact Tracks.begin h hFits
  | replace previous measurement => exact Tracks.replace h hFits
  | finish observed lifetime => exact Tracks.finish h hFits

/-- The step of a call to its next scope. -/
theorem runSection (h : s.Truthful) {lease : Nat} {l : ObservationLease φ} {scope : Nat}
    {rest : List Nat} (hGet : s.leases[lease]? = some l) (hTodo : l.todo = scope :: rest)
    (hFits : (s.runSection lease l scope rest).Fits) :
    (s.runSection lease l scope rest).Truthful := by
  obtain ⟨hNodup, hSuffix⟩ := h.leases l (List.mem_of_getElem? hGet)
  obtain ⟨pre, post, hSplit, hSet⟩ := exists_split hGet
  have hHere : scope ∈ l.accountant := hSuffix.subset (hTodo ▸ List.mem_cons_self)
  have hOnce : scope ∉ rest :=
    (List.nodup_cons.mp (hTodo ▸ hNodup.sublist hSuffix.sublist)).1
  refine ⟨h.scopes, fun l' hl' => ?_, fun i family => ?_⟩
  · change l' ∈ s.leases.set lease { l with todo := rest } at hl'
    rw [hSet] at hl'
    rcases List.mem_append.mp hl' with hl' | hl'
    · exact h.leases l' (hSplit ▸ List.mem_append_left _ hl')
    · rcases List.mem_cons.mp hl' with rfl | hl'
      · exact ⟨hNodup, (hTodo ▸ List.suffix_cons scope rest).trans hSuffix⟩
      · exact h.leases l' (hSplit ▸ List.mem_append_right _ (List.mem_cons_of_mem _ hl'))
  · have hTracks := h.tracks i family
    -- Where the call is now, the lease goes from its old to its new measurement.
    by_cases hAt : i = scope ∧ family = l.family
    · obtain ⟨rfl, rfl⟩ := hAt
      have hBefore : liveAt i l.family l =
          l.call.before.map (⟨l.startedAt, ·⟩) := by
        rw [liveAt, if_pos ⟨rfl, hHere⟩, hTodo, if_pos List.mem_cons_self]
      have hAfter : liveAt i l.family { l with todo := rest } =
          l.call.after.map (⟨l.startedAt, ·⟩) := by
        rw [liveAt, if_pos ⟨rfl, hHere⟩, if_neg hOnce]
      have hUndone : finishedAt i l.family l = none := by
        rw [finishedAt, if_neg fun hSeen => hSeen.2.2 (hTodo ▸ List.mem_cons_self)]
      have hDone : finishedAt i l.family { l with todo := rest } = l.call.done := by
        rw [finishedAt, if_pos ⟨rfl, hHere, hOnce⟩]
      have hLivePerm : ((s.runSection lease l i rest).live i l.family).Perm
          ((l.call.after.map (⟨l.startedAt, ·⟩)).toList ++
            (pre ++ post).filterMap (liveAt i l.family)) := by
        rw [← hAfter]
        change ((s.leases.set lease { l with todo := rest }).filterMap _).Perm _
        rw [hSet]
        exact filterMap_middle _ pre post _
      have hDonePerm : ((s.runSection lease l i rest).finished i l.family).Perm
          (l.call.done.toList ++ (pre ++ post).filterMap (finishedAt i l.family)) := by
        rw [← hDone]
        change ((s.leases.set lease { l with todo := rest }).filterMap _).Perm _
        rw [hSet]
        exact filterMap_middle _ pre post _
      have hOldLive : (s.live i l.family).Perm ((l.call.before.map (⟨l.startedAt, ·⟩)).toList ++
          (pre ++ post).filterMap (liveAt i l.family)) := by
        rw [← hBefore]
        rw [live, hSplit]
        exact filterMap_middle _ pre post l
      have hOldDone : (s.finished i l.family).Perm
          ((pre ++ post).filterMap (finishedAt i l.family)) := by
        have hMiddle := filterMap_middle (finishedAt i l.family) pre post l
        rw [hUndone] at hMiddle
        rw [finished, hSplit]
        exact hMiddle
      have hMember : { l with todo := rest } ∈ (s.runSection lease l i rest).leases := by
        change _ ∈ s.leases.set lease _
        rw [hSet]
        exact List.mem_append_right _ List.mem_cons_self
      have hNext := tracks_section (hTracks.perm hOldLive hOldDone)
        ((hFits _ hMember i hHere).perm hLivePerm hDonePerm)
      have hState : (s.runSection lease l i rest).states i l.family =
          l.call.update (s.states i l.family) l.startedAt := if_pos ⟨rfl, rfl⟩
      have hPast : (s.runSection lease l i rest).past i l.family = s.past i l.family ++
          [(l.call.update (s.states i l.family) l.startedAt).active] := if_pos ⟨rfl, rfl⟩
      rw [hState, hPast]
      exact hNext.perm hLivePerm.symm hDonePerm.symm
    · -- Elsewhere nothing is seen of it.
      have hMem : i ∈ l.accountant → l.family = family → (i ∈ l.todo ↔ i ∈ rest) := by
        intro _ hFamily
        rw [hTodo, List.mem_cons]
        exact or_iff_right fun hEq => hAt ⟨hEq, hFamily.symm⟩
      have hLive : liveAt i family { l with todo := rest } = liveAt i family l := by
        unfold liveAt
        dsimp only
        split
        · rename_i hHere
          rw [if_congr (hMem hHere.2 hHere.1).symm rfl rfl]
        · rfl
      have hDone : finishedAt i family { l with todo := rest } = finishedAt i family l := by
        unfold finishedAt
        refine if_congr (and_congr_right fun hFamily => and_congr_right fun hHere => ?_) rfl rfl
        exact not_congr (hMem hHere hFamily).symm
      have hState : (s.runSection lease l scope rest).states i family = s.states i family :=
        if_neg hAt
      have hPast : (s.runSection lease l scope rest).past i family = s.past i family :=
        if_neg hAt
      rw [hState, hPast]
      unfold live finished at hTracks ⊢
      change Tracks _ ((s.leases.set lease _).filterMap _) ((s.leases.set lease _).filterMap _) _
      rw [hSet]
      rw [hSplit] at hTracks
      simpa only [List.filterMap_append, List.filterMap_cons, hLive, hDone] using hTracks

theorem addScope (h : s.Truthful) (accountant : List Nat) (hNodup : accountant.Nodup)
    (hBelow : ∀ i ∈ accountant, i < s.scopes.length) :
    Truthful { s with scopes := s.scopes ++ [accountant ++ [s.scopes.length]] } := by
  refine ⟨fun a ha => ?_, h.leases, h.tracks⟩
  dsimp only at ha ⊢
  rw [List.length_append, List.length_singleton]
  rcases List.mem_append.mp ha with ha | ha
  · exact ⟨(h.scopes a ha).1, fun i hi => Nat.lt_succ_of_lt ((h.scopes a ha).2 i hi)⟩
  · rw [List.mem_singleton.mp ha]
    refine ⟨List.nodup_append.mpr ⟨hNodup, List.nodup_singleton _, ?_⟩, fun i hi => ?_⟩
    · intro i hi j hj
      rw [List.mem_singleton.mp hj]
      exact Nat.ne_of_lt (hBelow i hi)
    · rcases List.mem_append.mp hi with hi | hi
      · exact Nat.lt_succ_of_lt (hBelow i hi)
      · rw [List.mem_singleton.mp hi]
        exact Nat.lt_succ_self _

/-- **Every step is truthful.** -/
theorem move (h : s.Truthful) {step : ScopeStep φ} (hStep : s.move step = some t)
    (hFits : t.Fits) : t.Truthful := by
  cases step with
  | observationOnly =>
    cases hStep
    exact h.addScope [] List.nodup_nil fun _ hi => absurd hi List.not_mem_nil
  | childScope parent =>
    simp only [ScopeTree.move, Option.bind_eq_bind, Option.bind_eq_some_iff] at hStep
    obtain ⟨accountant, hGet, hStep⟩ := hStep
    cases hStep
    obtain ⟨hNodup, hBelow⟩ := h.scopes accountant (List.mem_of_getElem? hGet)
    exact h.addScope accountant hNodup hBelow
  | observe scope family measurement startedAt =>
    simp only [ScopeTree.move, Option.bind_eq_bind, Option.bind_eq_some_iff] at hStep
    obtain ⟨accountant, hGet, hStep⟩ := hStep
    cases hStep
    refine ⟨h.scopes, fun l hl => ?_, fun i f => ?_⟩
    · rcases List.mem_append.mp hl with hl | hl
      · exact h.leases l hl
      · rw [List.mem_singleton.mp hl]
        exact ⟨(h.scopes accountant (List.mem_of_getElem? hGet)).1, List.suffix_rfl⟩
    · have hLive : liveAt i f
          ⟨accountant, family, startedAt, .observe measurement, accountant⟩ = none := by
        unfold liveAt
        dsimp only
        split
        · rename_i hHere
          rw [if_pos hHere.2]
          rfl
        · rfl
      have hDone : finishedAt i f
          ⟨accountant, family, startedAt, .observe measurement, accountant⟩ = none := by
        unfold finishedAt
        rw [if_neg fun hHere => hHere.2.2 hHere.2.1]
      have hTracks := h.tracks i f
      unfold live finished at hTracks ⊢
      simpa only [List.filterMap_append, List.filterMap_cons, List.filterMap_nil, hLive, hDone,
        List.append_nil] using hTracks
  | replace lease measurement => exact h.startCall (fun _ _ => rfl) hStep
  | drop lease finishedAt => exact h.startCall (fun _ _ => rfl) hStep
  | visit lease =>
    simp only [ScopeTree.move, Option.bind_eq_bind, Option.bind_eq_some_iff] at hStep
    obtain ⟨l, hGet, hStep⟩ := hStep
    split at hStep
    · cases hStep
    · rename_i scope rest hTodo
      cases hStep
      exact h.runSection hGet hTodo hFits

end Truthful

theorem new_truthful : (new : ScopeTree φ).Truthful :=
  ⟨fun _ h => absurd h List.not_mem_nil, fun _ h => absurd h List.not_mem_nil,
    fun _ _ => tracks_default⟩

theorem Reached.truthful {s : ScopeTree φ} (h : s.Reached) : s.Truthful :=
  Runs.invariant (fun _ _ _ hTruthful hWithin hStep => hTruthful.move hStep (by
    rw [StaysWithin, hStep] at hWithin
    exact of_decide_eq_true hWithin)) new_truthful h

/-- **Observation reports are exact.** In every tree of scopes, after any
interleaving of sections without a counter overflow, the report of a scope on a
family holds: the sum of the measurements of the live leases at or below the scope
and their number, the componentwise maximum of the values the active total has had,
the totals over the finished leases, and the age of the earliest started live lease;
with live leases the age is absent only where the report calls it inexact. -/
theorem observation_report_exact (s : ScopeTree φ) (h : s.Reached) (scope : Nat) (family : φ)
    (now : Nat) :
    (s.report scope family now).active = totalUse (s.live scope family) ∧
      (s.report scope family now).activeLeaseCount = (s.live scope family).length ∧
      (s.report scope family now).peakActive = peakOf (s.past scope family) ∧
      (s.report scope family now).completedLeaseCount = (s.finished scope family).length ∧
      (s.report scope family now).completedTotalUse =
        totalFinished (s.finished scope family) ∧
      (s.report scope family now).completedTotalLifetime =
        totalLifetime (s.finished scope family) ∧
      (∀ age, (s.report scope family now).oldestActiveLifetime = some age →
        ∃ l ∈ s.live scope family, (∀ l' ∈ s.live scope family, l.startedAt ≤ l'.startedAt) ∧
          age = now - l.startedAt) ∧
      ((s.report scope family now).oldestActiveLifetime = none → s.live scope family ≠ [] →
        (s.report scope family now).oldestActiveLifetimeInexact = true) := by
  have hTracks := h.truthful.tracks scope family
  refine ⟨hTracks.active, hTracks.count, hTracks.peak, hTracks.finished, hTracks.completed,
    hTracks.lifetime, fun age hAge => ?_, fun hNone hSome => ?_⟩
  · obtain ⟨oldest, hOldest, rfl⟩ := Option.map_eq_some_iff.mp hAge
    have hKnown := hTracks.oldest
    unfold OldestKnown at hKnown
    rw [hOldest] at hKnown
    obtain ⟨hLeast, hPos, hCount, -⟩ := hKnown
    obtain ⟨l, hl, hStart⟩ := List.countP_pos_iff.mp (hCount ▸ hPos)
    have hEq : l.startedAt = oldest := of_decide_eq_true hStart
    exact ⟨l, hl, fun l' hl' => hEq ▸ hLeast l' hl', by rw [hEq]⟩
  · have hKnown := hTracks.oldest
    unfold OldestKnown at hKnown
    rw [Option.map_eq_none_iff.mp hNone] at hKnown
    exact hKnown.resolve_left hSome

/-- A child scope whose first of two leases finishes. -/
def losingOldest : List (ScopeStep Unit) :=
  [.observationOnly, .childScope 0, .observe 1 () ⟨fun _ => 3, false⟩ 10, .visit 0, .visit 0,
    .observe 1 () ⟨fun _ => 5, false⟩ 20, .visit 1, .visit 1, .drop 0 30, .visit 0, .visit 0]

theorem observation_report_exact_losing : ∃ s : ScopeTree Unit, s.Reached ∧
    (s.report 0 () 40).activeLeaseCount = 1 ∧ (s.report 0 () 40).oldestActiveLifetime = none ∧
    (s.report 0 () 40).active = totalUse (s.live 0 ()) := by
  have hReached : Reached ((play move StaysWithin new losingOldest).getD
      (new : ScopeTree Unit)) :=
    Runs.play_getD losingOldest new (by decide +kernel)
  exact ⟨_, hReached, by decide +kernel, by decide +kernel,
    (observation_report_exact _ hReached 0 () 40).1⟩

end ScopeTree

end MyOwnMesh.Resource
