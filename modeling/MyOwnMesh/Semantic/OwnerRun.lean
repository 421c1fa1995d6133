import MyOwnMesh.Semantic.BatchSpec

/-!
# Runs of the owner

The owner of a graph admits facts one by one, behind a journal or in groups,
keeps or drops each journal, retries the quarantine and reads the projection.
`OwnerCall` lists these calls and `run` executes them; a graph is reachable when
some list of calls leads to it from a bootstrap. No call here retires cold
history, so the resident facts are all that were ever admitted.
-/

namespace MyOwnMesh.Semantic

open Foundation

/-- One call of the owner. A journal that is not kept is rolled back or dropped. -/
inductive OwnerCall where
  | admitted (fact : SignedFact)
  | journaled (fact : SignedFact) (keep : Bool)
  | grouped (facts : List SignedFact) (keep : Bool)
  | retried
  | observed

variable [Platform]

/-- The graph a call leaves, whether it succeeds or not. -/
def OwnerCall.run (g : FactGraph) : OwnerCall → FactGraph
  | .admitted fact => (exec (admitFact fact) g).2
  | .journaled fact keep =>
    match exec (admitJournaled fact) g with
    | (.ok journal, after) => if keep then journal.commit after else journal.undo after
    | (.error _, after) => after
  | .grouped facts keep =>
    match exec (admitJournaledBatchWithHistory facts []) g with
    | (.ok journal, after) => if keep then journal.commit after else journal.undo after
    | (.error _, after) => after
  | .retried => (exec retryQuarantined g).2
  | .observed => g.observed

/-- The graph a list of calls leaves. -/
def runCalls (g : FactGraph) (calls : List OwnerCall) : FactGraph :=
  calls.foldl OwnerCall.run g

/-- Reachable from a bootstrap without retiring history. -/
def Reachable (bootstrap : VerifiedBootstrap) (limits : SemanticAdmissionPolicy)
    (g : FactGraph) : Prop :=
  ∃ calls, g = runCalls (.fromBootstrapWithPolicy bootstrap limits) calls

/-! ## The bootstrap graph -/

/-- The graph of a bootstrap. -/
theorem empty_sound (contextId : MeshContextId) (roots : OrdSet DeviceId)
    (policy : VerifiedProjectPolicy) (limits : SemanticAdmissionPolicy) :
    Sound (FactGraph.empty contextId roots policy limits) := by
  have hNone (id : FactId) : id ∉ (∅ : Facts) := Std.ExtTreeMap.not_mem_empty
  have hGet {id : FactId} {fact : SignedFact} : (∅ : Facts)[id]? ≠ some fact := by
    simp
  have hBytes : indexBytes (FactGraph.empty contextId roots policy limits) = 0 := by
    simp [indexBytes, FactGraph.empty, mapSum_empty]
  have hExact : GraphExact (FactGraph.empty contextId roots policy limits) := by
    refine ⟨⟨?_, ?_, ?_, ?_⟩, ⟨?_, ?_⟩, ?_, ?_, ?_⟩
    · exact .empty fun _ id h => hNone id h.1
    · exact .empty fun _ entry h => hNone entry.1 h.1
    · intro cell
      refine ⟨fun h => absurd h Std.ExtTreeSet.not_mem_empty, ?_⟩
      rintro ⟨id, h, _⟩
      exact absurd h (hNone id)
    · exact .empty fun _ id h => hNone id h.1
    · exact .empty fun _ id h => hNone id h.1.1
    · exact .empty fun _ id h => hNone id h.1.1
    · intro id selector _
      show _ = provenanceEntry ∅ id selector
      rw [provenanceEntry_of_not_mem (hNone id)]
      simp [FactGraph.empty]
    · intro id selector _
      simp [FactGraph.empty]
    · intro id row h
      simp [FactGraph.empty] at h
  refine ⟨⟨.empty, fun _ _ h => absurd h hGet, hExact, rfl, rfl, rfl, hBytes.symm, by omega⟩,
    ⟨fun _ _ h => absurd h hGet, fun id h => absurd h (hNone id), ?_, ?_, ?_⟩, .of_none rfl⟩
  · intro id
    simp [FactGraph.empty]
  · refine .empty ?_
    rintro _ _ ⟨fact, h, _⟩
    exact hGet h
  · intro id
    refine ⟨fun h => absurd h Std.ExtTreeSet.not_mem_empty, ?_⟩
    rintro ⟨fact, h, _⟩
    exact absurd h hGet

/-! ## What a call does -/

/-- A call goes through steps, and may undo what came after a read at once. -/
inductive CallEffect (late : Prop) (g : FactGraph) : FactGraph → Prop
  | kept {g' : FactGraph} : Trace late g g' →
      g'.deferProjectionCommitment = g.deferProjectionCommitment → CallEffect late g g'
  | undone {s g' : FactGraph} {entries : SparseEntries} {current : Option Projection} :
      ReadOnly g s → Undone s entries current g' → CallEffect late g g'

section Deferral

variable {g g' : FactGraph} {fact : SignedFact}

omit [Platform] in
theorem CacheOnly.deferral (h : CacheOnly g g') :
    g'.deferProjectionCommitment = g.deferProjectionCommitment := by
  rw [h]

theorem Inserted.deferral {cost : FactCost} {retainedReserved : Bool} {previous : Projection}
    (h : Inserted g fact cost retainedReserved previous [] g') :
    g'.deferProjectionCommitment = g.deferProjectionCommitment := by
  obtain ⟨changes, bytes, -, -, -, rfl⟩ := h.exists_plan
  rw [(wakeDependency_cache _ _).2]
  cases retainedReserved <;> simp [storedGraph, storeAdmitted_eq, FactGraph.retainAuthor]

theorem Admitted.deferral {retainedReserved : Bool} {supplied : Option Projection}
    {validatedCost : Option FactCost} {admission : Admission}
    (h : Admitted g fact retainedReserved supplied validatedCost [] admission g') :
    g'.deferProjectionCommitment = g.deferProjectionCommitment := by
  cases h with
  | alreadyPresent _ _ hRead => exact hRead.cacheOnly.deferral
  | @quarantined cost s _ _ hRead _ _ =>
    have hStored : (s.storeQuarantined fact cost retainedReserved).deferProjectionCommitment =
        s.deferProjectionCommitment := by
      cases retainedReserved <;> rfl
    rw [hStored]
    exact hRead.cacheOnly.deferral
  | inserted _ _ _ _ hRead hInserted =>
    rw [hInserted.deferral]
    exact hRead.cacheOnly.deferral

theorem TakeUp.deferral (h : TakeUp g g') :
    g'.deferProjectionCommitment = g.deferProjectionCommitment := by
  cases h with
  | unready _ => rfl
  | promoted _ _ _ hPromoted =>
    rcases hPromoted with ⟨_, hAdmitted⟩ | ⟨s, hRead, rfl⟩
    · exact hAdmitted.deferral
    · exact hRead.cacheOnly.deferral

theorem RetryRun.deferral (h : RetryRun g g') :
    g'.deferProjectionCommitment = g.deferProjectionCommitment := by
  induction h with
  | refl => rfl
  | tail _ hTurn ih => rw [hTurn.deferral, ih]

end Deferral

/-- **Every call** has such an effect on a sound graph outside of a group. -/
theorem OwnerCall.run_effect {g : FactGraph} (h : Sound g)
    (hDefer : g.deferProjectionCommitment = false) (call : OwnerCall) :
    CallEffect True g (call.run g) := by
  cases call with
  | admitted fact =>
    have hSpec : Triple (· = g) (admitFact fact) _ _ :=
      admitFact_spec h.current h.rebuildable h.committed
    have hMeets := hSpec g rfl
    show CallEffect True g (exec (admitFact fact) g).2
    revert hMeets
    rcases exec (admitFact fact) g with ⟨result, after⟩
    cases result with
    | ok admission => exact fun hAdmitted => .kept hAdmitted.trace hAdmitted.deferral
    | error error =>
      rintro ⟨current, -, hUndone⟩
      exact .undone (.refl g) hUndone
  | retried =>
    have hMeets := retryQuarantined_spec h.current h.rebuildable h.quarantine.shape h.committed g rfl
    show CallEffect True g (exec retryQuarantined g).2
    revert hMeets
    rcases exec retryQuarantined g with ⟨result, after⟩
    cases result with
    | ok inserted => exact fun hRun => .kept hRun.trace hRun.deferral
    | error error =>
      rintro ⟨current, hUndone⟩
      exact .undone (.refl g) hUndone
  | observed => exact .kept (.single .observe) (observed_cacheOnly g).deferral
  | journaled fact keep =>
    have hSpec : Triple (· = g) (admitJournaled fact) _ _ := admitJournaled_spec h.restorable
    have hMeets := hSpec g rfl
    show CallEffect True g (match exec (admitJournaled fact) g with
      | (.ok journal, after) => if keep then journal.commit after else journal.undo after
      | (.error _, after) => after)
    revert hMeets
    rcases exec (admitJournaled fact) g with ⟨result, after⟩
    cases result with
    | ok journal =>
      rintro ⟨s, hRead, hJournaled⟩
      cases keep with
      | true =>
        show CallEffect True g (journal.commit after)
        rw [hJournaled.commit_eq]
        exact .kept (hRead.trace.trans hJournaled.trace)
          (hJournaled.deferral.trans hRead.cacheOnly.deferral)
      | false =>
        show CallEffect True g (journal.undo after)
        have hReady := h.restorable.readOnly hRead
        rcases hJournaled.undone hReady.rebuildable with hSame | ⟨current, hUndone⟩
        · rw [hSame]
          exact .kept hRead.trace hRead.cacheOnly.deferral
        · exact .undone hRead hUndone
    | error error =>
      rintro (hRead | ⟨s, hRead, current, hUndone, -⟩)
      · exact .kept hRead.trace hRead.cacheOnly.deferral
      · exact .undone hRead hUndone
  | grouped facts keep =>
    have hSpec : Triple (· = g) (admitJournaledBatchWithHistory facts []) _ _ :=
      admitJournaledBatchWithHistory_spec h hDefer
    have hMeets := hSpec g rfl
    show CallEffect True g (match exec (admitJournaledBatchWithHistory facts []) g with
      | (.ok journal, after) => if keep then journal.commit after else journal.undo after
      | (.error _, after) => after)
    revert hMeets
    rcases exec (admitJournaledBatchWithHistory facts []) g with ⟨result, after⟩
    cases result with
    | ok journal =>
      intro hGroup
      cases keep with
      | true =>
        show CallEffect True g (journal.commit after)
        rw [hGroup.commit_eq]
        exact .kept hGroup.trace (hGroup.settled.trans hDefer.symm)
      | false =>
        obtain ⟨current, hUndone⟩ := hGroup.undone
        exact .undone (.refl g) hUndone
    | error error =>
      rintro (hSame | ⟨current, hUndone⟩)
      · rw [hSame]
        exact .kept .refl rfl
      · exact .undone (.refl g) hUndone

/-! ## Reachable graphs -/

/-- Sound and outside of a group. -/
structure Settled (g : FactGraph) : Prop extends Sound g where
  deferral : g.deferProjectionCommitment = false

theorem Settled.effect {late : Prop} {g g' : FactGraph} (h : Settled g)
    (hEffect : CallEffect late g g') : Settled g' := by
  cases hEffect with
  | kept hTrace hDefer => exact ⟨h.toSound.trace hTrace, hDefer.trans h.deferral⟩
  | @undone s _ _ _ hRead hUndone =>
    have hSound : Sound s := h.toSound.trace (show Trace False g s from hRead.trace)
    refine ⟨hSound.undone hUndone, ?_⟩
    rw [hUndone.cacheOnly.deferral, hRead.cacheOnly.deferral]
    exact h.deferral

/-- **A run keeps the invariant.** -/
theorem runCalls_settled (calls : List OwnerCall) :
    ∀ g : FactGraph, Settled g → Settled (runCalls g calls) := by
  induction calls with
  | nil => exact fun g h => h
  | cons call calls ih =>
    intro g h
    exact ih _ (h.effect (call.run_effect h.toSound h.deferral))

/-- Every reachable graph is sound. -/
theorem Reachable.settled {bootstrap : VerifiedBootstrap} {limits : SemanticAdmissionPolicy}
    {g : FactGraph} (h : Reachable bootstrap limits g) : Settled g := by
  obtain ⟨calls, rfl⟩ := h
  exact runCalls_settled calls _ ⟨empty_sound _ _ _ _, rfl⟩

end MyOwnMesh.Semantic
