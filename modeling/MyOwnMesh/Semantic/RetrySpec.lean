import MyOwnMesh.Semantic.Trace

/-!
# What a retry does

Taking up a waiter withdraws it from the quarantine and admits it again. A retry
is a trace as long as no waiter fails, and its rollback record leads back to the
base whatever happens: the unbounded retry goes on after a failure, in a graph
only the final rollback repairs.
-/

namespace MyOwnMesh.Semantic

open Foundation

variable [Platform]

/-! ## Admissions as traces -/

section Traces

variable {late : Prop} {g g' : FactGraph} {fact : SignedFact} {retainedReserved : Bool}
  {admission : Admission}

theorem ReadOnly.trace (h : ReadOnly g g') : Trace late g g' := by
  rcases h with rfl | rfl
  · exact .refl
  · exact .single .observe

variable {cost : FactCost}

theorem Offered.of_cacheOnly (h : Offered g fact cost) (hCache : CacheOnly g g') :
    Offered g' fact cost := by
  rw [hCache]
  exact ⟨h.verified, h.context, h.closed, h.fresh, h.notQuarantined, h.notSelf, h.costed⟩

private theorem wait_trace {s : FactGraph} (hOffered : Offered g fact cost)
    (hMissing : cost.missing ≠ []) (hRead : ReadOnly g s)
    (hReserve : s.reserveQuarantine fact cost retainedReserved = .ok ())
    (hSigner : g.isAuthorizedSigner fact.content.author = true) :
    Trace late g (s.storeQuarantined fact cost retainedReserved) := by
  refine Relation.ReflTransGen.tail hRead.trace
    (.wait (hOffered.of_cacheOnly hRead.cacheOnly) hMissing ?_ hReserve)
  rw [hRead.isAuthorizedSigner_eq]
  exact hSigner

theorem Admitted.trace (h : Admitted g fact retainedReserved none none [] admission g') :
    Trace late g g' := by
  cases h with
  | alreadyPresent _ _ hRead => exact hRead.trace
  | quarantined hCost hMissing hRead hReserve hSigner =>
    rcases hCost with hNone | ⟨-, hScreened⟩
    · cases hNone
    · exact wait_trace hScreened.toOffered hMissing hRead hReserve hSigner
  | inserted hCost hMissing hReadS hJudged hReadT hInserted =>
    rcases hCost with hNone | ⟨-, hScreened⟩
    · cases hNone
    · exact .single (.insert hScreened hMissing
        ⟨_, hReadS.cacheOnly, .inl hReadS.projection_eq, hJudged⟩ hReadT.cacheOnly hInserted)

/-- An admission of a screened candidate over the projection taken out before. -/
theorem Admitted.trace_taken (hScreened : Screened g fact cost)
    (h : Admitted { g with projectionCache := none } fact retainedReserved
      (some g.projectionForUpdate) (some cost) [] admission g') : Trace late g g' := by
  have hCost {other : FactCost}
      (h : CostOf { g with projectionCache := none } fact (some cost) other) : other = cost := by
    rcases h with h | ⟨h, -⟩
    · exact (Option.some.inj h).symm
    · cases h
  have hTaken : CacheOnly g { g with projectionCache := none } := rfl
  have hFresh : ({ g with projectionCache := none } : FactGraph).projection =
      Projection.fromGraph g := by
    unfold FactGraph.projection
    split <;> rfl
  cases h with
  | alreadyPresent hNone _ _ => cases hNone
  | quarantined hCostOf hMissing hRead hReserve hSigner =>
    obtain rfl := hCost hCostOf
    exact Relation.ReflTransGen.head .take
      (wait_trace (hScreened.toOffered.of_cacheOnly hTaken) hMissing hRead hReserve hSigner)
  | inserted hCostOf hMissing hReadS hJudged hReadT hInserted =>
    obtain rfl := hCost hCostOf
    refine .single (.insert hScreened hMissing ⟨_, hTaken.trans hReadS.cacheOnly, .inr ?_, hJudged⟩
      (hTaken.trans hReadT.cacheOnly) hInserted)
    rw [hReadS.projection_eq, hFresh]

end Traces

/-! ## A plain admission -/

/-- A mutation undone at once: the base, up to the restored cache. -/
structure Undone (base : FactGraph) (entries : SparseEntries) (current : Option Projection)
    (g : FactGraph) : Prop where
  eq : g = { base with projectionCache := rolledBackCache base entries current }
  committed : base.deferProjectionCommitment = false →
    ∀ projection, current = some projection → projection.Committed

namespace Undone

variable {base g : FactGraph} {entries : SparseEntries} {current : Option Projection}

theorem cacheOnly (h : Undone base entries current g) : CacheOnly base g := by
  rw [h.eq]
  rfl

/-- The restored cache is committed again. -/
theorem committedCache (h : Undone base entries current g) : CommittedCache g := by
  rw [h.eq]
  intro hDefer generation projection hGet
  obtain ⟨⟨_, cached⟩, -, hGet⟩ := Option.bind_eq_some_iff.mp hGet
  dsimp only at hGet
  split at hGet
  · cases hGet
    refine Projection.Committed.restoreSparseEntries ?_ entries
    cases hCurrent : current with
    | none => exact Projection.committed_fromGraph base
    | some projection => exact h.committed hDefer projection hCurrent
  · cases hGet

end Undone

variable {g : FactGraph} {fact : SignedFact} {validatedCost : Option FactCost}
  {error : SemanticError}

variable {g' : FactGraph}

theorem AdmitFailed.earlyCurrent (h : AdmitFailed g fact validatedCost error g') :
    EarlyCurrent g (g'.projectionCache.map Prod.snd) := by
  have hRead {s : FactGraph} (hs : ReadOnly g s) :
      EarlyCurrent g (s.projectionCache.map Prod.snd) := by
    rcases hs with rfl | rfl
    · exact .inr (.inr rfl)
    · unfold FactGraph.observed
      split
      · exact .inr (.inl rfl)
      · exact .inr (.inr rfl)
  rcases h with hs | ⟨-, cost, t, changes, bytes, cache, hCache, -, -, ht, -, rfl⟩
  · exact hRead hs
  · rcases hCache with rfl | rfl
    · exact .inl rfl
    · exact show EarlyCurrent g (t.projectionCache.map Prod.snd) from hRead ht

theorem EarlyCurrent.committed {current : Option Projection} (h : EarlyCurrent g current)
    (hCommitted : CommittedCache g) (hDefer : g.deferProjectionCommitment = false)
    (projection : Projection) (hSome : current = some projection) : projection.Committed := by
  rcases h with rfl | rfl | rfl
  · cases hSome
  · exact Option.some.inj hSome ▸ Projection.committed_fromGraph g
  · obtain ⟨⟨generation, _⟩, hCache, rfl⟩ := Option.map_eq_some_iff.mp hSome
    exact hCommitted hDefer generation _ hCache

/-- **A plain admission**: its result, or the graph before with an early cache. -/
theorem admitFact_spec (hCurrent : g.indexesCurrent = true) (hRebuild : Rebuildable g)
    (hCommitted : CommittedCache g) :
    Triple (· = g) (admitFact fact) (Admitted g fact false none none [])
      (fun _ g' => ∃ current, EarlyCurrent g current ∧ Undone g ⟨∅, ∅⟩ current g') := by
  unfold admitFact restoreOnError
  refine triple_bind (Q := fun _ g' => g' = g) (triple_modify fun s hs => ?_) fun _ => ?_
  · rw [hs]
    exact if_pos hCurrent
  refine triple_read (triple_tryCatch (admitInnerWithProjectionStaged_spec hCurrent) fun error => ?_)
  refine triple_of_forall fun failed hFailed => ?_
  refine triple_bind (Q := fun _ g' => ∃ current, EarlyCurrent g current ∧
    Undone g ⟨∅, ∅⟩ current g') (triple_modify fun s hs => ?_) fun _ => triple_throw fun _ h => h
  rw [hs]
  obtain ⟨hCaptures, hRecord⟩ := (GraphRollback.new g).captureAdmission_spec g fact
  have hChanges := hFailed.changes (r := (GraphRollback.new g).captureAdmission g fact)
    (fun cost hCost => by
      rcases hCost with hNone | ⟨-, hScreened⟩
      · cases hNone
      · exact hRecord _ (missing_subset hScreened.costed))
    (fun cost hCost => by
      rcases hCost with hNone | ⟨-, hScreened⟩
      · cases hNone
      · exact hScreened.fresh)
  refine ⟨failed.projectionCache.map Prod.snd, hFailed.earlyCurrent, ?_,
    hFailed.earlyCurrent.committed hCommitted⟩
  rw [(((Undoable.new g).capture hCaptures).change hChanges).restore_eq hRebuild, hCaptures.sparse,
    hChanges.deferral]
  rfl

/-! ## Promoting a waiter -/

variable {body : FactBody} {dependencies : List FactId}

omit [Platform] in
theorem isCapacity_of_terminalAuthorization
    (h : isTerminalAuthorizationWaiter g body dependencies error = true) :
    error.isCapacity = false := by
  unfold isTerminalAuthorizationWaiter at h
  cases error <;> simp_all [SemanticError.isCapacity]

omit [Platform] in
theorem isCapacity_of_terminal (h : isTerminalWaiterError g body dependencies error = true) :
    error.isCapacity = false := by
  unfold isTerminalWaiterError at h
  rcases Bool.or_eq_true_iff.mp h with h | h
  · cases error <;> simp_all [SemanticError.isCapacity]
  · exact isCapacity_of_terminalAuthorization h

/-- A waiter that was dropped for good: nothing was stored, its account is
released. -/
def Dropped (g : FactGraph) (fact : SignedFact) (cost : FactCost) (g' : FactGraph) : Prop :=
  ∃ s, ReadOnly g s ∧ g' = s.releaseAuthor fact.content.author cost

/-- What a promotion leaves: the waiter admitted again, or dropped. -/
def Promoted (g : FactGraph) (fact : SignedFact) (cost : FactCost) (g' : FactGraph) : Prop :=
  (∃ admission, Admitted g fact true none none [] admission g') ∨ Dropped g fact cost g'

theorem AdmitFailed.readOnly (h : AdmitFailed g fact validatedCost error g')
    (hError : error.isCapacity = false) : ReadOnly g g' := by
  rcases h with h | ⟨hCapacity, -⟩
  · exact h
  · rw [hError] at hCapacity
    cases hCapacity

variable {cost : FactCost}

theorem promoteWaiter_spec (hCurrent : g.indexesCurrent = true) :
    Triple (· = g) (promoteWaiter isTerminalWaiterError [] fact cost)
      (fun _ => Promoted g fact cost)
      (fun error g' => AdmitFailed g fact none error g' ∧
        exec (admitInnerWithStaged fact true []) g = (.error error, g') ∧
        isTerminalWaiterError g' fact.content.body fact.dependencies error = false) := by
  unfold promoteWaiter
  refine triple_tryCatch (F := fun error g' => AdmitFailed g fact none error g' ∧
    exec (admitInnerWithStaged fact true []) g = (.error error, g')) ?_ fun error => ?_
  · refine triple_bind (admitInnerWithProjectionStaged_spec hCurrent).withRun fun admission => ?_
    exact triple_pure fun g' h => .inl ⟨admission, h.1⟩
  · refine triple_of_forall fun failed hFailed => triple_read (triple_ite (fun hTerminal => ?_) ?_)
    · refine triple_modify fun s hs => .inr ⟨s, ?_, rfl⟩
      rw [hs]
      exact hFailed.1.readOnly (isCapacity_of_terminal hTerminal)
    · intro hNot
      refine triple_throw fun s hs => ?_
      rw [hs]
      exact ⟨hFailed.1, hFailed.2, Bool.eq_false_iff.mpr hNot⟩

variable {late : Prop}

theorem Promoted.trace (h : Promoted g fact cost g') : Trace late g g' := by
  rcases h with ⟨_, hAdmitted⟩ | ⟨s, hRead, rfl⟩
  · exact hAdmitted.trace
  · exact Relation.ReflTransGen.tail hRead.trace .release

/-! ## Records of a withdrawn waiter -/

section Records

variable {r : GraphRollback} {g g' : FactGraph} {fact : SignedFact} {id : FactId} {cost : FactCost}

omit [Platform] in
private theorem captureWaiter_spec (fact : SignedFact) (id : FactId) (r : GraphRollback)
    (g : FactGraph) : Captures g r (captureWaiter fact id r g) ∧
      (captureWaiter fact id r g).HasAuthor fact.content.author ∧
      (captureWaiter fact id r g).HasWaiters g id ∧
      ∀ d ∈ fact.dependencies, d ∈ (captureWaiter fact id r g).waitingByDependency := by
  obtain ⟨hAuthor, hHasAuthor⟩ := r.captureAuthor_spec g fact.content.author
  obtain ⟨hOwn, hWaiters⟩ := (r.captureAuthor g fact.content.author).captureDependency_spec g id
  obtain ⟨hDeps, hAll⟩ := GraphRollback.captureDependencies_spec
    ((r.captureAuthor g fact.content.author).captureDependency g id) g fact.dependencies
  exact ⟨(hAuthor.trans hOwn).trans hDeps, (hOwn.trans hDeps).author _ hHasAuthor,
    GraphRollback.waiters_of_captures hDeps hWaiters, fun d hd => (hAll d hd).entry⟩

/-- What the captures before a withdrawal record. -/
structure HasWithdrawal (r : GraphRollback) (g : FactGraph) (fact : SignedFact) : Prop where
  row : r.HasRow fact.id
  author : r.HasAuthor fact.content.author
  indexes : fact.id ∉ g.facts → r.HasIndexes g fact
  waiters : r.HasWaiters g fact.id
  dependencies : ∀ d ∈ fact.dependencies, d ∈ r.waitingByDependency

omit [Platform] in
theorem captureWithdrawal_spec (hShape : QuarantineShape g) (hGet : g.quarantined[id]? = some fact) :
    Captures g r (captureWaiter fact id (r.captureFact g id) g) ∧
      HasWithdrawal (captureWaiter fact id (r.captureFact g id) g) g fact := by
  obtain ⟨hFact, hRow, hIndexes⟩ := r.captureFact_spec g id
  obtain ⟨hWaiter, hAuthor, hWaiters, hDeps⟩ := captureWaiter_spec fact id (r.captureFact g id) g
  obtain ⟨rfl, -⟩ := hShape id fact hGet
  refine ⟨hFact.trans hWaiter, hWaiter.row _ hRow, hAuthor, fun hNew => ?_, hWaiters, hDeps⟩
  refine hWaiter.indexes (hIndexes fact ?_)
  rw [Std.ExtTreeMap.getElem?_eq_none hNew, Option.none_or, hGet]

omit [Platform] in
private theorem dropWaiter_subset {waiting : OrdMap FactId (OrdSet FactId)} {waiter d k a : FactId}
    (h : a ∈ (FactGraph.dropWaiter waiting waiter d).getD k ∅) : a ∈ waiting.getD k ∅ := by
  unfold FactGraph.dropWaiter at h
  cases hGet : waiting[d]? with
  | none => rwa [hGet] at h
  | some waiters =>
    rw [hGet] at h
    dsimp only at h
    rw [getD_eq_getElem?_getD]
    by_cases hEq : d = k
    · subst hEq
      rw [hGet]
      split at h
      · simp [getD_eq_getElem?_getD] at h
      · rw [getD_eq_getElem?_getD, getElem?_insert_eq, if_pos rfl] at h
        exact (mem_erase_iff.mp h).2
    · split at h
      · rwa [getD_eq_getElem?_getD, getElem?_erase_of_ne hEq] at h
      · rwa [getD_eq_getElem?_getD, getElem?_insert_of_ne hEq] at h

omit [Platform] in
private theorem waitersOf_unstore {d a : FactId}
    (h : a ∈ GraphRollback.waitersOf (g.unstoreQuarantined fact id cost) d) :
    a ∈ GraphRollback.waitersOf g d := by
  unfold GraphRollback.waitersOf at h ⊢
  rw [Std.ExtTreeSet.mem_toList] at h ⊢
  change a ∈ ((g.quarantineMissing.getD id ∅).toList.foldl
    (fun waiting dependency => FactGraph.dropWaiter waiting id dependency)
    g.waitingByDependency).getD d ∅ at h
  generalize (g.quarantineMissing.getD id ∅).toList = missing at h
  generalize g.waitingByDependency = waiting at h ⊢
  induction missing generalizing waiting with
  | nil => exact h
  | cons dependency missing ih => exact dropWaiter_subset (ih _ h)

omit [Platform] in
theorem HasWithdrawal.withdraw (h : HasWithdrawal r g fact) (hShape : QuarantineShape g)
    (hGet : g.quarantined[fact.id]? = some fact) :
    ChangesWithin r g (g.unstoreQuarantined fact fact.id cost) :=
  .unstoreQuarantined h.row h.author fun d hd =>
    h.dependencies d ((hShape fact.id fact hGet).2 d hd)

private theorem HasWithdrawal.admission (h : HasWithdrawal r g fact) {other : FactCost}
    (hScreened : Screened (g.unstoreQuarantined fact fact.id cost) fact other) :
    r.HasAdmission (g.unstoreQuarantined fact fact.id cost) fact other.missing := by
  have hIndexes := h.indexes hScreened.fresh
  exact ⟨h.row, h.author, ⟨hIndexes.own, hIndexes.related, hIndexes.lineages, hIndexes.cells⟩,
    fun _ => ⟨h.waiters.entry, fun a ha => h.waiters.rows a (waitersOf_unstore ha)⟩,
    fun d hd => h.dependencies d (missing_subset hScreened.costed hd)⟩

private theorem HasWithdrawal.costOf {P : FactCost → Prop}
    (h : ∀ other, Screened g fact other → P other) (other : FactCost)
    (hCost : CostOf g fact none other) : P other := by
  rcases hCost with hNone | ⟨-, hScreened⟩
  · cases hNone
  · exact h other hScreened

theorem HasWithdrawal.admitted (h : HasWithdrawal r g fact) {admission : Admission}
    (hAdmitted : Admitted (g.unstoreQuarantined fact fact.id cost) fact true none none [] admission
      g') : ChangesWithin r (g.unstoreQuarantined fact fact.id cost) g' :=
  hAdmitted.changes (HasWithdrawal.costOf fun _ => h.admission)
    (HasWithdrawal.costOf fun _ hScreened => hScreened.fresh)

theorem HasWithdrawal.failed (h : HasWithdrawal r g fact)
    (hFailed : AdmitFailed (g.unstoreQuarantined fact fact.id cost) fact none error g') :
    ChangesWithin r (g.unstoreQuarantined fact fact.id cost) g' :=
  hFailed.changes (HasWithdrawal.costOf fun _ => h.admission)
    (HasWithdrawal.costOf fun _ hScreened => hScreened.fresh)

end Records

/-! ## The state of a retry -/

/-- What every run keeps, wherever it starts. -/
theorem Trace.kept (h : Trace late g g') (hShape : QuarantineShape g)
    (hCurrent : g.indexesCurrent = true) (hCommitted : CommittedCache g) :
    QuarantineShape g' ∧ g'.indexesCurrent = true ∧ CommittedCache g' := by
  induction h with
  | refl => exact ⟨hShape, hCurrent, hCommitted⟩
  | tail _ hStep ih => exact ⟨ih.1.step hStep, hStep.indexesCurrent ih.2.1, ih.2.2.step hStep⟩

/-- What a retry keeps in every state: its record leads back to the base. -/
structure Retrying (base : FactGraph) (entries : SparseEntries) (r : GraphRollback)
    (g : FactGraph) : Prop where
  undoable : Undoable r base g
  sparse : r.projectionSparse = entries
  shape : QuarantineShape g
  current : g.indexesCurrent = true
  committed : CommittedCache g
  deferral : g.deferProjectionCommitment = base.deferProjectionCommitment

/-- A waiter whose turn ends the retry: its cost cannot be counted, or its
admission is refused for a reason that does not drop it. -/
def WaiterRefused (g : FactGraph) (id : FactId) (error : SemanticError) : Prop :=
  ∃ fact, g.quarantined[id]? = some fact ∧ (g.factCost fact = .error error ∨
    ∃ cost, g.factCost fact = .ok cost ∧
      ((g.unstoreQuarantined fact id cost).factCost fact = .error error ∨
      ∃ g', exec (admitInnerWithStaged fact true []) (g.unstoreQuarantined fact id cost) =
          (.error error, g') ∧
        isTerminalWaiterError g' fact.content.body fact.dependencies error = false))

namespace Retrying

variable {base : FactGraph} {entries : SparseEntries} {r : GraphRollback} {g g' : FactGraph}

theorem capture (h : Retrying base entries r g) {r' : GraphRollback}
    (hCaptures : Captures g r r') : Retrying base entries r' g :=
  ⟨h.undoable.capture hCaptures, hCaptures.sparse.trans h.sparse, h.shape, h.current, h.committed,
    h.deferral⟩

theorem change (h : Retrying base entries r g) (hChanges : ChangesWithin r g g')
    (hShape : QuarantineShape g') (hCurrent : g'.indexesCurrent = true)
    (hCommitted : CommittedCache g') : Retrying base entries r g' :=
  ⟨h.undoable.change hChanges, h.sparse, hShape, hCurrent, hCommitted,
    hChanges.deferral.trans h.deferral⟩

theorem step (h : Retrying base entries r g) {late : Prop} (hChanges : ChangesWithin r g g')
    (hTrace : Trace late g g') : Retrying base entries r g' := by
  obtain ⟨hShape, hCurrent, hCommitted⟩ := hTrace.kept h.shape h.current h.committed
  exact h.change hChanges hShape hCurrent hCommitted

theorem failed (h : Retrying base entries r g) (hChanges : ChangesWithin r g g')
    (hFailed : AdmitFailed g fact validatedCost error g') : Retrying base entries r g' := by
  rcases hFailed with hRead | ⟨-, cost, t, changes, bytes, cache, hCache, -, -, ht, -, rfl⟩
  · exact h.step hChanges (show Trace True _ _ from hRead.trace)
  · refine h.change hChanges ?_ (storedGraph_indexesCurrent _ _ _ _ _ _) ?_
    · have hShape : QuarantineShape t := by
        rw [ht.cacheOnly]
        exact h.shape.congr rfl rfl
      unfold storedGraph
      rw [storeAdmitted_eq]
      exact hShape.congr rfl rfl
    · rcases hCache with rfl | rfl
      · exact .of_none rfl
      · refine (h.committed.readOnly ht).congr rfl ?_
        unfold storedGraph
        rw [storeAdmitted_eq]

/-- Restoring a record leads back to its base. -/
theorem undone (h : Retrying base entries r g) (hRebuild : Rebuildable base) :
    Undone base entries (g.projectionCache.map Prod.snd) (r.restore g) := by
  refine ⟨?_, fun hDefer projection hSome => ?_⟩
  · rw [h.undoable.restore_eq hRebuild, h.sparse, h.deferral]
  · obtain ⟨⟨generation, _⟩, hCache, rfl⟩ := Option.map_eq_some_iff.mp hSome
    exact h.committed (h.deferral.trans hDefer) generation _ hCache

end Retrying

/-! ## Taking up one waiter -/

omit [Platform] in
theorem exec_onGraph {α : Type} (m : GraphM α) (s : RetryState) :
    exec (RetryM.onGraph m) s =
      ((exec m s.graph).1, { s with graph := (exec m s.graph).2 }) := by
  unfold RetryM.onGraph
  rw [exec_bind, exec_get]
  dsimp only
  change exec (set { s with graph := (exec m s.graph).2 } >>= fun _ =>
    ExceptT.mk (pure (exec m s.graph).1)) s = _
  rw [exec_bind, exec_set]
  rfl

omit [Platform] in
theorem triple_onGraph {α : Type} {m : GraphM α} {P : RetryState → Prop}
    {Q : α → RetryState → Prop} {E : SemanticError → RetryState → Prop}
    (h : ∀ s, P s → Meets (fun a g => Q a { s with graph := g })
      (fun e g => E e { s with graph := g }) (exec m s.graph)) :
    Triple P (RetryM.onGraph m) Q E := by
  intro s hs
  have hMeets := h s hs
  rw [exec_onGraph]
  revert hMeets
  cases exec m s.graph with
  | mk result g => cases result <;> exact id

omit [Platform] in
/-- An attempt meets what the program meets, as a result. -/
theorem triple_attempt {α : Type} {m : GraphM α} {P : FactGraph → Prop}
    {Q : α → FactGraph → Prop} {E F : SemanticError → FactGraph → Prop} (h : Triple P m Q E) :
    Triple P m.attempt (fun result g => Meets Q E (result, g)) F :=
  h

/-- One turn of a retry without failure: a stale identity leaves the ready set,
or a ready waiter is withdrawn and admitted again or dropped. -/
inductive TakeUp : FactGraph → FactGraph → Prop
  | unready {g : FactGraph} {id : FactId} : g.quarantined[id]? = none →
      TakeUp g { g with readyQuarantine := g.readyQuarantine.erase id }
  | promoted {g g' : FactGraph} {fact : SignedFact} {cost charged : FactCost} :
      g.quarantined[fact.id]? = some fact → fact.id ∈ g.readyQuarantine →
      g.factCost fact = .ok cost →
      Promoted (g.unstoreQuarantined fact fact.id cost) fact charged g' → TakeUp g g'

def RetryRun : FactGraph → FactGraph → Prop := Relation.ReflTransGen TakeUp

theorem RetryRun.trace (h : RetryRun g g') : Trace late g g' := by
  induction h with
  | refl => exact .refl
  | tail _ hTurn ih =>
    cases hTurn with
    | unready hNone => exact ih.tail (.unready hNone)
    | promoted hGet _ hCost hPromoted =>
      exact (ih.tail (.withdraw hGet hCost)).trans hPromoted.trace

section Ready

variable {g g' : FactGraph} {fact : SignedFact} {a : FactId}

omit [Platform] in
private theorem wakeDependency_ready (g : FactGraph) (d : FactId) (h : a ∈ g.readyQuarantine) :
    a ∈ (g.wakeDependency d).readyQuarantine := by
  unfold FactGraph.wakeDependency
  split
  · exact h
  · refine List.foldlRecOn (motive := fun s : FactGraph => a ∈ s.readyQuarantine) _ _ h
      fun s hs waiter _ => ?_
    unfold FactGraph.wakeWaiter
    split
    · exact hs
    · dsimp only
      split
      · exact mem_insert_iff.mpr (.inr hs)
      · exact hs

private theorem Admitted.ready {retainedReserved : Bool} {admission : Admission}
    (h : Admitted g fact retainedReserved none none [] admission g') (ha : a ∈ g.readyQuarantine) :
    a ∈ g'.readyQuarantine := by
  have hRead {s : FactGraph} (hs : ReadOnly g s) : a ∈ s.readyQuarantine := by
    rw [hs.cacheOnly]
    exact ha
  cases h with
  | alreadyPresent _ _ hs => exact hRead hs
  | @quarantined _ s _ _ hs _ _ =>
    have hReady : a ∈ s.readyQuarantine := hRead hs
    cases retainedReserved <;> exact hReady
  | inserted _ _ _ _ ht hInserted =>
    obtain ⟨changes, bytes, -, -, -, rfl⟩ := hInserted.exists_plan
    refine wakeDependency_ready _ _ ?_
    cases retainedReserved <;>
      simpa [storedGraph, storeAdmitted_eq, FactGraph.retainAuthor] using hRead ht

/-- A turn leaves the other ready waiters ready. -/
private theorem Promoted.ready {cost charged : FactCost}
    (h : Promoted (g.unstoreQuarantined fact fact.id cost) fact charged g') (hNe : fact.id ≠ a)
    (ha : a ∈ g.readyQuarantine) : a ∈ g'.readyQuarantine := by
  have hErased : a ∈ (g.unstoreQuarantined fact fact.id cost).readyQuarantine :=
    mem_erase_iff.mpr ⟨hNe, ha⟩
  rcases h with ⟨_, hAdmitted⟩ | ⟨s, hRead, rfl⟩
  · exact hAdmitted.ready hErased
  · change a ∈ s.readyQuarantine
    rw [hRead.cacheOnly]
    exact hErased

end Ready

section Loops

variable {base : FactGraph} {entries : SparseEntries} {T : FactGraph → Prop}

/-- A property of graphs that every turn of a retry keeps. -/
def KeptByRetry (T : FactGraph → Prop) : Prop := ∀ g g', TakeUp g g' → T g → T g'

theorem keptByRetry_run (start : FactGraph) : KeptByRetry (RetryRun start) :=
  fun _ _ hTurn hRun => hRun.tail hTurn

/-- A retry without failure so far. -/
def OnTrack (base : FactGraph) (entries : SparseEntries) (T : FactGraph → Prop) (s : RetryState) :
    Prop :=
  Retrying base entries s.rollback s.graph ∧ T s.graph

/-- A retry that has failed: it can still be undone, and a waiter or an exhausted
capacity is to blame. -/
def OffTrack (base : FactGraph) (entries : SparseEntries) (T : FactGraph → Prop)
    (error : SemanticError) (s : RetryState) : Prop :=
  Retrying base entries s.rollback s.graph ∧
    (error.isCapacity = true ∨ ∃ g id, T g ∧ WaiterRefused g id error)

variable {id : FactId} {fact : SignedFact}

/-- Withdrawing a waiter of the quarantine. -/
private theorem removeQuarantine_spec (hGet : g.quarantined[id]? = some fact) :
    Triple (· = g) (removeQuarantine id)
      (fun withdrawn g' => withdrawn = some fact ∧
        ∃ cost, g.factCost fact = .ok cost ∧ g' = g.unstoreQuarantined fact id cost)
      (fun error g' => g' = g ∧ g.factCost fact = .error error) := by
  unfold removeQuarantine
  refine triple_read ?_
  rw [hGet]
  refine triple_bind (Q := fun cost g' => g' = g ∧ g.factCost fact = .ok cost)
    (triple_check (fun _ ha _ hs => ⟨hs, ha⟩) fun _ he _ hs => ⟨hs, he⟩) fun cost => ?_
  refine triple_assume fun hCost => ?_
  refine triple_bind (Q := fun _ g' => g' = g.unstoreQuarantined fact id cost)
    (triple_modify fun s hs => hs ▸ rfl) fun _ => triple_pure fun s hs => ⟨rfl, cost, hCost, hs⟩

/-- A waiter withdrawn from the graph `g`, in the state of a retry. -/
structure Withdrawn (base : FactGraph) (entries : SparseEntries) (T : FactGraph → Prop)
    (g : FactGraph) (fact : SignedFact) (cost : FactCost) (t : RetryState) : Prop where
  waiting : g.quarantined[fact.id]? = some fact
  costed : g.factCost fact = .ok cost
  graph : t.graph = g.unstoreQuarantined fact fact.id cost
  record : HasWithdrawal t.rollback g fact
  before : T g
  retrying : Retrying base entries t.rollback t.graph

variable {s : RetryState}

private theorem withdraw_spec (hs : OnTrack base entries T s)
    (hGet : s.graph.quarantined[id]? = some fact)
    (hRecord : HasWithdrawal s.rollback s.graph fact) :
    Triple (· = s) (RetryM.onGraph (removeQuarantine id))
      (fun withdrawn t => withdrawn = some fact ∧
        ∃ cost, Withdrawn base entries T s.graph fact cost t)
      (OffTrack base entries T) := by
  obtain ⟨rfl, -⟩ := hs.1.shape id fact hGet
  refine triple_onGraph fun t ht => ?_
  rw [ht]
  refine (removeQuarantine_spec hGet).weaken (fun _ h => h) ?_ ?_ s.graph rfl
  · rintro withdrawn g' ⟨rfl, cost, hCost, rfl⟩
    have hStep : Step True s.graph (s.graph.unstoreQuarantined fact fact.id cost) :=
      .withdraw hGet hCost
    exact ⟨rfl, cost, hGet, hCost, rfl, hRecord, hs.2,
      hs.1.step (hRecord.withdraw hs.1.shape hGet) (.single hStep)⟩
  · rintro error g' ⟨rfl, hCost⟩
    exact ⟨hs.1, .inr ⟨s.graph, fact.id, hs.2, fact, hGet, .inl hCost⟩⟩

namespace Withdrawn

variable {g : FactGraph} {fact : SignedFact} {cost : FactCost} {t : RetryState}

private theorem cost_spec (h : Withdrawn base entries T g fact cost t) :
    Triple (· = t) (RetryM.onGraph do GraphM.check ((← get).factCost fact))
      (fun _ u => u = t) (OffTrack base entries T) := by
  refine triple_onGraph fun u hu => ?_
  rw [hu]
  change Meets _ _ (t.graph.factCost fact, t.graph)
  cases hCost : t.graph.factCost fact with
  | ok _ => exact rfl
  | error error =>
    refine ⟨h.retrying, .inr ⟨g, fact.id, h.before, fact, h.waiting, .inr
      ⟨cost, h.costed, .inl ?_⟩⟩⟩
    rw [← h.graph]
    exact hCost

private theorem failed (h : Withdrawn base entries T g fact cost t)
    (hFailed : AdmitFailed t.graph fact none error g') : Retrying base entries t.rollback g' := by
  refine h.retrying.failed ?_ hFailed
  rw [h.graph] at hFailed ⊢
  exact h.record.failed hFailed

private theorem promoted (hT : KeptByRetry T) (h : Withdrawn base entries T g fact cost t)
    {charged : FactCost} (hPromoted : Promoted t.graph fact charged g') :
    Retrying base entries t.rollback g' ∧ (fact.id ∈ g.readyQuarantine → T g') ∧
      ∀ a ∈ g.readyQuarantine, fact.id ≠ a → a ∈ g'.readyQuarantine := by
  rw [h.graph] at hPromoted
  refine ⟨h.retrying.step ?_ (show Trace True _ _ from h.graph ▸ hPromoted.trace), fun hReady =>
    hT g g' (.promoted h.waiting hReady h.costed hPromoted) h.before,
    fun a ha hNe => hPromoted.ready hNe ha⟩
  rw [h.graph]
  rcases hPromoted with ⟨_, hAdmitted⟩ | ⟨s, hRead, rfl⟩
  · exact h.record.admitted hAdmitted
  · exact ChangesWithin.trans (.of_cacheOnly hRead.cacheOnly) (.releaseAuthor h.record.author)

private theorem promote (hT : KeptByRetry T) (hReady : fact.id ∈ g.readyQuarantine)
    (h : Withdrawn base entries T g fact cost t) (charged : FactCost) :
    Triple (· = t) (RetryM.onGraph (promoteWaiter isTerminalWaiterError [] fact charged))
      (fun _ s => OnTrack base entries T s ∧
        ∀ a ∈ g.readyQuarantine, fact.id ≠ a → a ∈ s.graph.readyQuarantine)
      (OffTrack base entries T) := by
  refine triple_onGraph fun u hu => ?_
  rw [hu]
  refine (promoteWaiter_spec h.retrying.current).weaken (fun _ h => h) ?_ ?_ t.graph rfl
  · intro _ g' hPromoted
    obtain ⟨hRetrying, hKept, hOthers⟩ := h.promoted hT hPromoted
    exact ⟨⟨hRetrying, hKept hReady⟩, hOthers⟩
  · rintro error g' ⟨hFailed, hRun, hTerminal⟩
    exact ⟨h.failed hFailed, .inr ⟨g, fact.id, h.before, fact, h.waiting, .inr
      ⟨cost, h.costed, .inr ⟨g', h.graph ▸ hRun, hTerminal⟩⟩⟩⟩

end Withdrawn

/-! ## The bounded retry -/

/-- One ready waiter is tried; the others stay ready. -/
theorem retryOne_spec (hT : KeptByRetry T) (hs : OnTrack base entries T s)
    (hReady : id ∈ s.graph.readyQuarantine) :
    Triple (· = s) (retryOne [] id)
      (fun _ t => OnTrack base entries T t ∧
        ∀ a ∈ s.graph.readyQuarantine, id ≠ a → a ∈ t.graph.readyQuarantine)
      (OffTrack base entries T) := by
  unfold retryOne
  refine triple_read (triple_ite (fun _ => ?_) fun _ => ?_)
  · refine triple_pure ?_
    rintro _ rfl
    exact ⟨hs, fun _ ha _ => ha⟩
  refine triple_run rfl (triple_run rfl (triple_read ?_))
  dsimp only
  obtain ⟨hCaptures, hRow, -⟩ := s.rollback.captureFact_spec s.graph id
  cases hGet : s.graph.quarantined[id]? with
  | none =>
    refine triple_onGraph fun t ht => ?_
    rw [ht]
    have hStep : Step True s.graph
        { s.graph with readyQuarantine := s.graph.readyQuarantine.erase id } := .unready hGet
    exact ⟨⟨(hs.1.capture hCaptures).step (.eraseReady hRow) (.single hStep),
      hT _ _ (.unready hGet) hs.2⟩, fun a ha hNe => mem_erase_iff.mpr ⟨hNe, ha⟩⟩
  | some fact =>
    obtain ⟨hWaiter, hRecord⟩ := captureWithdrawal_spec (r := s.rollback) hs.1.shape hGet
    refine triple_run rfl (triple_bind
      (withdraw_spec ⟨hs.1.capture hWaiter, hs.2⟩ hGet hRecord)
      fun withdrawn => triple_of_forall ?_)
    rintro t ⟨rfl, cost, hWithdrawn⟩
    obtain ⟨rfl, -⟩ := hs.1.shape id fact hGet
    refine triple_bind hWithdrawn.cost_spec fun charged => ?_
    exact triple_bind (hWithdrawn.promote hT hReady charged) fun _ => triple_modify fun _ h => h

/-- One round: a waiter stays ready until its turn. -/
private theorem retryList_spec (hT : KeptByRetry T) (ids : List FactId) : ids.Nodup →
    ∀ s : RetryState, OnTrack base entries T s → (∀ id ∈ ids, id ∈ s.graph.readyQuarantine) →
      Triple (· = s) (ids.forM (retryOne [])) (fun _ => OnTrack base entries T)
        (OffTrack base entries T) := by
  induction ids with
  | nil => exact fun _ s hs _ => triple_pure fun t ht => ht ▸ hs
  | cons id ids ih =>
    intro hNodup s hs hReady
    obtain ⟨hHead, hRest⟩ := List.nodup_cons.mp hNodup
    refine triple_bind (retryOne_spec hT hs (hReady id List.mem_cons_self)) fun _ =>
      triple_of_forall fun t ht => ih hRest t ht.1 fun a ha => ?_
    exact ht.2 a (hReady a (List.mem_cons_of_mem id ha)) fun hEq => hHead (hEq ▸ ha)

/-- **A bounded retry** is a sequence of turns, or fails with a way back. -/
theorem retryRounds_spec (hT : KeptByRetry T) (batchLimit fuel : Nat) :
    Triple (OnTrack base entries T) (retryRounds batchLimit [] fuel)
      (fun _ => OnTrack base entries T) (OffTrack base entries T) := by
  induction fuel with
  | zero => exact triple_pure fun _ h => h
  | succ fuel ih =>
    unfold retryRounds
    refine triple_of_forall fun s hs => triple_read (triple_ite (fun _ => ?_) fun _ => ?_)
    · refine triple_ite (fun _ => triple_pure fun t ht => ht ▸ hs) fun _ => ?_
      refine triple_throw fun t ht => ?_
      rw [ht]
      exact ⟨hs.1, .inl rfl⟩
    · refine triple_bind (retryList_spec hT _ ?_ s hs fun id hId => ?_) fun _ => ih
      · exact ((toList_nodup _).filter _).sublist (List.take_sublist _ _)
      · exact Std.ExtTreeSet.mem_toList.mp (List.mem_filter.mp (List.mem_of_mem_take hId)).1

theorem retryQuarantinedBatchBounded_spec (hT : KeptByRetry T) (batchLimit : Nat) :
    Triple (OnTrack base entries T) (retryQuarantinedBatchBounded batchLimit [])
      (fun _ => OnTrack base entries T) (OffTrack base entries T) := by
  unfold retryQuarantinedBatchBounded
  refine triple_of_forall fun s hs => triple_run rfl (triple_read ?_)
  exact (retryRounds_spec hT batchLimit _).weaken (fun t ht => ht ▸ hs) (fun _ _ h => h)
    fun _ _ h => h

/-! ## The unbounded retry -/

/-- The unbounded retry goes on after a failure; it is on track while none is
remembered. -/
def Gathering (base : FactGraph) (entries : SparseEntries) (T : FactGraph → Prop)
    (acc : List FactId × Option SemanticError) (s : RetryState) : Prop :=
  OnTrack base entries (fun g => acc.2 = none → T g) s

private theorem KeptByRetry.guarded (hT : KeptByRetry T) (φ : Prop) :
    KeptByRetry fun g => φ → T g :=
  fun g g' hTurn h hφ => hT g g' hTurn (h hφ)

/-- Admitting a withdrawn waiter, whatever comes of it. -/
private theorem Withdrawn.attempt {cost : FactCost} {t : RetryState}
    (h : Withdrawn base entries T g fact cost t) :
    Triple (· = t) (RetryM.onGraph (admitInner fact true).attempt)
      (fun result u => u.rollback = t.rollback ∧ match result with
        | .ok _ => Promoted t.graph fact cost u.graph
        | .error error => AdmitFailed t.graph fact none error u.graph)
      (OffTrack base entries T) := by
  refine triple_onGraph fun u hu => ?_
  rw [hu]
  have hMeets : Meets (Admitted t.graph fact true none none []) (AdmitFailed t.graph fact none)
      (exec (admitInner fact true) t.graph) :=
    admitInnerWithProjectionStaged_spec h.retrying.current t.graph rfl
  have hAttempt : exec (admitInner fact true).attempt t.graph =
      (.ok (exec (admitInner fact true) t.graph).1, (exec (admitInner fact true) t.graph).2) := rfl
  rw [hAttempt]
  revert hMeets
  cases exec (admitInner fact true) t.graph with
  | mk result g' =>
    cases result with
    | ok admission => exact fun hAdmitted => ⟨rfl, .inl ⟨admission, hAdmitted⟩⟩
    | error error => exact fun hFailed => ⟨rfl, hFailed⟩

/-- Taking up one waiter of an unbounded retry. -/
theorem retryReady_spec (hT : KeptByRetry T) {acc : List FactId × Option SemanticError}
    (hs : Gathering base entries T acc s) (hReady : acc.2 = none → id ∈ s.graph.readyQuarantine) :
    Triple (· = s) (retryReady acc id)
      (fun acc' t => Gathering base entries T acc' t ∧ (acc'.2 = none → acc.2 = none ∧
        ∀ a ∈ s.graph.readyQuarantine, id ≠ a → a ∈ t.graph.readyQuarantine))
      (fun _ t => Retrying base entries t.rollback t.graph) := by
  have hGuarded := hT.guarded (acc.2 = none)
  have hOff : ∀ error s, OffTrack base entries (fun g => acc.2 = none → T g) error s →
      Retrying base entries s.rollback s.graph := fun _ _ h => h.1
  unfold retryReady
  refine triple_run rfl (triple_read ?_)
  dsimp only
  obtain ⟨hCaptures, hRow, -⟩ := s.rollback.captureFact_spec s.graph id
  cases hGet : s.graph.quarantined[id]? with
  | none =>
    have hStep : Step True s.graph
        { s.graph with readyQuarantine := s.graph.readyQuarantine.erase id } := .unready hGet
    have hRun : exec (removeQuarantine id) s.graph =
        (.ok none, { s.graph with readyQuarantine := s.graph.readyQuarantine.erase id }) := by
      unfold removeQuarantine
      rw [exec_bind, exec_get]
      dsimp only
      rw [hGet]
      rfl
    refine triple_run (by rw [exec_onGraph, hRun]) (triple_pure ?_)
    rintro _ rfl
    exact ⟨⟨(hs.1.capture hCaptures).step (.eraseReady hRow) (.single hStep),
      hGuarded _ _ (.unready hGet) hs.2⟩,
      fun hNone => ⟨hNone, fun a ha hNe => mem_erase_iff.mpr ⟨hNe, ha⟩⟩⟩
  | some fact =>
    obtain ⟨hWaiter, hRecord⟩ := captureWithdrawal_spec (r := s.rollback) hs.1.shape hGet
    refine triple_run rfl (triple_bind
      (Triple.weakenError (withdraw_spec ⟨hs.1.capture hWaiter, hs.2⟩ hGet hRecord) hOff)
      fun withdrawn => triple_of_forall ?_)
    rintro t ⟨rfl, cost, hWithdrawn⟩
    obtain ⟨rfl, -⟩ := hs.1.shape id fact hGet
    refine triple_bind (hWithdrawn.cost_spec.weakenError hOff) fun charged => ?_
    refine triple_bind (hWithdrawn.attempt.weakenError hOff) fun result => ?_
    refine triple_of_forall ?_
    rintro u ⟨hRollback, hResult⟩
    cases result with
    | ok admission =>
      obtain ⟨hRetrying, hKept, hOthers⟩ := hWithdrawn.promoted hGuarded hResult
      have hDone : ∀ acc' : List FactId × Option SemanticError, acc'.2 = acc.2 →
          Gathering base entries T acc' u ∧ (acc'.2 = none → acc.2 = none ∧
            ∀ a ∈ s.graph.readyQuarantine, fact.id ≠ a → a ∈ u.graph.readyQuarantine) := by
        intro acc' hEq
        unfold Gathering
        rw [hEq]
        exact ⟨⟨hRollback ▸ hRetrying, fun hNone => hKept (hReady hNone) hNone⟩,
          fun hNone => ⟨hNone, hOthers⟩⟩
      cases admission <;> exact triple_pure fun t ht => ht ▸ hDone _ rfl
    | error error =>
      have hRetrying : Retrying base entries u.rollback u.graph := by
        rw [hRollback]
        exact hWithdrawn.failed hResult
      have hRelease : Step True u.graph (u.graph.releaseAuthor fact.content.author charged) :=
        .release
      have hHasAuthor : u.rollback.HasAuthor fact.content.author := by
        rw [hRollback]
        exact hWithdrawn.record.author
      refine triple_read (triple_bind (Q := fun _ v =>
        v = { u with graph := u.graph.releaseAuthor fact.content.author charged })
        (triple_onGraph fun v hv => by rw [hv]; rfl) fun _ => triple_pure ?_)
      rintro _ rfl
      have hReleased := hRetrying.step (.releaseAuthor hHasAuthor) (.single hRelease)
      split
      · next hTerminal =>
          obtain ⟨-, hKept, hOthers⟩ := hWithdrawn.promoted hGuarded (.inr ⟨u.graph,
            hResult.readOnly (isCapacity_of_terminalAuthorization hTerminal), rfl⟩)
          exact ⟨⟨hReleased, fun hNone => hKept (hReady hNone) hNone⟩,
            fun hNone => ⟨hNone, hOthers⟩⟩
      · have hSome : ¬ acc.2.or (some error) = none := by
          cases acc.2 <;> simp
        exact ⟨⟨hReleased, fun hNone => absurd hNone hSome⟩, fun hNone => absurd hNone hSome⟩

/-- One round of the unbounded retry. -/
private theorem retryReadyList_spec (hT : KeptByRetry T) (ids : List FactId) : ids.Nodup →
    ∀ (acc : List FactId × Option SemanticError) (s : RetryState), Gathering base entries T acc s →
      (acc.2 = none → ∀ id ∈ ids, id ∈ s.graph.readyQuarantine) →
      Triple (· = s) (ids.foldlM retryReady acc) (Gathering base entries T)
        (fun _ t => Retrying base entries t.rollback t.graph) := by
  induction ids with
  | nil => exact fun _ acc s hs _ => triple_pure fun t ht => ht ▸ hs
  | cons id ids ih =>
    intro hNodup acc s hs hReady
    obtain ⟨hHead, hRest⟩ := List.nodup_cons.mp hNodup
    rw [List.foldlM_cons]
    refine triple_bind (retryReady_spec hT hs fun hNone => hReady hNone id List.mem_cons_self)
      fun acc' => triple_of_forall fun t ht => ih hRest acc' t ht.1 fun hNone a ha => ?_
    obtain ⟨hBefore, hOthers⟩ := ht.2 hNone
    exact hOthers a (hReady hBefore a (List.mem_cons_of_mem id ha)) fun hEq => hHead (hEq ▸ ha)

theorem retryAllRounds_spec (hT : KeptByRetry T) (batchLimit fuel : Nat) :
    ∀ acc, Triple (Gathering base entries T acc) (retryAllRounds batchLimit fuel acc)
      (Gathering base entries T) (fun _ s => Retrying base entries s.rollback s.graph) := by
  induction fuel with
  | zero => exact fun acc => triple_pure fun _ h => h
  | succ fuel ih =>
    intro acc
    unfold retryAllRounds
    refine triple_of_forall fun s hs => triple_read (triple_ite (fun _ => ?_) fun _ => ?_)
    · exact triple_pure fun t ht => ht ▸ hs
    · refine triple_bind (retryReadyList_spec hT _ ?_ acc s hs fun _ id hId => ?_) ih
      · exact (toList_nodup _).sublist (List.take_sublist _ _)
      · exact Std.ExtTreeSet.mem_toList.mp (List.mem_of_mem_take hId)

end Loops

/-- **An unbounded retry** is a sequence of turns, or leaves the graph before it
with another cache. -/
theorem retryQuarantined_spec (hCurrent : g.indexesCurrent = true) (hRebuild : Rebuildable g)
    (hShape : QuarantineShape g) (hCommitted : CommittedCache g) :
    Triple (· = g) retryQuarantined (fun _ => RetryRun g)
      (fun _ g' => ∃ current, Undone g ⟨∅, ∅⟩ current g') := by
  let start : RetryState :=
    { graph := g, rollback := GraphRollback.new g, budget := 0, retryIds := [], processed := ∅ }
  have hRetrying : Retrying g ⟨∅, ∅⟩ start.rollback start.graph :=
    ⟨Undoable.new g, rfl, hShape, hCurrent, hCommitted, rfl⟩
  have hInner : Triple (· = start) retryQuarantinedInner (fun _ s => RetryRun g s.graph)
      (fun _ s => Retrying g ⟨∅, ∅⟩ s.rollback s.graph) := by
    unfold retryQuarantinedInner
    refine triple_read (triple_ite (fun _ => triple_throw ?_) fun _ => ?_)
    · rintro _ rfl
      exact hRetrying
    refine triple_bind (Q := Gathering g ⟨∅, ∅⟩ (RetryRun g))
      ((retryAllRounds_spec (keptByRetry_run g) _ _ _).weaken ?_ (fun _ _ h => h) fun _ _ h => h)
      fun acc => ?_
    · rintro _ rfl
      exact ⟨hRetrying, fun _ => .refl⟩
    obtain ⟨inserted, first⟩ := acc
    cases first with
    | none => exact triple_pure fun _ h => h.2 rfl
    | some error => exact triple_throw fun _ h => h.1
  unfold retryQuarantined
  refine triple_bind (Q := fun _ g' => g' = g) (triple_modify fun s hs => ?_) fun _ => ?_
  · rw [hs]
    exact if_pos hCurrent
  refine triple_read ?_
  generalize hRun : StateT.run (ExceptT.run retryQuarantinedInner) _ = outcome
  have hMeets : Meets (fun _ s => RetryRun g s.graph)
      (fun _ s => Retrying g ⟨∅, ∅⟩ s.rollback s.graph) outcome := hRun ▸ hInner start rfl
  obtain ⟨result, state⟩ := outcome
  cases result with
  | ok inserted => exact triple_run rfl (triple_pure fun t ht => ht ▸ hMeets)
  | error error =>
    refine triple_run rfl (triple_throw ?_)
    rintro _ rfl
    exact ⟨_, hMeets.undone hRebuild⟩

end MyOwnMesh.Semantic
