import MyOwnMesh.Semantic.Invariant

/-!
# What a group of admissions does

A group keeps one rollback record over all its inputs. Before an input is
applied the record takes in everything the input and the waiters it wakes may
change; the waiters that are ready already were recorded when the group began.
So the record covers the whole group although the apply phases inside it keep
records of their own, and a group that is given up or dropped leads back to the
graph before it.
-/

namespace MyOwnMesh.Semantic

open Foundation

/-! ## Recorded waiters -/

/-- The waiters a fact can wake, directly or through others, itself included. -/
def Wakes (g : FactGraph) : FactId → FactId → Prop := Relation.ReflTransGen (Awaits g)

theorem mem_waitersOf {g : FactGraph} (h : QuarantineExact g) {d w : FactId} :
    w ∈ GraphRollback.waitersOf g d ↔ Awaits g d w := by
  unfold GraphRollback.waitersOf
  rw [Std.ExtTreeSet.mem_toList]
  exact h.waiting.mem_iff d w

theorem mem_waiterClosure {g : FactGraph} (h : QuarantineExact g) {seeds : List FactId}
    {w : FactId} : w ∈ GraphRollback.waiterClosure g seeds ↔ ∃ seed ∈ seeds, Wakes g seed w := by
  unfold GraphRollback.waiterClosure
  rw [mem_traverse Std.ExtTreeMap.nodup_keys]
  · refine exists_congr fun seed => and_congr_right fun _ => ?_
    have hEdge : Edge (GraphRollback.waitersOf g) = Awaits g := by
      funext d w
      exact propext (mem_waitersOf h)
    rw [hEdge]
    rfl
  · intro d hWaiters
    obtain ⟨w, hw⟩ := List.exists_mem_of_ne_nil _ hWaiters
    rw [Std.ExtTreeMap.mem_keys, h.waiting.mem_key_iff]
    exact ⟨w, (mem_waitersOf h).mp hw⟩

open GraphRollback (Held)

/-! ## A shrinking quarantine -/

/-- Only waiting facts leave and only recorded facts are added, from `g` to `g'`. -/
structure Shrinks (r : GraphRollback) (g g' : FactGraph) : Prop where
  awaits : ∀ d w, Awaits g' d w → Awaits g d w
  quarantined : ∀ (id : FactId) (fact : SignedFact), g'.quarantined[id]? = some fact →
    g.quarantined[id]? = some fact
  facts : ∀ id : FactId, id ∈ g'.facts → id ∈ g.facts ∨ id ∈ r.authorityProvenance
  grows : ∀ id : FactId, id ∈ g.facts → id ∈ g'.facts
  staged : g'.stagedColdPending = g.stagedColdPending

namespace Shrinks

variable {r : GraphRollback} {g g' g'' : FactGraph}

theorem trans (h : Shrinks r g g') (h' : Shrinks r g' g'') : Shrinks r g g'' where
  awaits d w hw := h.awaits d w (h'.awaits d w hw)
  quarantined id fact hGet := h.quarantined id fact (h'.quarantined id fact hGet)
  facts id hId := (h'.facts id hId).elim (h.facts id) .inr
  grows id hId := h'.grows id (h.grows id hId)
  staged := h'.staged.trans h.staged

theorem of_cacheOnly (h : CacheOnly g g') : Shrinks r g g' := by
  rw [h]
  exact ⟨fun _ _ hw => hw, fun _ _ hGet => hGet, fun _ hId => .inl hId, fun _ hId => hId, rfl⟩

/-- What was recorded of a waiter is enough later. -/
theorem held (h : Shrinks r g g') (hExact : QuarantineExact g) (hExact' : QuarantineExact g')
    {id : FactId} (hHeld : Held r g id) : Held r g' id := by
  refine ⟨hHeld.row, ⟨hHeld.waiters.entry, fun w hw => ?_⟩, fun fact hGet => ?_⟩
  · exact hHeld.waiters.rows w
      ((mem_waitersOf hExact).mpr (h.awaits id w ((mem_waitersOf hExact').mp hw)))
  · obtain ⟨hAuthor, hIndexes⟩ := hHeld.fact fact (h.quarantined id fact hGet)
    refine ⟨hAuthor, fun hNew => ?_⟩
    have hOld := hIndexes fun hId => hNew (h.grows id hId)
    refine ⟨hOld.own, fun hAll a ha => ?_, hOld.lineages, hOld.cells⟩
    rw [h.staged] at hAll
    exact (h.facts a ha).elim (hOld.related hAll a) fun hRow => hRow

theorem wakes (h : Shrinks r g g') {a w : FactId} (hWakes : Wakes g' a w) : Wakes g a w :=
  Relation.ReflTransGen.mono h.awaits _ _ hWakes

variable {fact : SignedFact}

theorem unstoreQuarantined {id : FactId} {cost : FactCost} :
    Shrinks r g (g.unstoreQuarantined fact id cost) := by
  have hOld (a : FactId) (waiter : SignedFact)
      (hGet : (g.unstoreQuarantined fact id cost).quarantined[a]? = some waiter) :
      g.quarantined[a]? = some waiter := by
    have hGet : (g.quarantined.erase id)[a]? = some waiter := hGet
    rw [getElem?_erase_eq] at hGet
    split at hGet
    · cases hGet
    · exact hGet
  exact ⟨fun d w ⟨waiter, hGet, hd⟩ => ⟨waiter, hOld w waiter hGet, hd⟩, hOld,
    fun _ hId => .inl hId, fun _ hId => hId, rfl⟩

theorem stored (hFacts : g'.facts = g.facts.insert fact.id fact)
    (hQuarantined : g'.quarantined = g.quarantined)
    (hStaged : g'.stagedColdPending = g.stagedColdPending) (hOwn : fact.id ∈ r.authorityProvenance) :
    Shrinks r g g' where
  awaits d w := by
    rintro ⟨waiter, hGet, hd⟩
    rw [hQuarantined] at hGet
    rw [mem_missingOf, hFacts] at hd
    exact ⟨waiter, hGet, mem_missingOf.mpr
      ⟨hd.1, fun hOld => hd.2 (mem_map_insert_iff.mpr (.inr hOld))⟩⟩
  quarantined id waiter hGet := hQuarantined ▸ hGet
  facts id hId := by
    rw [hFacts, mem_map_insert_iff] at hId
    exact hId.elim (fun hEq => .inr (hEq ▸ hOwn)) .inl
  grows id hId := by
    rw [hFacts]
    exact mem_map_insert_iff.mpr (.inr hId)
  staged := hStaged

/-- A waiter becomes ready only when a stored fact was the last it missed. -/
theorem awaits_of_ready (hExact : QuarantineExact g) (hExact' : QuarantineExact g')
    (hFacts : g'.facts = g.facts.insert fact.id fact)
    (hQuarantined : g'.quarantined = g.quarantined) {a : FactId} (ha : a ∈ g'.readyQuarantine) :
    a ∈ g.readyQuarantine ∨ Awaits g fact.id a := by
  obtain ⟨waiter, hGet, hAll⟩ := (hExact'.ready a).mp ha
  rw [hQuarantined] at hGet
  by_cases hOld : ∀ d ∈ waiter.dependencies, d ∈ g.facts
  · exact .inl ((hExact.ready a).mpr ⟨waiter, hGet, hOld⟩)
  · obtain ⟨d, hd⟩ := not_forall.mp hOld
    obtain ⟨hDep, hMissing⟩ := Classical.not_imp.mp hd
    have hStored := hAll d hDep
    rw [hFacts, mem_map_insert_iff] at hStored
    obtain rfl := hStored.resolve_right hMissing
    exact .inr ⟨waiter, hGet, mem_missingOf.mpr ⟨hDep, hMissing⟩⟩

end Shrinks

/-! ## The state of a group -/

section Group

variable [Platform] {base g g' : FactGraph} {entries : SparseEntries} {r : GraphRollback}
  {fact : SignedFact}

/-- What a group keeps between its inputs: its record leads back to the base,
and covers whatever the ready waiters can wake. -/
structure Grouped (base : FactGraph) (entries : SparseEntries) (r : GraphRollback)
    (g : FactGraph) : Prop where
  undoable : Undoable r base g
  sparse : r.projectionSparse = entries
  sound : Sound g
  held : ∀ a ∈ g.readyQuarantine, ∀ w, Wakes g a w → Held r g w

theorem Grouped.change (h : Grouped base entries r g) (hChanges : ChangesWithin r g g')
    (hSound : Sound g') (hShrinks : Shrinks r g g')
    (hReady : ∀ a ∈ g'.readyQuarantine, ∃ b, (∀ w, Wakes g b w → Held r g w) ∧ Wakes g b a) :
    Grouped base entries r g' := by
  refine ⟨h.undoable.change hChanges, h.sparse, hSound, fun a ha w hWakes => ?_⟩
  obtain ⟨b, hHeld, hReach⟩ := hReady a ha
  exact hShrinks.held h.sound.quarantine hSound.quarantine
    (hHeld w (hReach.trans (hShrinks.wakes hWakes)))

theorem Grouped.of_cacheOnly (h : Grouped base entries r g) (hCache : CacheOnly g g')
    (hSound : Sound g') : Grouped base entries r g' := by
  refine h.change (.of_cacheOnly hCache) hSound (.of_cacheOnly hCache) fun a ha => ⟨a, ?_, .refl⟩
  rw [hCache] at ha
  exact h.held a ha

variable {cost : FactCost} {retainedReserved : Bool}

/-- The effect of an insertion on facts and waiters. -/
private theorem Inserted.rows {previous : Projection}
    (h : Inserted g fact cost retainedReserved previous [] g') :
    g'.facts = g.facts.insert fact.id fact ∧ g'.quarantined = g.quarantined ∧
      g'.stagedColdPending = g.stagedColdPending := by
  obtain ⟨changes, bytes, -, -, -, rfl⟩ := h.exists_plan
  rw [(QuarantineExact.wakeDependency_rows _ _).1, (QuarantineExact.wakeDependency_rows _ _).2,
    CoreFrame.wakeDependency _ fact.id]
  cases retainedReserved <;> simp [storedGraph, storeAdmitted_eq, FactGraph.retainAuthor]

/-- An insertion of a recorded fact, from a graph up to its cache. -/
private theorem Grouped.inserted {t : FactGraph} {previous : Projection}
    (h : Grouped base entries r g) (hChanges : ChangesWithin r g g') (hSound : Sound g')
    (hRead : CacheOnly g t) (hInserted : Inserted t fact cost retainedReserved previous [] g')
    (hOwn : fact.id ∈ r.authorityProvenance) (hHeld : ∀ w, Wakes g fact.id w → Held r g w) :
    Grouped base entries r g' := by
  obtain ⟨hFacts, hQuarantined, hStaged⟩ := hInserted.rows
  rw [hRead] at hFacts hQuarantined hStaged
  refine h.change hChanges hSound (.stored hFacts hQuarantined hStaged hOwn) fun a ha => ?_
  rcases Shrinks.awaits_of_ready h.sound.quarantine hSound.quarantine hFacts hQuarantined ha with
    hOld | hAwaits
  · exact ⟨a, h.held a hOld, .refl⟩
  · exact ⟨fact.id, hHeld, .single hAwaits⟩

/-- **A turn of a retry stays within the record of the group.** -/
theorem Grouped.takeUp (h : Grouped base entries r g) (hTurn : TakeUp g g') :
    Grouped base entries r g' := by
  cases hTurn with
  | @unready id hNone =>
    have hNotReady : id ∉ g.readyQuarantine := by
      intro hMem
      obtain ⟨_, hSome, -⟩ := (h.sound.quarantine.ready id).mp hMem
      rw [hNone] at hSome
      cases hSome
    have hErase : g.readyQuarantine.erase id = g.readyQuarantine := by
      refine set_ext fun a => ?_
      rw [mem_erase_iff]
      exact and_iff_right_of_imp fun ha hEq => hNotReady (hEq ▸ ha)
    rw [hErase]
    exact h
  | @promoted _ fact cost charged hGet hReady hCost hPromoted =>
    have hHeld : Held r g fact.id := h.held _ hReady _ .refl
    have hNew : fact.id ∉ g.facts :=
      h.sound.quarantine.fresh fact.id (mem_iff_exists.mpr ⟨fact, hGet⟩)
    obtain ⟨hAuthor, hIndexes⟩ := hHeld.fact fact hGet
    have hDeps : ∀ d ∈ fact.dependencies, d ∈ g.facts := by
      obtain ⟨_, hSome, hAll⟩ := (h.sound.quarantine.ready fact.id).mp hReady
      rw [hGet] at hSome
      exact Option.some.inj hSome ▸ hAll
    have hNoneMissing : ∀ d ∈ g.quarantineMissing.getD fact.id ∅, d ∈ r.waitingByDependency := by
      intro d hd
      rw [getD_eq_getElem?_getD, h.sound.quarantine.missing, hGet] at hd
      obtain ⟨hDep, hMissing⟩ := mem_missingOf.mp hd
      exact absurd (hDeps d hDep) hMissing
    have hStep : Step False g (g.unstoreQuarantined fact fact.id cost) := .withdraw hGet hCost
    have hShrinks : Shrinks r g (g.unstoreQuarantined fact fact.id cost) := .unstoreQuarantined
    have hSound := h.sound.step hStep
    have hWithdrawn : Grouped base entries r (g.unstoreQuarantined fact fact.id cost) :=
      h.change (.unstoreQuarantined hHeld.row hAuthor hNoneMissing) hSound hShrinks
        fun a ha => ⟨a, h.held a (mem_erase_iff.mp ha).2, .refl⟩
    have hWaiters := (hShrinks.held h.sound.quarantine hSound.quarantine hHeld).waiters
    have hNil {other : FactCost}
        (hScreened : Screened (g.unstoreQuarantined fact fact.id cost) fact other) :
        other.missing = [] := by
      rw [factCost_missing hScreened.costed, List.filter_eq_nil_iff]
      intro d hd
      have hMem : d ∈ (g.unstoreQuarantined fact fact.id cost).facts := hDeps d hd
      simpa using hMem
    have hRecord : ∀ other, CostOf (g.unstoreQuarantined fact fact.id cost) fact none other →
        r.HasAdmission (g.unstoreQuarantined fact fact.id cost) fact other.missing := by
      rintro other (hNone | ⟨-, hScreened⟩)
      · cases hNone
      · rw [hNil hScreened]
        exact ⟨hHeld.row, hAuthor, ⟨(hIndexes hNew).own, (hIndexes hNew).related,
          (hIndexes hNew).lineages, (hIndexes hNew).cells⟩, fun _ => hWaiters, by simp⟩
    have hTrace : Trace False _ g' := hPromoted.trace
    have hSound' := hSound.trace hTrace
    rcases hPromoted with ⟨admission, hAdmitted⟩ | ⟨s, hRead, rfl⟩
    · have hChanges := hAdmitted.changes hRecord fun _ _ => hNew
      cases hAdmitted with
      | alreadyPresent _ _ hRead => exact hWithdrawn.of_cacheOnly hRead.cacheOnly hSound'
      | quarantined hCostOf hMissing _ _ _ =>
        rcases hCostOf with hNone | ⟨-, hScreened⟩
        · cases hNone
        · exact absurd (hNil hScreened) hMissing
      | inserted _ _ _ _ hRead hInserted =>
        refine hWithdrawn.inserted hChanges hSound' hRead.cacheOnly hInserted
          (hIndexes hNew).own fun w hWakes => ?_
        exact hShrinks.held h.sound.quarantine hSound.quarantine
          (h.held fact.id hReady w (hShrinks.wakes hWakes))
    · refine hWithdrawn.change (ChangesWithin.trans (.of_cacheOnly hRead.cacheOnly)
        (.releaseAuthor hAuthor)) hSound' ?_ fun a ha => ⟨a, hWithdrawn.held a ?_, .refl⟩
      · have hRelease : Shrinks r s (s.releaseAuthor fact.content.author charged) :=
          ⟨fun _ _ hw => hw, fun _ _ hGet => hGet, fun _ hId => .inl hId, fun _ hId => hId, rfl⟩
        exact (Shrinks.of_cacheOnly hRead.cacheOnly).trans hRelease
      · have ha : a ∈ s.readyQuarantine := ha
        rwa [hRead.cacheOnly] at ha

theorem Grouped.retry (h : Grouped base entries r g) (hRun : RetryRun g g') :
    Grouped base entries r g' := by
  induction hRun with
  | refl => exact h
  | tail _ hTurn ih => exact ih.takeUp hTurn

/-! ## One input -/

/-- A recorded fact has to wait: what the ready waiters can wake grows by it and
by its own waiters. -/
private theorem Grouped.waits {s : FactGraph} (h : Grouped base entries r g) (hRead : CacheOnly g s)
    (hChanges : ChangesWithin r g (s.storeQuarantined fact cost retainedReserved))
    (hSound : Sound (s.storeQuarantined fact cost retainedReserved))
    (hRecord : r.HasAdmission g fact []) (hHeld : ∀ w, Wakes g fact.id w → Held r g w) :
    Grouped base entries r (s.storeQuarantined fact cost retainedReserved) := by
  have hExact' := hSound.quarantine
  obtain ⟨hFacts, hQuarantined, hReady, hStaged⟩ :
      (s.storeQuarantined fact cost retainedReserved).facts = g.facts ∧
      (s.storeQuarantined fact cost retainedReserved).quarantined =
        g.quarantined.insert fact.id fact ∧
      (s.storeQuarantined fact cost retainedReserved).readyQuarantine = g.readyQuarantine ∧
      (s.storeQuarantined fact cost retainedReserved).stagedColdPending = g.stagedColdPending := by
    rw [hRead]
    cases retainedReserved <;> exact ⟨rfl, rfl, rfl, rfl⟩
  generalize s.storeQuarantined fact cost retainedReserved = waited at *
  have hAwaits {d w : FactId} (hw : Awaits waited d w) : w = fact.id ∨ Awaits g d w := by
    obtain ⟨waiter, hGet, hd⟩ := hw
    rw [hFacts] at hd
    rw [hQuarantined, getElem?_insert_eq] at hGet
    split at hGet
    · next hEq => exact .inl hEq.symm
    · exact .inr ⟨waiter, hGet, hd⟩
  have hWakes {a w : FactId} (hw : Wakes waited a w) :
      w = fact.id ∨ Wakes g a w ∨ Wakes g fact.id w := by
    induction hw with
    | refl => exact .inr (.inl .refl)
    | tail _ hEdge ih =>
      rcases hAwaits hEdge with hEq | hOld
      · exact .inl hEq
      · rcases ih with rfl | hPath | hPath
        · exact .inr (.inr (.single hOld))
        · exact .inr (.inl (hPath.tail hOld))
        · exact .inr (.inr (hPath.tail hOld))
  have hIndexes {stored : SignedFact} (hOld : r.HasIndexes g stored) : r.HasIndexes waited stored := by
    refine ⟨hOld.own, fun hAll id hId => ?_, hOld.lineages, hOld.cells⟩
    rw [hStaged] at hAll
    rw [hFacts] at hId
    exact hOld.related hAll id hId
  have hWaiters {d : FactId} (hOld : r.HasWaiters g d) : r.HasWaiters waited d := by
    refine ⟨hOld.entry, fun w hw => ?_⟩
    rcases hAwaits ((mem_waitersOf hExact').mp hw) with rfl | hAwait
    · exact hRecord.row
    · exact hOld.rows w ((mem_waitersOf h.sound.quarantine).mpr hAwait)
  have hOwn : Held r waited fact.id := by
    refine ⟨hRecord.row, hWaiters (hRecord.waiters rfl), fun stored hGet => ?_⟩
    rw [hQuarantined, getElem?_insert_eq, if_pos rfl] at hGet
    rw [← Option.some.inj hGet]
    exact ⟨hRecord.author, fun _ => hIndexes hRecord.indexes⟩
  have hKept {w : FactId} (hNe : w ≠ fact.id) (hOld : Held r g w) : Held r waited w := by
    refine ⟨hOld.row, hWaiters hOld.waiters, fun stored hGet => ?_⟩
    rw [hQuarantined, getElem?_insert_eq, if_neg (Ne.symm hNe)] at hGet
    obtain ⟨hAuthor, hOldIndexes⟩ := hOld.fact stored hGet
    rw [hFacts]
    exact ⟨hAuthor, fun hNew => hIndexes (hOldIndexes hNew)⟩
  refine ⟨h.undoable.change hChanges, h.sparse, hSound, fun a ha w hw => ?_⟩
  by_cases hEq : w = fact.id
  · exact hEq ▸ hOwn
  · rcases hWakes hw with hNot | hPath | hPath
    · exact absurd hNot hEq
    · exact hKept hEq (h.held a (hReady ▸ ha) w hPath)
    · exact hKept hEq (hHeld w hPath)

theorem Grouped.capture {r' : GraphRollback} (h : Grouped base entries r g)
    (hCaptures : Captures g r r') : Grouped base entries r' g :=
  ⟨h.undoable.capture hCaptures, hCaptures.sparse.trans h.sparse, h.sound,
    fun a ha w hw => (h.held a ha w hw).captures hCaptures⟩

/-- The record of a group, extended before an input is applied. -/
def inputRecord (r : GraphRollback) (g : FactGraph) (fact : SignedFact) : GraphRollback :=
  (r.captureAdmission g fact).captureWaiterClosure g [fact.id]

omit [Platform] in
/-- An extended record covers the admission of the input and all it can wake. -/
theorem inputRecord_spec (h : QuarantineExact g) (r : GraphRollback) (fact : SignedFact) :
    Captures g r (inputRecord r g fact) ∧
      (∀ missing ⊆ fact.dependencies, (inputRecord r g fact).HasAdmission g fact missing) ∧
      ∀ w, Wakes g fact.id w → Held (inputRecord r g fact) g w := by
  obtain ⟨hFirst, hHas⟩ := r.captureAdmission_spec g fact
  obtain ⟨hSecond, hClosure⟩ :=
    (r.captureAdmission g fact).captureWaiterClosure_spec g [fact.id]
  refine ⟨hFirst.trans hSecond, fun missing hMissing => (hHas missing hMissing).captures hSecond,
    fun w hw => hClosure w ((mem_waiterClosure h).mpr ⟨fact.id, List.mem_singleton_self _, hw⟩)⟩

/-- **An applied input** stays within the record that was extended for it. -/
theorem Grouped.journaled {journal : AdmissionJournal} (h : Grouped base entries r g)
    (hJournaled : Journaled g fact journal g') :
    Grouped base entries (inputRecord r g fact) g' := by
  obtain ⟨hCaptures, hRecord, hHeld⟩ := inputRecord_spec h.sound.quarantine r fact
  have hExtended := h.capture hCaptures
  generalize inputRecord r g fact = r' at *
  cases hJournaled with
  | present _ _ _ _ => exact hExtended
  | @applied cost _ mid _ hScreened hAdmitted hRun _ _ _ =>
    refine Grouped.retry ?_ hRun
    have hTrace : Trace False g mid := hAdmitted.trace_taken hScreened
    have hSound := h.sound.trace hTrace
    have hTake : Step False g { g with projectionCache := none } := .take
    have hTakenSound := h.sound.step hTake
    have hTaken : Grouped base entries r' { g with projectionCache := none } :=
      hExtended.of_cacheOnly rfl hTakenSound
    have hOf (missing : List FactId) (hMissing : missing ⊆ fact.dependencies) :
        r'.HasAdmission { g with projectionCache := none } fact missing := by
      have hOld := hRecord missing hMissing
      exact ⟨hOld.row, hOld.author, ⟨hOld.indexes.own, hOld.indexes.related,
        hOld.indexes.lineages, hOld.indexes.cells⟩,
        fun hNil => ⟨(hOld.waiters hNil).entry, (hOld.waiters hNil).rows⟩, hOld.dependencies⟩
    have hShrinks : Shrinks r' g { g with projectionCache := none } := .of_cacheOnly rfl
    have hTakenHeld (w : FactId) (hw : Wakes { g with projectionCache := none } fact.id w) :
        Held r' { g with projectionCache := none } w :=
      hShrinks.held h.sound.quarantine hTakenSound.quarantine (hHeld w (hShrinks.wakes hw))
    have hCost {other : FactCost}
        (hOther : CostOf { g with projectionCache := none } fact (some cost) other) :
        other = cost := by
      rcases hOther with hEq | ⟨hNone, -⟩
      · exact (Option.some.inj hEq).symm
      · cases hNone
    have hChanges := hAdmitted.changes
      (fun other hOther => hOf other.missing (hCost hOther ▸ missing_subset hScreened.costed))
      fun _ _ => hScreened.fresh
    generalize journal.admission = admission at hAdmitted
    cases hAdmitted with
    | alreadyPresent hNone _ _ => cases hNone
    | quarantined _ _ hRead _ _ =>
      exact hTaken.waits hRead.cacheOnly hChanges hSound (hOf [] (List.nil_subset _)) hTakenHeld
    | inserted _ _ _ _ hRead hInserted =>
      exact hTaken.inserted hChanges hSound hRead.cacheOnly hInserted
        (hOf [] (List.nil_subset _)).indexes.own hTakenHeld

def AggregateAdmissionOutcome.isRefused : AggregateAdmissionOutcome → Bool
  | .refused .. => true
  | _ => false

/-- What holds between the inputs of a group. Without a refused input the group
went through the steps of journaled admissions; a refusal may have undone one. -/
structure InGroup (base : FactGraph) (entries : SparseEntries) (state : AggregateState)
    (g : FactGraph) : Prop where
  grouped : Grouped base entries state.rollback g
  deferred : g.deferProjectionCommitment = true
  trace : Trace True base g
  unrefused : (∀ outcome ∈ state.results, outcome.isRefused = false) → Trace False base g

/-- What a group leaves that was given up. -/
def GroupUndone (base : FactGraph) (entries : SparseEntries) (g : FactGraph) : Prop :=
  ∃ current, Undone base entries current g

theorem Grouped.begun (h : Grouped base entries r g) :
    Grouped base entries r g.beginDeferredProjectionCommitment := by
  have hDefer : Step False g g.beginDeferredProjectionCommitment := .defer
  refine ⟨h.undoable.reframed _ _ _, h.sparse, h.sound.step hDefer, fun a ha w hw => ?_⟩
  have hHeld := h.held a ha w hw
  refine ⟨hHeld.row, ⟨hHeld.waiters.entry, hHeld.waiters.rows⟩, fun fact hGet => ?_⟩
  obtain ⟨hAuthor, hIndexes⟩ := hHeld.fact fact hGet
  exact ⟨hAuthor, fun hNew => ⟨(hIndexes hNew).own, (hIndexes hNew).related,
    (hIndexes hNew).lineages, (hIndexes hNew).cells⟩⟩

/-- A record of a group leads back also after the deferral has ended. -/
theorem Grouped.settled (h : Grouped base entries r g)
    (hDefer : base.deferProjectionCommitment = false) :
    Retrying base entries r g.finishDeferredProjectionCommitment := by
  have hSettle : Step False g g.finishDeferredProjectionCommitment := .settle
  have hSound := h.sound.step hSettle
  exact ⟨h.undoable.reframed _ _ _, h.sparse, hSound.quarantine.shape, hSound.current,
    hSound.committed, hDefer.symm⟩

section Inputs

variable {state : AggregateState}

theorem InGroup.readOnly (h : InGroup base entries state g) (hRead : ReadOnly g g') :
    InGroup base entries state g' where
  grouped := h.grouped.of_cacheOnly hRead.cacheOnly
    (h.grouped.sound.trace (show Trace False g g' from hRead.trace))
  deferred := by
    rw [hRead.cacheOnly]
    exact h.deferred
  trace := h.trace.trans hRead.trace
  unrefused hResults := (h.unrefused hResults).trans hRead.trace

/-- A refused input is recorded, or the group is given up. -/
theorem refuseInput_spec {error : SemanticError} (hBase : Sound base) (hDefer : base.deferProjectionCommitment = false)
    (hGrouped : Grouped base entries r g)
    (hKept : error.isCapacity = false → g.deferProjectionCommitment = true ∧ Trace True base g)
    (hState : state.rollback = r) :
    Triple (· = g) (refuseInput [] state fact.id error)
      (InGroup base entries) (fun _ => GroupUndone base entries) := by
  unfold refuseInput
  refine triple_ite (fun _ => ?_) fun hCapacity => triple_pure ?_
  · unfold abortAggregate failApply
    refine triple_run rfl (triple_run rfl (triple_throw ?_))
    rintro _ rfl
    dsimp only
    rw [FactGraph.removeStagedCold_nil, hState]
    exact ⟨_, (hGrouped.settled hDefer).undone hBase.rebuildable⟩
  · rintro _ rfl
    have hError : error.isCapacity = false := by
      cases error <;> simp_all [isAggregatePrecommitFailure, SemanticError.isCapacity]
    obtain ⟨hDeferred, hTrace⟩ := hKept hError
    refine ⟨hState ▸ hGrouped, hDeferred, hTrace, fun hAll => ?_⟩
    cases hAll (.refused fact.id error) (List.mem_append_right _ (List.mem_singleton_self _))

/-- **One input of a group.** -/
theorem aggregateInput_spec (hBase : Sound base)
    (hDefer : base.deferProjectionCommitment = false) :
    Triple (InGroup base entries state) (aggregateInput [] state fact) (InGroup base entries)
      (fun _ => GroupUndone base entries) := by
  refine triple_of_forall fun g h => ?_
  unfold aggregateInput
  refine triple_bind (triple_attempt preflightAdmission_spec) fun result => ?_
  cases result with
  | error error =>
    refine triple_of_forall fun s (hRead : ReadOnly g s) => ?_
    have hs := h.readOnly hRead
    exact refuseInput_spec hBase hDefer hs.grouped (fun _ => ⟨hs.deferred, hs.trace⟩) rfl
  | ok preflight =>
    refine triple_of_forall fun s hPreflight => ?_
    obtain ⟨hRead, hPreflight⟩ : ReadOnly g s ∧ Preflighted s fact preflight := hPreflight
    have hs := h.readOnly hRead
    refine triple_ite (fun _ => triple_pure ?_) fun _ => triple_read ?_
    · rintro _ rfl
      refine ⟨hs.grouped, hs.deferred, hs.trace, fun hAll => hs.unrefused fun outcome hMem => ?_⟩
      exact hAll outcome (List.mem_append_left _ hMem)
    have hApply : Triple (· = s)
        (applyPreflightForAggregate fact preflight [] state.retryBudget)
        (fun result g' => ∃ journal, result.1 = journal.admission ∧ Journaled s fact journal g')
        (ApplyFailed s fact) := by
      unfold applyPreflightForAggregate
      refine triple_bind (applyPreflightJournaled_spec hs.grouped.sound.restorable hPreflight rfl)
        fun result => triple_of_forall fun t ht => triple_read ?_
      refine triple_run rfl (triple_pure ?_)
      rintro _ rfl
      rw [ht.commit_eq]
      exact ⟨result.1, rfl, ht⟩
    refine triple_bind (triple_attempt hApply) fun result => ?_
    cases result with
    | error error =>
      refine triple_of_forall fun t (hFailed : ApplyFailed s fact error t) => ?_
      obtain ⟨current, hUndone, -⟩ := hFailed
      have hStep : Step True s t := by
        rw [hUndone.eq]
        exact .undo hs.deferred (.inl trivial)
      have hExtended := hs.grouped.capture (inputRecord_spec hs.grouped.sound.quarantine _ fact).1
      refine refuseInput_spec hBase hDefer
        (hExtended.of_cacheOnly hUndone.cacheOnly (hs.grouped.sound.step hStep))
        (fun _ => ⟨?_, hs.trace.tail hStep⟩) rfl
      rw [hUndone.eq]
      exact hs.deferred
    | ok result =>
      obtain ⟨admission, delta, retryBudget⟩ := result
      refine triple_pure fun t ht => ?_
      obtain ⟨journal, hAdmission, hJournaled⟩ := ht
      refine ⟨hs.grouped.journaled hJournaled, hJournaled.deferral.trans hs.deferred,
        hs.trace.trans hJournaled.trace,
        fun hAll => (hs.unrefused fun outcome hMem => ?_).trans hJournaled.trace⟩
      exact hAll outcome (List.mem_append_left _ hMem)

end Inputs

/-! ## The whole group -/

/-- The sparse entries a group captures. -/
def groupEntries (g : FactGraph) (facts : List SignedFact) : SparseEntries :=
  let impact := plannedImpact g facts []
  g.projection.sparseEntries impact.cells impact.subjects

/-- What the journal of a group stands for. -/
structure GroupJournaled (g : FactGraph) (facts : List SignedFact)
    (journal : AggregateAdmissionJournal) (g' : FactGraph) : Prop where
  trace : Trace True g g'
  unrefused : (∀ outcome ∈ journal.results, outcome.isRefused = false) → Trace False g g'
  settled : g'.deferProjectionCommitment = false
  commit_eq : journal.commit g' = g'
  undone : GroupUndone g (groupEntries g facts) (journal.undo g')

private theorem startRecord_spec (g : FactGraph) (h : Sound g) (facts : List SignedFact) :
    Grouped g (groupEntries g facts)
      (((GraphRollback.new g).captureProjectionSparse (groupEntries g facts)).captureWaiterClosure g
        g.readyQuarantine.toList) g := by
  obtain ⟨hCaptures, hHeld⟩ := GraphRollback.captureWaiterClosure_spec
    ((GraphRollback.new g).captureProjectionSparse (groupEntries g facts)) g
    g.readyQuarantine.toList
  refine ⟨((Undoable.new g).captureProjectionSparse _).capture hCaptures, ?_, h, fun a ha w hw => ?_⟩
  · rw [hCaptures.sparse]
    exact captureProjectionSparse_new rfl
  · exact hHeld w ((mem_waiterClosure h.quarantine).mpr
      ⟨a, Std.ExtTreeSet.mem_toList.mpr ha, hw⟩)

/-- An empty overlay changes nothing. -/
theorem stageOrRestore_nil (hCurrent : g.indexesCurrent = true) :
    exec (stageOrRestore r []) g = (.ok [], g) := by
  have hCount : g.facts.size = g.indexedFactCount := by
    unfold FactGraph.indexesCurrent at hCurrent
    simp only [Bool.and_eq_true, beq_iff_eq] at hCurrent
    omega
  have hStaged : ({ g with indexedFactCount := g.facts.size } : FactGraph) = g := by
    rw [hCount]
  exact congrArg (Prod.mk _) hStaged

/-- **A group of admissions** without staged history. -/
theorem admitJournaledBatchWithHistory_spec {facts : List SignedFact} (h : Sound g)
    (hDefer : g.deferProjectionCommitment = false) :
    Triple (· = g) (admitJournaledBatchWithHistory facts [])
      (fun journal g' => GroupJournaled g facts journal g')
      (fun _ g' => g' = g ∨ GroupUndone g (groupEntries g facts) g') := by
  unfold admitJournaledBatchWithHistory
  refine triple_bind (Q := fun _ g' => g' = g) (triple_modify fun s hs => ?_) fun _ => ?_
  · rw [hs]
    exact if_pos h.current
  refine triple_read ?_
  dsimp only
  refine triple_ite (fun _ => ?_) fun _ => triple_read ?_
  · exact triple_bind (Q := fun _ _ => False) (triple_throw fun _ hs => .inl hs) fun _ =>
      triple_of_forall fun _ hFalse => hFalse.elim
  dsimp only [List.isEmpty_nil]
  refine triple_ite (fun hNot => absurd hNot (by decide)) fun _ => triple_read ?_
  rw [if_pos rfl]
  refine triple_run (stageOrRestore_nil h.current) (triple_read ?_)
  refine triple_run rfl (triple_run rfl ?_)
  have hBegin {late : Prop} : Trace late g g.observed.beginDeferredProjectionCommitment :=
    .tail (.single .observe) .defer
  refine triple_bind (Q := InGroup g (groupEntries g facts)) ?_ fun state => ?_
  · refine (triple_foldlM (I := InGroup g (groupEntries g facts)) facts
      (fun _ _ _ => aggregateInput_spec h hDefer) _).weaken ?_ (fun _ _ ht => ht)
      fun _ _ ht => .inr ht
    rintro _ rfl
    have hStart := (startRecord_spec g h facts).of_cacheOnly (observed_cacheOnly g)
      (h.trace (show Trace False g g.observed from .single .observe))
    exact ⟨hStart.begun, rfl, hBegin, fun _ => hBegin⟩
  refine triple_of_forall fun s hs => triple_run rfl (triple_read ?_)
  refine triple_read (triple_run rfl (triple_read ?_))
  have hEnd {late : Prop} : Trace late s s.finishDeferredProjectionCommitment.observed :=
    .tail (.single .settle) .observe
  have hSettled : Retrying g (groupEntries g facts) state.rollback
      s.finishDeferredProjectionCommitment.observed :=
    (hs.grouped.settled hDefer).step (.of_cacheOnly (observed_cacheOnly _))
      (show Trace False _ _ from .single .observe)
  generalize s.finishDeferredProjectionCommitment.observed = t at *
  have hFail {α : Type} {error : SemanticError} {Q : α → FactGraph → Prop} :
      Triple (· = t) (failApply state.rollback [] error) Q
        (fun _ g' => g' = g ∨ GroupUndone g (groupEntries g facts) g') := by
    unfold failApply
    refine triple_run rfl (triple_throw ?_)
    rintro _ rfl
    dsimp only
    rw [FactGraph.removeStagedCold_nil]
    exact .inr ⟨_, hSettled.undone h.rebuildable⟩
  refine triple_ite (fun _ => ?_) fun _ => triple_ite (fun _ => ?_) fun _ => triple_pure ?_
  · exact triple_bind (Q := fun _ _ => False) hFail fun _ =>
      triple_of_forall fun _ hFalse => hFalse.elim
  · exact triple_bind (Q := fun _ _ => False) hFail fun _ =>
      triple_of_forall fun _ hFalse => hFalse.elim
  · rintro _ rfl
    refine ⟨hs.trace.trans hEnd, fun hAll => (hs.unrefused hAll).trans hEnd,
      hSettled.deferral.trans hDefer, rfl, ?_⟩
    unfold AggregateAdmissionJournal.undo
    rw [FactGraph.removeStagedCold_nil]
    exact ⟨_, hSettled.undone h.rebuildable⟩

end Group

end MyOwnMesh.Semantic
