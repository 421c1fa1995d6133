import MyOwnMesh.Semantic.Rollback

/-!
# What a rollback record holds

A record covers a graph when it holds the base value of every row the graph
differs in. Each capture of the program only adds to the record (`Captures`), and
says which rows are recorded afterwards: those of an identity, of an author, the
index entries of a fact, the waiters of a dependency.
-/

namespace MyOwnMesh.Semantic

open Foundation

/-! ## What a record holds -/

namespace GraphRollback

/-- The scalars of a record, without its logs. -/
def blank (r : GraphRollback) : GraphRollback :=
  { r with
    authorityProvenance := ∅
    authorityHeads := ∅
    cellHeads := ∅
    facts := ∅
    quarantined := ∅
    quarantineMissing := ∅
    waitingByDependency := ∅
    readyQuarantine := ∅
    quarantinedByAuthor := ∅
    retainedByAuthor := ∅
    projectionSparse := ⟨∅, ∅⟩ }

/-- The rows of an identity are recorded. -/
structure HasRow (r : GraphRollback) (id : FactId) : Prop where
  facts : id ∈ r.facts
  quarantined : id ∈ r.quarantined
  missing : id ∈ r.quarantineMissing
  ready : id ∈ r.readyQuarantine

/-- The counters of an author are recorded. -/
structure HasAuthor (r : GraphRollback) (author : DeviceId) : Prop where
  quarantined : author ∈ r.quarantinedByAuthor
  retained : author ∈ r.retainedByAuthor

/-- The index entries the admission of a fact replaces are recorded. -/
structure HasIndexes (r : GraphRollback) (g : FactGraph) (fact : SignedFact) : Prop where
  own : fact.id ∈ r.authorityProvenance
  related : g.stagedColdPending ≠ 0 ∨ fact.content.body.lineageSelector.isSome = true →
    ∀ id ∈ g.facts, id ∈ r.authorityProvenance
  lineages : ∀ subject ∈ fact.useSubjects, subject ∈ r.authorityHeads
  cells : ∀ cell ∈ fact.content.body.exclusiveCells, cell ∈ r.cellHeads

end GraphRollback

/-- Every difference between base and current rows is recorded. -/
structure RowsCovered (r : GraphRollback) (base g : FactGraph) : Prop where
  facts : Covers r.facts base.facts g.facts
  quarantined : Covers r.quarantined base.quarantined g.quarantined
  missing : Covers r.quarantineMissing base.quarantineMissing g.quarantineMissing
  waiting : Covers r.waitingByDependency base.waitingByDependency g.waitingByDependency
  ready : CoversSet r.readyQuarantine base.readyQuarantine g.readyQuarantine
  quarantinedByAuthor : Covers r.quarantinedByAuthor base.quarantinedByAuthor g.quarantinedByAuthor
  retainedByAuthor : Covers r.retainedByAuthor base.retainedByAuthor g.retainedByAuthor
  provenance : Covers r.authorityProvenance base.authorityProvenance g.authorityProvenance
  authorityHeads : Covers r.authorityHeads base.authorityHeadsIndex g.authorityHeadsIndex
  cellHeads : Covers r.cellHeads base.cellHeadsIndex g.cellHeadsIndex

/-! ## Capturing -/

/-- `r'` records more of `g` than `r`. -/
structure Captures (g : FactGraph) (r r' : GraphRollback) : Prop where
  covered : ∀ base, RowsCovered r base g → RowsCovered r' base g
  scalars : r'.blank = r.blank
  row : ∀ id, r.HasRow id → r'.HasRow id
  author : ∀ author, r.HasAuthor author → r'.HasAuthor author
  waiting : ∀ id, id ∈ r.waitingByDependency → id ∈ r'.waitingByDependency
  provenance : ∀ id, id ∈ r.authorityProvenance → id ∈ r'.authorityProvenance
  lineages : ∀ subject, subject ∈ r.authorityHeads → subject ∈ r'.authorityHeads
  cells : ∀ cell, cell ∈ r.cellHeads → cell ∈ r'.cellHeads
  sparse : r'.projectionSparse = r.projectionSparse

namespace Captures

variable {g : FactGraph} {r r' r'' : GraphRollback}

theorem refl (g : FactGraph) (r : GraphRollback) : Captures g r r :=
  ⟨fun _ h => h, rfl, fun _ h => h, fun _ h => h, fun _ h => h, fun _ h => h, fun _ h => h,
    fun _ h => h, rfl⟩

theorem trans (h : Captures g r r') (h' : Captures g r' r'') : Captures g r r'' :=
  ⟨fun base hb => h'.covered base (h.covered base hb), h'.scalars.trans h.scalars,
    fun id hi => h'.row id (h.row id hi), fun a ha => h'.author a (h.author a ha),
    fun id hi => h'.waiting id (h.waiting id hi), fun id hi => h'.provenance id (h.provenance id hi),
    fun s hs => h'.lineages s (h.lineages s hs), fun c hc => h'.cells c (h.cells c hc),
    h'.sparse.trans h.sparse⟩

theorem indexes (h : Captures g r r') {g' : FactGraph} {fact : SignedFact}
    (hIndexes : r.HasIndexes g' fact) : r'.HasIndexes g' fact :=
  ⟨h.provenance _ hIndexes.own, fun hc id hi => h.provenance id (hIndexes.related hc id hi),
    fun s hs => h.lineages s (hIndexes.lineages s hs), fun c hc => h.cells c (hIndexes.cells c hc)⟩

/-- A loop of captures records what its steps record. -/
theorem foldl {α : Type} (step : GraphRollback → α → GraphRollback)
    (Recorded : GraphRollback → α → Prop) (hStep : ∀ r a, Captures g r (step r a))
    (hRecorded : ∀ r a, Recorded (step r a) a)
    (hMono : ∀ r r' a, Captures g r r' → Recorded r a → Recorded r' a) (items : List α) :
    ∀ r, Captures g r (items.foldl step r) ∧ ∀ a ∈ items, Recorded (items.foldl step r) a := by
  induction items with
  | nil =>
    intro r
    exact ⟨refl g r, by simp⟩
  | cons item items ih =>
    intro r
    obtain ⟨hRest, hAll⟩ := ih (step r item)
    refine ⟨(hStep r item).trans hRest, fun a ha => ?_⟩
    rcases List.mem_cons.mp ha with rfl | ha
    · exact hMono _ _ a hRest (hRecorded r a)
    · exact hAll a ha

end Captures

namespace GraphRollback

variable (r : GraphRollback) (g : FactGraph)

theorem captureProvenanceAdmission_spec (fact : SignedFact) :
    Captures g r (r.captureProvenanceAdmission g fact) ∧
      (r.captureProvenanceAdmission g fact).HasIndexes g fact := by
  have hProvenance : ∀ id : FactId, id ∈ (r.captureProvenanceAdmission g fact).authorityProvenance ↔
      id ∈ r.authorityProvenance ∨ fact.id = id ∨
        (g.stagedColdPending ≠ 0 ∨ fact.content.body.lineageSelector.isSome = true) ∧
          id ∈ g.facts := by
    intro id
    unfold captureProvenanceAdmission
    dsimp only
    split
    · rename_i hAll
      rw [mem_foldl_insertIfNew, mem_insertIfNew_iff, Std.ExtTreeMap.mem_keys]
      tauto
    · rename_i hAll
      rw [mem_insertIfNew_iff]
      tauto
  have hLineages : ∀ subject : DeviceId,
      subject ∈ (r.captureProvenanceAdmission g fact).authorityHeads ↔
        subject ∈ fact.useSubjects ∨ subject ∈ r.authorityHeads :=
    fun subject => mem_foldl_insertIfNew _
  have hCells : ∀ cell : ExclusiveCell, cell ∈ (r.captureProvenanceAdmission g fact).cellHeads ↔
      cell ∈ fact.content.body.exclusiveCells ∨ cell ∈ r.cellHeads :=
    fun cell => mem_foldl_insertIfNew _
  refine ⟨⟨fun base h => ?_, rfl, fun _ h => ⟨h.facts, h.quarantined, h.missing, h.ready⟩,
    fun _ h => ⟨h.quarantined, h.retained⟩, fun _ h => h, fun id h => (hProvenance id).mpr (.inl h),
    fun s h => (hLineages s).mpr (.inr h), fun c h => (hCells c).mpr (.inr h), rfl⟩, ?_⟩
  · refine ⟨h.facts, h.quarantined, h.missing, h.waiting, h.ready, h.quarantinedByAuthor,
      h.retainedByAuthor, ?_, h.authorityHeads.foldl_capture _, h.cellHeads.foldl_capture _⟩
    unfold captureProvenanceAdmission
    dsimp only
    split
    · exact (h.provenance.capture fact.id).foldl_capture _
    · exact h.provenance.capture fact.id
  · exact ⟨(hProvenance fact.id).mpr (.inr (.inl rfl)),
      fun hAll id hId => (hProvenance id).mpr (.inr (.inr ⟨hAll, hId⟩)),
      fun s hs => (hLineages s).mpr (.inl hs), fun c hc => (hCells c).mpr (.inl hc)⟩

theorem captureFact_spec (id : FactId) :
    Captures g r (r.captureFact g id) ∧ (r.captureFact g id).HasRow id ∧
      ∀ fact, g.facts[id]?.or g.quarantined[id]? = some fact →
        (r.captureFact g id).HasIndexes g fact := by
  let rows : GraphRollback :=
    { r with
      facts := r.facts.insertIfNew id g.facts[id]?
      quarantined := r.quarantined.insertIfNew id g.quarantined[id]?
      quarantineMissing := r.quarantineMissing.insertIfNew id g.quarantineMissing[id]?
      readyQuarantine := r.readyQuarantine.insertIfNew id (g.readyQuarantine.contains id) }
  have hRows : Captures g r rows :=
    ⟨fun _ h => ⟨h.facts.capture id, h.quarantined.capture id, h.missing.capture id, h.waiting,
        h.ready.capture id, h.quarantinedByAuthor, h.retainedByAuthor, h.provenance,
        h.authorityHeads, h.cellHeads⟩, rfl,
      fun a h => ⟨mem_insertIfNew_iff.mpr (.inr h.facts), mem_insertIfNew_iff.mpr (.inr h.quarantined),
        mem_insertIfNew_iff.mpr (.inr h.missing), mem_insertIfNew_iff.mpr (.inr h.ready)⟩,
      fun _ h => ⟨h.quarantined, h.retained⟩, fun _ h => h, fun _ h => h, fun _ h => h, fun _ h => h,
      rfl⟩
  have hOwn : rows.HasRow id :=
    ⟨mem_insertIfNew_iff.mpr (.inl rfl), mem_insertIfNew_iff.mpr (.inl rfl),
      mem_insertIfNew_iff.mpr (.inl rfl), mem_insertIfNew_iff.mpr (.inl rfl)⟩
  unfold captureFact
  cases hStored : g.facts[id]?.or g.quarantined[id]? with
  | none => exact ⟨hRows, hOwn, by simp⟩
  | some stored =>
    obtain ⟨hCaptures, hIndexes⟩ := rows.captureProvenanceAdmission_spec g stored
    refine ⟨hRows.trans hCaptures, hCaptures.row id hOwn, fun fact hFact => ?_⟩
    rw [← Option.some.inj hFact]
    exact hIndexes

theorem captureAuthor_spec (author : DeviceId) :
    Captures g r (r.captureAuthor g author) ∧ (r.captureAuthor g author).HasAuthor author :=
  ⟨⟨fun _ h => ⟨h.facts, h.quarantined, h.missing, h.waiting, h.ready,
      h.quarantinedByAuthor.capture author, h.retainedByAuthor.capture author, h.provenance,
      h.authorityHeads, h.cellHeads⟩, rfl,
    fun _ h => ⟨h.facts, h.quarantined, h.missing, h.ready⟩,
    fun _ h => ⟨mem_insertIfNew_iff.mpr (.inr h.quarantined),
      mem_insertIfNew_iff.mpr (.inr h.retained)⟩, fun _ h => h, fun _ h => h, fun _ h => h,
      fun _ h => h, rfl⟩,
    mem_insertIfNew_iff.mpr (.inl rfl), mem_insertIfNew_iff.mpr (.inl rfl)⟩

theorem captureAuthorOf_spec (stored : Option SignedFact) :
    Captures g r (r.captureAuthorOf g stored) := by
  cases stored with
  | none => exact Captures.refl g r
  | some fact => exact (r.captureAuthor_spec g fact.content.author).1

/-- A dependency is recorded with the rows of its waiters. -/
structure HasWaiters (r : GraphRollback) (g : FactGraph) (dependency : FactId) : Prop where
  entry : dependency ∈ r.waitingByDependency
  rows : ∀ waiter ∈ waitersOf g dependency, r.HasRow waiter

theorem waiters_of_captures {g g' : FactGraph} {r r' : GraphRollback}
    (h : Captures g r r') {dependency : FactId} (hWaiters : r.HasWaiters g' dependency) :
    r'.HasWaiters g' dependency :=
  ⟨h.waiting _ hWaiters.entry, fun w hw => h.row w (hWaiters.rows w hw)⟩

theorem captureDependency_spec (dependency : FactId) :
    Captures g r (r.captureDependency g dependency) ∧
      (r.captureDependency g dependency).HasWaiters g dependency := by
  let entry : GraphRollback :=
    { r with
      waitingByDependency :=
        r.waitingByDependency.insertIfNew dependency g.waitingByDependency[dependency]? }
  have hEntry : Captures g r entry :=
    ⟨fun _ h => ⟨h.facts, h.quarantined, h.missing, h.waiting.capture dependency, h.ready,
        h.quarantinedByAuthor, h.retainedByAuthor, h.provenance, h.authorityHeads, h.cellHeads⟩,
      rfl, fun _ h => ⟨h.facts, h.quarantined, h.missing, h.ready⟩,
      fun _ h => ⟨h.quarantined, h.retained⟩, fun _ h => mem_insertIfNew_iff.mpr (.inr h),
      fun _ h => h, fun _ h => h, fun _ h => h, rfl⟩
  obtain ⟨hRest, hRows⟩ := Captures.foldl
    (fun r waiter => (r.captureFact g waiter).captureAuthorOf g g.quarantined[waiter]?)
    (fun r waiter => r.HasRow waiter)
    (fun r waiter => (r.captureFact_spec g waiter).1.trans (captureAuthorOf_spec _ g _))
    (fun r waiter => (captureAuthorOf_spec (r.captureFact g waiter) g _).row waiter
      (r.captureFact_spec g waiter).2.1)
    (fun _ _ waiter h => h.row waiter) (waitersOf g dependency) entry
  exact ⟨hEntry.trans hRest, hRest.waiting _ (mem_insertIfNew_iff.mpr (.inl rfl)), hRows⟩

theorem captureDependencies_spec (dependencies : List FactId) :
    Captures g r (dependencies.foldl (fun r d => r.captureDependency g d) r) ∧
      ∀ d ∈ dependencies,
        (dependencies.foldl (fun r d => r.captureDependency g d) r).HasWaiters g d :=
  Captures.foldl (fun r d => r.captureDependency g d) (fun r d => r.HasWaiters g d)
    (fun r d => (r.captureDependency_spec g d).1) (fun r d => (r.captureDependency_spec g d).2)
    (fun _ _ _ h hd => waiters_of_captures h hd) dependencies r

/-- Everything the admission of a fact may change is recorded: the entries of
its waiters when it is stored, those of its missing dependencies when it waits. -/
structure HasAdmission (r : GraphRollback) (g : FactGraph) (fact : SignedFact)
    (missing : List FactId) : Prop where
  row : r.HasRow fact.id
  author : r.HasAuthor fact.content.author
  indexes : r.HasIndexes g fact
  waiters : missing = [] → r.HasWaiters g fact.id
  dependencies : ∀ d ∈ missing, d ∈ r.waitingByDependency

theorem HasAdmission.captures {g g' : FactGraph} {r r' : GraphRollback} {fact : SignedFact}
    {missing : List FactId} (h : r.HasAdmission g fact missing) (hCaptures : Captures g' r r') :
    r'.HasAdmission g fact missing :=
  ⟨hCaptures.row _ h.row, hCaptures.author _ h.author, hCaptures.indexes h.indexes,
    fun hNil => waiters_of_captures hCaptures (h.waiters hNil),
    fun d hd => hCaptures.waiting d (h.dependencies d hd)⟩

theorem captureAdmission_spec (fact : SignedFact) :
    Captures g r (r.captureAdmission g fact) ∧
      ∀ missing ⊆ fact.dependencies, (r.captureAdmission g fact).HasAdmission g fact missing := by
  obtain ⟨hFact, hRow, -⟩ := r.captureFact_spec g fact.id
  obtain ⟨hAuthor, hHasAuthor⟩ := (r.captureFact g fact.id).captureAuthor_spec g fact.content.author
  obtain ⟨hProvenance, hIndexes⟩ := captureProvenanceAdmission_spec
    ((r.captureFact g fact.id).captureAuthor g fact.content.author) g fact
  obtain ⟨hOwn, hWaiters⟩ := captureDependency_spec
    (((r.captureFact g fact.id).captureAuthor g fact.content.author).captureProvenanceAdmission
      g fact) g fact.id
  obtain ⟨hDeps, hAll⟩ := captureDependencies_spec
    ((((r.captureFact g fact.id).captureAuthor g fact.content.author).captureProvenanceAdmission
      g fact).captureDependency g fact.id) g fact.dependencies
  have hTail := hOwn.trans hDeps
  refine ⟨((hFact.trans hAuthor).trans hProvenance).trans hTail, fun missing hMissing => ?_⟩
  exact ⟨((hAuthor.trans hProvenance).trans hTail).row _ hRow,
    (hProvenance.trans hTail).author _ hHasAuthor, hTail.indexes hIndexes,
    fun _ => waiters_of_captures hDeps hWaiters, fun d hd => (hAll d (hMissing hd)).entry⟩

/-- Everything the promotion of a waiter may change is recorded. -/
structure Held (r : GraphRollback) (g : FactGraph) (id : FactId) : Prop where
  row : r.HasRow id
  waiters : r.HasWaiters g id
  fact : ∀ fact, g.quarantined[id]? = some fact →
    r.HasAuthor fact.content.author ∧ (id ∉ g.facts → r.HasIndexes g fact)

theorem Held.captures {g g' : FactGraph} {r r' : GraphRollback} {id : FactId} (h : Held r g id)
    (hCaptures : Captures g' r r') : Held r' g id :=
  ⟨hCaptures.row id h.row, waiters_of_captures hCaptures h.waiters,
    fun fact hGet => ⟨hCaptures.author _ (h.fact fact hGet).1,
      fun hNew => hCaptures.indexes ((h.fact fact hGet).2 hNew)⟩⟩

theorem captureWaiterClosure_spec (seeds : List FactId) :
    Captures g r (r.captureWaiterClosure g seeds) ∧
      ∀ id ∈ waiterClosure g seeds, Held (r.captureWaiterClosure g seeds) g id := by
  have hStep : ∀ (r : GraphRollback) (id : FactId),
      let own := (r.captureFact g id).captureAuthorOf g g.facts[id]?
      let captured := (own.captureAuthorOf g g.quarantined[id]?).captureDependency g id
      Captures g r ((waitersOf g id).foldl (fun r waiter => r.captureFact g waiter) captured) ∧
        Held ((waitersOf g id).foldl (fun r waiter => r.captureFact g waiter) captured) g id := by
    intro r id own captured
    obtain ⟨hFact, hRow, hIndexes⟩ := r.captureFact_spec g id
    have hOwn : Captures g (r.captureFact g id) own := captureAuthorOf_spec _ g g.facts[id]?
    obtain ⟨hDependency, hHasWaiters⟩ :=
      (own.captureAuthorOf g g.quarantined[id]?).captureDependency_spec g id
    have hWaiters := (Captures.foldl (fun r waiter => r.captureFact g waiter) (fun _ _ => True)
      (fun r waiter => (r.captureFact_spec g waiter).1) (fun _ _ => trivial)
      (fun _ _ _ _ _ => trivial) (waitersOf g id) captured).1
    have hQuarantined := captureAuthorOf_spec own g g.quarantined[id]?
    have hRest := (hQuarantined.trans hDependency).trans hWaiters
    refine ⟨(hFact.trans hOwn).trans hRest, (hOwn.trans hRest).row id hRow,
      waiters_of_captures hWaiters hHasWaiters, fun fact hGet => ⟨?_, fun hNew => ?_⟩⟩
    · refine (hDependency.trans hWaiters).author _ ?_
      rw [hGet]
      exact (own.captureAuthor_spec g fact.content.author).2
    · refine (hOwn.trans hRest).indexes (hIndexes fact ?_)
      rw [Std.ExtTreeMap.getElem?_eq_none hNew, Option.none_or, hGet]
  exact Captures.foldl _ (fun r id => Held r g id) (fun r id => (hStep r id).1)
    (fun r id => (hStep r id).2) (fun _ _ _ hCaptures h => h.captures hCaptures)
    (waiterClosure g seeds) r

end GraphRollback

/-- A fresh record covers the graph it was made from. -/
theorem rowsCovered_new (g : FactGraph) : RowsCovered (GraphRollback.new g) g g :=
  ⟨Covers.refl _, Covers.refl _, Covers.refl _, Covers.refl _, CoversSet.refl _, Covers.refl _,
    Covers.refl _, Covers.refl _, Covers.refl _, Covers.refl _⟩

end MyOwnMesh.Semantic
