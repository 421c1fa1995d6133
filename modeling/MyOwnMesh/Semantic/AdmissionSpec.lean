import MyOwnMesh.Semantic.Journal
import MyOwnMesh.Semantic.Ledger

/-!
# What one admission does

Each part of the admission program is described once, from an arbitrary graph
with current indexes: what a success has checked and stored, and what an error
leaves behind. Reading the projection may fill the cache, so graphs are compared
up to their cache (`CacheOnly`). After the fact is stored only an exhausted
capacity can fail, and it leaves the stored fact for the caller to roll back.
-/

namespace MyOwnMesh.Semantic

open Foundation

/-! ## Reading the projection -/

/-- `g'` differs from `g` in the projection cache only. -/
def CacheOnly (g g' : FactGraph) : Prop :=
  g' = { g with projectionCache := g'.projectionCache }

theorem CacheOnly.trans {g g' g'' : FactGraph} (h : CacheOnly g g') (h' : CacheOnly g' g'') :
    CacheOnly g g'' := by
  unfold CacheOnly at *
  rw [h', h]

section Reading

variable [Platform] {g g' g'' : FactGraph}

theorem observed_cacheOnly (g : FactGraph) : CacheOnly g g.observed := by
  unfold FactGraph.observed
  split <;> rfl

/-- A read caches what the next one sees. -/
theorem observed_observed (g : FactGraph) : g.observed.observed = g.observed := by
  unfold FactGraph.observed
  split
  · have hCached : ({ g with projectionCache := some (g.generation, Projection.fromGraph g) } :
        FactGraph).cachedProjection.isNone = false := by
      simp [FactGraph.cachedProjection]
    rw [if_neg (by rw [hCached, Bool.and_false]; exact Bool.false_ne_true)]
  · rfl

/-- `g'` is `g` after any number of reads. -/
def ReadOnly (g g' : FactGraph) : Prop := g' = g ∨ g' = g.observed

namespace ReadOnly

theorem refl (g : FactGraph) : ReadOnly g g := .inl rfl

theorem of_eq (h : g' = g) : ReadOnly g g' := .inl h

theorem observed (h : ReadOnly g g') : ReadOnly g g'.observed := by
  rcases h with rfl | rfl
  · exact .inr rfl
  · exact .inr (observed_observed g)

theorem cacheOnly (h : ReadOnly g g') : CacheOnly g g' := by
  rcases h with rfl | rfl
  · rfl
  · exact observed_cacheOnly g

/-- Reading does not change what is read. -/
theorem projectionForUpdate_eq (h : ReadOnly g g') :
    g'.projectionForUpdate = g.projectionForUpdate := by
  rcases h with rfl | rfl
  · rfl
  · unfold FactGraph.observed
    split
    · rename_i hRead
      obtain ⟨-, hNone⟩ := Bool.and_eq_true_iff.mp hRead
      have hCached : g.cachedProjection = none := Option.isNone_iff_eq_none.mp hNone
      simp only [FactGraph.projectionForUpdate, hCached, Option.getD_none]
      simp [FactGraph.cachedProjection]
    · rfl

theorem projection_eq (h : ReadOnly g g') : g'.projection = g.projection := by
  rcases h with rfl | rfl
  · rfl
  · unfold FactGraph.observed
    split
    · rename_i hRead
      obtain ⟨hCurrent, hNone⟩ := Bool.and_eq_true_iff.mp hRead
      have hCached : g.cachedProjection = none := Option.isNone_iff_eq_none.mp hNone
      have hOld : g.projection = Projection.fromGraph g := by
        rw [FactGraph.projection, if_pos hCurrent, hCached, Option.getD_none]
      rw [hOld]
      change (if g.indexesCurrent = true then _ else _) = _
      rw [if_pos hCurrent]
      simp [FactGraph.cachedProjection]
    · rfl

theorem isAuthorizedSigner_eq (h : ReadOnly g g') (signer : DeviceId) :
    g'.isAuthorizedSigner signer = g.isAuthorizedSigner signer := by
  unfold FactGraph.isAuthorizedSigner FactGraph.evaluator
  rw [h.projection_eq, h.cacheOnly]
  rfl

end ReadOnly

end Reading

/-- An error that reports an exhausted capacity. -/
def SemanticError.isCapacity : SemanticError → Bool
  | .capacityExceeded .. => true
  | _ => false

section Specs

variable [Platform] {g : FactGraph} {fact : SignedFact}

/-! ## Screening -/

/-- The no-op a candidate would be, read in the graph it is judged by. -/
def candidateNoop (g : FactGraph) (fact : SignedFact) : Except SemanticError (Option String) :=
  if fact.content.body.noopInCausalPast then
    (g.causalPast fact).map fun causal => causal.graph.semanticNoop fact.content.body
  else .ok (g.semanticNoop fact.content.body)

/-- A new fact of this context with its cost. -/
structure Offered (g : FactGraph) (fact : SignedFact) (cost : FactCost) : Prop where
  verified : fact.verify = .ok ()
  context : fact.content.meshContext = g.contextId
  closed : g.policy ≠ .open
  fresh : fact.id ∉ g.facts
  notQuarantined : fact.id ∉ g.quarantined
  notSelf : fact.id ∉ fact.content.parents
  costed : g.factCost fact = .ok cost

/-- The fact has passed the checks that need no verdict. -/
structure Screened (g : FactGraph) (fact : SignedFact) (cost : FactCost) : Prop
    extends Offered g fact cost where
  effective : cost.missing = [] → candidateNoop g fact = .ok none

variable {E : SemanticError → FactGraph → Prop}

variable {P : FactGraph → Prop}

omit [Platform] in
private theorem triple_graphCheck {α : Type} {result : Except SemanticError α}
    (hError : ∀ e, result = .error e → ∀ s, P s → E e s) :
    Triple P (GraphM.check result) (fun a s => P s ∧ result = .ok a) E :=
  triple_check (fun _ ha _ hs => ⟨hs, ha⟩) hError

private theorem observe_spec : Triple (ReadOnly g) observe (fun _ => ReadOnly g) E :=
  triple_modify fun _ hs => hs.observed

private theorem observeCausal_spec (causal : CausalAdmissionGraph) :
    Triple (ReadOnly g) (observeCausal causal) (fun _ => ReadOnly g) E := by
  unfold observeCausal
  exact triple_ite (fun _ => observe_spec) fun _ => triple_pure fun _ hs => hs

theorem semanticNoopForCandidate_spec :
    Triple (· = g) (semanticNoopForCandidate fact)
      (fun operation g' => ReadOnly g g' ∧ candidateNoop g fact = .ok operation)
      (fun _ g' => ReadOnly g g') := by
  unfold semanticNoopForCandidate candidateNoop
  refine triple_read ?_
  split
  · refine triple_bind (triple_graphCheck fun _ _ s hs => ReadOnly.of_eq hs) fun causal => ?_
    refine triple_assume fun hCausal => ?_
    rw [hCausal]
    refine triple_bind ((observeCausal_spec (g := g) causal).weaken
      (fun s hs => ReadOnly.of_eq hs) (fun _ _ h => h) fun _ _ h => h) fun _ => ?_
    exact triple_pure fun _ hs => ⟨hs, rfl⟩
  · refine triple_bind ((observe_spec (g := g)).weaken (fun s hs => ReadOnly.of_eq hs)
      (fun _ _ h => h) fun _ _ h => h) fun _ => ?_
    exact triple_pure fun _ hs => ⟨hs, rfl⟩

omit [Platform] in
private theorem refuseIf_spec {c : Prop} [Decidable c] {error : SemanticError}
    (hError : c → ∀ s, P s → E error s) :
    Triple P (GraphM.refuseIf c error) (fun _ s => P s ∧ ¬ c) E := by
  unfold GraphM.refuseIf
  exact triple_ite (fun hc => triple_throw (hError hc)) fun hc => triple_pure fun _ hs => ⟨hs, hc⟩

omit [Platform] in
private theorem screenExisting_spec {stored : Facts} (hError : ∀ e s, P s → E e s) :
    Triple P (screenExisting fact stored) (fun present s => P s ∧
      if present then stored[fact.id]? = some fact else fact.id ∉ stored) E := by
  unfold screenExisting
  cases hGet : stored[fact.id]? with
  | none =>
    refine triple_pure fun _ hs => ⟨hs, ?_⟩
    rw [if_neg Bool.false_ne_true, mem_iff_exists, hGet]
    simp
  | some existing =>
    refine triple_ite (fun hEq => triple_pure fun _ hs => ⟨hs, ?_⟩)
      fun _ => triple_throw (hError _)
    rw [if_pos rfl, hEq]

private theorem screenEffect_spec :
    Triple (· = g) (screenEffect fact)
      (fun _ g' => ReadOnly g g' ∧ candidateNoop g fact = .ok none)
      (fun _ g' => ReadOnly g g') := by
  unfold screenEffect
  refine triple_read (triple_bind semanticNoopForCandidate_spec fun operation => ?_)
  refine triple_assume fun hNoop => ?_
  cases operation with
  | some operation => exact triple_throw fun _ hs => hs
  | none =>
    dsimp only
    cases fact.content.parents.find? fun parent => !g.facts.contains parent with
    | some parent => exact triple_throw fun _ hs => hs
    | none => exact triple_pure fun _ hs => ⟨hs, hNoop⟩

private theorem screenFresh_spec :
    Triple (· = g) (screenFresh fact)
      (fun cost g' => ReadOnly g g' ∧ fact.id ∉ fact.content.parents ∧
        g.factCost fact = .ok cost ∧ (cost.missing = [] → candidateNoop g fact = .ok none))
      (fun _ g' => ReadOnly g g') := by
  unfold screenFresh
  refine triple_read (triple_bind (refuseIf_spec fun _ s hs => ReadOnly.of_eq hs) fun _ => ?_)
  refine triple_assume fun hSelf => ?_
  refine triple_bind (triple_graphCheck fun _ _ s hs => ReadOnly.of_eq hs) fun cost => ?_
  refine triple_assume fun hCost => ?_
  have hEffect : Triple (· = g) (GraphM.onlyIf cost.missing.isEmpty (screenEffect fact))
      (fun _ g' => ReadOnly g g' ∧ (cost.missing = [] → candidateNoop g fact = .ok none))
      (fun _ g' => ReadOnly g g') := by
    unfold GraphM.onlyIf
    refine triple_ite (fun _ => screenEffect_spec.weaken (fun _ h => h)
      (fun _ _ h => ⟨h.1, fun _ => h.2⟩) fun _ _ h => h) fun hMissing => ?_
    refine triple_pure fun s hs => ⟨ReadOnly.of_eq hs, fun hNil => absurd ?_ hMissing⟩
    rw [hNil]
    rfl
  refine triple_bind hEffect fun _ => triple_pure fun s hs => ⟨hs.1, ?_, hCost, hs.2⟩
  simpa using hSelf

/-- **Screening**: the fact is stored already, or it passed every check. -/
theorem screenFact_spec :
    Triple (· = g) (screenFact fact)
      (fun screened g' => ReadOnly g g' ∧ screened.elim
        (g.facts[fact.id]? = some fact ∨ g.quarantined[fact.id]? = some fact) (Screened g fact))
      (fun _ g' => ReadOnly g g') := by
  unfold screenFact
  refine triple_read (triple_bind (triple_graphCheck fun _ _ s hs => ReadOnly.of_eq hs)
    fun _ => triple_assume fun hVerified => ?_)
  refine triple_bind (refuseIf_spec fun _ s hs => ReadOnly.of_eq hs)
    fun _ => triple_assume fun hContext => ?_
  have hDomain : Triple (· = g) validateDomain (fun _ g' => g' = g ∧ g.policy ≠ .open)
      (fun _ g' => ReadOnly g g') :=
    triple_read (refuseIf_spec fun _ s hs => ReadOnly.of_eq hs)
  refine triple_bind hDomain fun _ => triple_assume fun hClosed => ?_
  refine triple_bind (screenExisting_spec fun _ _ hs => ReadOnly.of_eq hs)
    fun present => triple_assume fun hFacts => ?_
  refine triple_ite (fun hPresent => triple_pure fun s hs => ⟨ReadOnly.of_eq hs, .inl ?_⟩)
    fun hFresh => ?_
  · rwa [if_pos hPresent] at hFacts
  rw [if_neg hFresh] at hFacts
  refine triple_bind (screenExisting_spec fun _ _ hs => ReadOnly.of_eq hs)
    fun present => triple_assume fun hQuarantined => ?_
  refine triple_ite (fun hPresent => triple_pure fun s hs => ⟨ReadOnly.of_eq hs, .inr ?_⟩)
    fun hFresh => ?_
  · rwa [if_pos hPresent] at hQuarantined
  rw [if_neg hFresh] at hQuarantined
  refine triple_bind screenFresh_spec fun cost => triple_pure fun s hs => ⟨hs.1, ?_⟩
  exact ⟨⟨hVerified, not_not.mp hContext, hClosed, hFacts, hQuarantined, hs.2.1, hs.2.2.1⟩,
    hs.2.2.2⟩

/-! ## Quarantine -/

variable {s : FactGraph}

theorem checkQuarantineSigner_spec (hs : ReadOnly g s) :
    Triple (· = s) (checkQuarantineSigner fact)
      (fun _ g' => ReadOnly g g' ∧ s.isAuthorizedSigner fact.content.author = true)
      (fun _ g' => ReadOnly g g') := by
  unfold checkQuarantineSigner
  refine triple_read (triple_bind (Q := fun _ => ReadOnly g) ?_ fun _ => ?_)
  · exact triple_modify fun t ht => ht ▸ hs.observed
  · exact (refuseIf_spec fun _ _ h => h).weaken (fun _ h => h)
      (fun _ _ h => ⟨h.1, by simpa using h.2⟩) fun _ _ h => h

variable {cost : FactCost} {retainedReserved : Bool}

theorem admitQuarantined_spec (hs : ReadOnly g s) :
    Triple (· = s) (admitQuarantined fact cost retainedReserved)
      (fun admission g' =>
        admission = .quarantined (Std.ExtTreeSet.ofList cost.missing compare).toList ∧
        s.isAuthorizedSigner fact.content.author = true ∧
        ∃ t, ReadOnly g t ∧ t.reserveQuarantine fact cost retainedReserved = .ok () ∧
          g' = t.storeQuarantined fact cost retainedReserved)
      (fun _ g' => ReadOnly g g') := by
  unfold admitQuarantined
  refine triple_bind (checkQuarantineSigner_spec hs) fun _ => triple_assume fun hSigner => ?_
  refine triple_of_forall fun t ht => triple_read ?_
  refine triple_bind (triple_graphCheck fun _ _ u hu => hu ▸ ht)
    fun _ => triple_assume fun hReserve => ?_
  refine triple_bind (Q := fun _ g' => g' = t.storeQuarantined fact cost retainedReserved)
    (triple_modify fun u hu => hu ▸ rfl) fun _ => ?_
  exact triple_pure fun u hu => ⟨rfl, hSigner, t, ht, hReserve, hu⟩

/-! ## Judging -/

/-- A candidate that passed the verdict of the graph it is judged in. -/
def Judged (g : FactGraph) (fact : SignedFact) : Prop :=
  ∃ causal, g.causalPast fact = .ok causal ∧ causal.graph.verdict fact = .ok ()

theorem judge_spec (hs : ReadOnly g s) :
    Triple (· = s) (judge fact) (fun _ g' => ReadOnly g g' ∧ Judged s fact)
      (fun _ g' => ReadOnly g g') := by
  unfold judge
  refine triple_read (triple_bind (triple_graphCheck fun _ _ t ht => ht ▸ hs)
    fun causal => triple_assume fun hCausal => ?_)
  refine triple_bind (triple_graphCheck fun _ _ t ht => ht ▸ hs)
    fun _ => triple_assume fun hLineage => ?_
  have hRead : Triple (· = s) (GraphM.onlyIf fact.content.body.readsProjection
      (observeCausal causal)) (fun _ => ReadOnly g) (fun _ g' => ReadOnly g g') := by
    unfold GraphM.onlyIf
    exact triple_ite (fun _ => (observeCausal_spec causal).weaken (fun t ht => ht ▸ hs)
      (fun _ _ h => h) fun _ _ h => h) fun _ => triple_pure fun t ht => ht ▸ hs
  refine triple_bind hRead fun _ => ?_
  refine (triple_graphCheck fun _ _ _ ht => ht).weaken (fun _ h => h) (fun _ t ht => ?_)
    fun _ _ h => h
  exact ⟨ht.1, causal, hCausal, except_bind_eq_ok.mpr ⟨(), hLineage, ht.2⟩⟩

/-! ## Inserting -/

/-- A stored candidate with its ledger and some cache. -/
def storedGraph (g : FactGraph) (fact : SignedFact) (cost : FactCost)
    (changes : AuthorityProvenance) (bytes : Nat) (cache : Option (Nat × Projection)) : FactGraph :=
  { g.storeAdmitted fact cost changes with derivedIndexBytes := bytes, projectionCache := cache }

/-- The projection of a stored candidate. -/
def storedProjection (g : FactGraph) (fact : SignedFact) (cost : FactCost)
    (changes : AuthorityProvenance) (bytes : Nat) (previous : Projection)
    (stagedCold : List FactId) : Projection :=
  let stored := storedGraph g fact cost changes bytes none
  stored.updatedProjection previous (stored.projectionImpactForFact fact stagedCold)

/-- What an insertion has checked before it stores the candidate. -/
structure InsertPlan (g : FactGraph) (fact : SignedFact) (cost : FactCost)
    (retainedReserved : Bool) (changes : AuthorityProvenance) (bytes : Nat) : Prop where
  residency : ∃ delta, g.exactIndexResidencyDelta fact = .ok delta ∧
    delta.removed ≤ g.derivedIndexBytes ∧
    bytes = g.derivedIndexBytes - delta.removed + delta.added
  plan : g.plannedProvenance fact = .ok changes
  reserved : g.reserveAdmitted fact cost retainedReserved = .ok ()

/-- The graph after an insertion, with the plan it followed. -/
structure Inserted (g : FactGraph) (fact : SignedFact) (cost : FactCost)
    (retainedReserved : Bool) (previous : Projection) (stagedCold : List FactId)
    (g' : FactGraph) : Prop where
  exists_plan : ∃ changes bytes, InsertPlan g fact cost retainedReserved changes bytes ∧
    let projection := storedProjection g fact cost changes bytes previous stagedCold
    let resident := g.admittedBytes + cost.encodedBytes + bytes + projection.commitmentBytes
    let stored := storedGraph g fact cost changes bytes (some (g.generation + 1, projection))
    resident ≤ u64Max ∧ resident ≤ g.policyLimits.maxDatabaseBytes ∧
    g' = (if retainedReserved then stored
      else stored.retainAuthor fact.content.author cost).wakeDependency fact.id

/-- What a failed insertion leaves: nothing, or after an exhausted capacity the
stored candidate. -/
def InsertFailed (g : FactGraph) (fact : SignedFact) (cost : FactCost) (error : SemanticError)
    (g' : FactGraph) : Prop :=
  g' = g ∨ error.isCapacity = true ∧ ∃ changes bytes cache,
    (cache = none ∨ cache = g.projectionCache) ∧ g.plannedProvenance fact = .ok changes ∧
    g' = storedGraph g fact cost changes bytes cache

variable {bytes current : Nat}

omit [Platform] in
private theorem isCapacity_of_checkDatabaseBytes {e : SemanticError}
    (h : g.checkDatabaseBytes bytes = .error e) : e.isCapacity = true := by
  unfold FactGraph.checkDatabaseBytes checkCapacity at h
  split at h
  · cases h
    rfl
  · cases h

variable {delta : IndexResidencyDelta}

omit [Platform] in
private theorem isCapacity_of_applyIndexResidencyDelta {e : SemanticError}
    (h : g.applyIndexResidencyDelta current delta = .error e) : e.isCapacity = true := by
  unfold FactGraph.applyIndexResidencyDelta FactGraph.checkedAddBytes at h
  split at h
  · split at h
    · cases h
    · cases h
      rfl
  · cases h
    rfl

omit [Platform] in
private theorem applyIndexResidencyDelta_ok
    (h : g.applyIndexResidencyDelta current delta = .ok bytes) :
    delta.removed ≤ current ∧ bytes = current - delta.removed + delta.added := by
  unfold FactGraph.applyIndexResidencyDelta at h
  split at h
  · exact ⟨‹_›, (checkedSum_ok h).1⟩
  · cases h

private theorem updatedProjection_cache (g : FactGraph) (cache : Option (Nat × Projection))
    (previous : Projection) (stagedCold : List FactId) :
    ({ g with projectionCache := cache } : FactGraph).updatedProjection previous
        (({ g with projectionCache := cache } : FactGraph).projectionImpactForFact fact stagedCold) =
      g.updatedProjection previous (g.projectionImpactForFact fact stagedCold) := rfl

variable {stagedCold : List FactId}

private theorem updateStoredProjection_spec {previous : Projection} {changes : AuthorityProvenance}
    {cache : Option (Nat × Projection)} (hCache : cache = none ∨ cache = g.projectionCache)
    (hPlan : g.plannedProvenance fact = .ok changes) :
    let projection := storedProjection g fact cost changes bytes previous stagedCold
    let resident := g.admittedBytes + cost.encodedBytes + bytes + projection.commitmentBytes
    Triple (· = storedGraph g fact cost changes bytes cache)
      (updateStoredProjection fact previous stagedCold)
      (fun _ g' => (resident ≤ u64Max ∧ resident ≤ g.policyLimits.maxDatabaseBytes) ∧
        g' = storedGraph g fact cost changes bytes (some (g.generation + 1, projection)))
      (fun e g' => InsertFailed g fact cost e g') := by
  intro projection resident
  have hFailed : ∀ (e : SemanticError), e.isCapacity = true →
      InsertFailed g fact cost e (storedGraph g fact cost changes bytes cache) :=
    fun e he => .inr ⟨he, changes, bytes, cache, hCache, hPlan, rfl⟩
  unfold updateStoredProjection
  refine triple_read ?_
  have hProjection : (storedGraph g fact cost changes bytes cache).updatedProjection previous
      ((storedGraph g fact cost changes bytes cache).projectionImpactForFact fact stagedCold) =
      projection :=
    updatedProjection_cache (storedGraph g fact cost changes bytes none) cache previous stagedCold
  have hResident : (storedGraph g fact cost changes bytes cache).admittedBytes +
      (storedGraph g fact cost changes bytes cache).derivedIndexBytes +
      projection.commitmentBytes = resident := by
    simp only [storedGraph, storeAdmitted_eq]
    rfl
  have hLimits : (storedGraph g fact cost changes bytes cache).policyLimits = g.policyLimits := by
    simp only [storedGraph, storeAdmitted_eq]
  have hGeneration : (storedGraph g fact cost changes bytes cache).generation =
      g.generation + 1 := by
    simp only [storedGraph, storeAdmitted_eq]
  dsimp only
  rw [hProjection, hResident]
  refine triple_bind (refuseIf_spec fun _ s hs => by
    rw [hs]
    exact hFailed _ rfl) fun _ => triple_assume fun hFits => ?_
  refine triple_bind (triple_graphCheck fun e he s hs =>
    hs ▸ hFailed e (isCapacity_of_checkDatabaseBytes he)) fun _ => triple_assume fun hDatabase => ?_
  refine triple_modify fun s hs => ⟨⟨Nat.not_lt.mp hFits, ?_⟩, ?_⟩
  · unfold FactGraph.checkDatabaseBytes checkCapacity at hDatabase
    split at hDatabase
    · cases hDatabase
    · rename_i hLe
      rw [hLimits] at hLe
      exact Nat.not_lt.mp hLe
  · rw [hs]
    exact congrArg (fun generation => storedGraph g fact cost changes bytes
      (some (generation, projection))) hGeneration

variable {supplied : Option Projection}

/-- **An insertion** stores the candidate, updates the projection and wakes the
waiters; a failure before the store changes nothing. -/
theorem insertJudged_spec :
    Triple (· = g) (insertJudged fact cost retainedReserved supplied stagedCold)
      (fun _ g' => Inserted g fact cost retainedReserved
        (supplied.getD g.projectionForUpdate) stagedCold g')
      (fun e g' => InsertFailed g fact cost e g') := by
  unfold insertJudged
  refine triple_read (triple_bind (triple_graphCheck fun _ _ s hs => .inl hs)
    fun delta => triple_assume fun hDelta => ?_)
  refine triple_bind (triple_graphCheck fun _ _ s hs => .inl hs)
    fun changes => triple_assume fun hPlan => ?_
  refine triple_bind (triple_graphCheck fun _ _ s hs => .inl hs)
    fun _ => triple_assume fun hReserved => ?_
  have hTake : Triple (· = g) (takePreviousProjection supplied)
      (fun previous g' => (∃ cache, (cache = none ∨ cache = g.projectionCache) ∧
          g' = { g with projectionCache := cache }) ∧
        previous = supplied.getD g.projectionForUpdate)
      (fun e g' => InsertFailed g fact cost e g') := by
    cases supplied with
    | some projection => exact triple_pure fun s hs => ⟨⟨g.projectionCache, .inr rfl, hs⟩, rfl⟩
    | none =>
      refine triple_read (triple_bind (Q := fun _ g' => g' = { g with projectionCache := none })
        (triple_modify fun s hs => hs ▸ rfl) fun _ => ?_)
      exact triple_pure fun s hs => ⟨⟨none, .inl rfl, hs⟩, rfl⟩
  refine triple_bind hTake fun previous => triple_assume fun hPrevious => ?_
  refine triple_of_forall ?_
  rintro _ ⟨cache, hCache, rfl⟩
  refine triple_bind (Q := fun _ g' => g' = storedGraph g fact cost changes g.derivedIndexBytes cache)
    (triple_modify fun s hs => ?_) fun _ => ?_
  · rw [hs]
    simp only [storedGraph, storeAdmitted_eq]
  refine triple_read (triple_bind (triple_graphCheck fun e he s hs => .inr
    ⟨isCapacity_of_applyIndexResidencyDelta he, changes, _, cache, hCache, hPlan, hs⟩) fun bytes =>
      triple_assume fun hBytes => ?_)
  refine triple_bind (Q := fun _ g' => g' = storedGraph g fact cost changes bytes cache)
    (triple_modify fun s hs => hs ▸ rfl) fun _ => ?_
  refine triple_bind (updateStoredProjection_spec hCache hPlan) fun _ => ?_
  refine triple_of_forall ?_
  rintro _ ⟨⟨hFits, hDatabase⟩, rfl⟩
  obtain ⟨hRemoved, hBytesEq⟩ := applyIndexResidencyDelta_ok hBytes
  have hDone : ∀ stored, stored = (if retainedReserved then
        storedGraph g fact cost changes bytes (some (g.generation + 1,
          storedProjection g fact cost changes bytes previous stagedCold))
      else (storedGraph g fact cost changes bytes (some (g.generation + 1,
          storedProjection g fact cost changes bytes previous stagedCold))).retainAuthor
            fact.content.author cost) →
      Inserted g fact cost retainedReserved (supplied.getD g.projectionForUpdate) stagedCold
        (stored.wakeDependency fact.id) := by
    rintro _ rfl
    rw [← hPrevious]
    exact ⟨changes, bytes, ⟨⟨delta, hDelta, hRemoved, hBytesEq⟩, hPlan, hReserved⟩, hFits, hDatabase, rfl⟩
  refine triple_bind (Q := fun _ stored => stored = _) ?_ fun _ => triple_modify hDone
  unfold GraphM.onlyIf
  cases retainedReserved with
  | true => exact triple_pure fun _ h => h
  | false => exact triple_modify fun s hs => congrArg (FactGraph.retainAuthor · _ cost) hs

/-! ## The whole admission -/

/-- The cost an admission works with: the preflighted one, or a screened one. -/
def CostOf (g : FactGraph) (fact : SignedFact) (validatedCost : Option FactCost)
    (cost : FactCost) : Prop :=
  validatedCost = some cost ∨ validatedCost = none ∧ Screened g fact cost

/-- What a successful admission answers and leaves. -/
inductive Admitted (g : FactGraph) (fact : SignedFact) (retainedReserved : Bool)
    (supplied : Option Projection) (validatedCost : Option FactCost) (stagedCold : List FactId) :
    Admission → FactGraph → Prop
  | alreadyPresent {g' : FactGraph} : validatedCost = none →
      (g.facts[fact.id]? = some fact ∨ g.quarantined[fact.id]? = some fact) → ReadOnly g g' →
      Admitted g fact retainedReserved supplied validatedCost stagedCold .alreadyPresent g'
  | quarantined {cost : FactCost} {s : FactGraph} : CostOf g fact validatedCost cost →
      cost.missing ≠ [] → ReadOnly g s →
      s.reserveQuarantine fact cost retainedReserved = .ok () →
      g.isAuthorizedSigner fact.content.author = true →
      Admitted g fact retainedReserved supplied validatedCost stagedCold
        (.quarantined (Std.ExtTreeSet.ofList cost.missing compare).toList)
        (s.storeQuarantined fact cost retainedReserved)
  | inserted {cost : FactCost} {s t g' : FactGraph} : CostOf g fact validatedCost cost →
      cost.missing = [] → ReadOnly g s → Judged s fact → ReadOnly g t →
      Inserted t fact cost retainedReserved (supplied.getD g.projectionForUpdate) stagedCold g' →
      Admitted g fact retainedReserved supplied validatedCost stagedCold .inserted g'

/-- What a failed admission leaves to its rollback. -/
def AdmitFailed (g : FactGraph) (fact : SignedFact) (validatedCost : Option FactCost)
    (error : SemanticError) (g' : FactGraph) : Prop :=
  ReadOnly g g' ∨ error.isCapacity = true ∧ ∃ cost t changes bytes cache,
    (cache = none ∨ cache = t.projectionCache) ∧ CostOf g fact validatedCost cost ∧ cost.missing = [] ∧ ReadOnly g t ∧
    t.plannedProvenance fact = .ok changes ∧ g' = storedGraph t fact cost changes bytes cache

variable {validatedCost : Option FactCost}

private theorem screenedCost_spec :
    Triple (· = g) (screenedCost fact validatedCost)
      (fun screened g' => ReadOnly g g' ∧ screened.elim
        (validatedCost = none ∧
          (g.facts[fact.id]? = some fact ∨ g.quarantined[fact.id]? = some fact))
        (CostOf g fact validatedCost))
      (fun _ g' => ReadOnly g g') := by
  cases validatedCost with
  | some cost => exact triple_pure fun s hs => ⟨ReadOnly.of_eq hs, .inl rfl⟩
  | none =>
    refine screenFact_spec.weaken (fun _ h => h) (fun screened s hs => ⟨hs.1, ?_⟩) fun _ _ h => h
    cases screened with
    | none => exact ⟨rfl, hs.2⟩
    | some cost => exact .inr ⟨rfl, hs.2⟩

/-- **One admission**, from any graph with current indexes. -/
theorem admitInnerWithProjectionStaged_spec (hCurrent : g.indexesCurrent = true) :
    Triple (· = g)
      (admitInnerWithProjectionStaged fact retainedReserved supplied validatedCost stagedCold)
      (Admitted g fact retainedReserved supplied validatedCost stagedCold)
      (AdmitFailed g fact validatedCost) := by
  unfold admitInnerWithProjectionStaged
  refine triple_bind (Q := fun _ g' => g' = g) (triple_modify fun s hs => ?_) fun _ => ?_
  · rw [hs]
    exact if_pos hCurrent
  refine triple_bind (screenedCost_spec.weaken (fun _ h => h) (fun _ _ h => h)
    fun _ _ h => .inl h) fun screened => triple_assume fun hScreened => ?_
  refine triple_of_forall fun s hs => ?_
  cases screened with
  | none => exact triple_pure fun t ht => .alreadyPresent hScreened.1 hScreened.2 (ht ▸ hs)
  | some cost =>
    refine triple_ite (fun hMissing => ?_) fun hMissing => ?_
    · have hNil : cost.missing = [] := List.isEmpty_iff.mp hMissing
      refine triple_bind ((judge_spec hs).weaken (fun _ h => h) (fun _ _ h => h)
        fun _ _ h => .inl h) fun _ => triple_assume fun hJudged => ?_
      refine triple_of_forall fun t ht => ?_
      refine triple_bind (insertJudged_spec.weaken (fun _ h => h) (fun _ _ h => h) ?_)
        fun _ => triple_pure fun g' hInserted => ?_
      · rintro e g' (rfl | ⟨hCapacity, changes, bytes, cache, hCache, hPlan, hEq⟩)
        · exact .inl ht
        · exact .inr ⟨hCapacity, cost, t, changes, bytes, cache, hCache, hScreened, hNil, ht, hPlan, hEq⟩
      · rw [ht.projectionForUpdate_eq] at hInserted
        exact .inserted hScreened hNil hs hJudged ht hInserted
    · have hNe : cost.missing ≠ [] := fun hNil => hMissing (List.isEmpty_iff.mpr hNil)
      refine triple_bind (Q := fun _ => ReadOnly g) ?_ fun _ => triple_of_forall fun t ht => ?_
      · unfold GraphM.onlyIf
        exact triple_ite (fun _ => (checkQuarantineSigner_spec hs).weaken (fun _ h => h)
          (fun _ _ h => h.1) fun _ _ h => .inl h) fun _ => triple_pure fun t ht => ht ▸ hs
      · refine (admitQuarantined_spec ht).weaken (fun _ h => h) ?_ fun _ _ h => .inl h
        rintro admission g' ⟨rfl, hSigner, u, hu, hReserve, rfl⟩
        exact .quarantined hScreened hNe hu hReserve (ht.isAuthorizedSigner_eq _ ▸ hSigner)

end Specs

end MyOwnMesh.Semantic
