import MyOwnMesh.Semantic.History

/-!
# Authority in the causal past

An admitted operation was checked against a tier: the author's projected role
covered what the operation requires. The check reads the causal past of the
fact, except where the live graph is borrowed. A grant that carries all current
heads of its own subjects is judged in the live graph although other lineages
may have moved on, and then the role its author has in the past of the grant
may be another one. Under the condition that borrowed reads agree with the past
the classical results hold: every author held the required tier in the past,
every effective role has a chain of grants from the root, and a revocation or an
eviction of an Owner is by an Owner.
-/

namespace MyOwnMesh.Semantic

open Foundation SemanticEvaluator

/-! ## Tiers -/

theorem eq_owner_of_tierCovers {actual : Role} (h : tierCovers actual .owner = true) :
    actual = .owner := by
  cases actual with
  | owner => rfl
  | controller => cases h
  | member => cases h

theorem grantTier_eq_owner {role : Role} : grantTier role = .owner ↔ role = .owner := by
  cases role <;> decide

variable [Platform]

/-- A device holds the tier an operation requires. -/
def SemanticEvaluator.HoldsTier (e : SemanticEvaluator) (author : DeviceId) (body : FactBody) :
    Prop :=
  ∃ required actual, e.operationTier body = some required ∧
    e.effectiveRole author = some actual ∧ tierCovers actual required = true

/-! ## What a verdict says of its author -/

section Verdict

variable {e : SemanticEvaluator} {judged : FactGraph} {fact : SignedFact} {author : DeviceId}
  {body : FactBody}

omit [Platform] in
theorem hasTier_role {required : Role} (h : e.hasTier author required = true) :
    ∃ actual, e.effectiveRole author = some actual ∧ tierCovers actual required = true := by
  unfold SemanticEvaluator.hasTier at h
  rw [Bool.and_eq_true] at h
  cases hRole : e.effectiveRole author with
  | none =>
    rw [hRole] at h
    cases h.2
  | some actual =>
    rw [hRole] at h
    exact ⟨actual, rfl, h.2⟩

theorem holdsTier_of_authorizes (hBody : ∀ device evidence, body ≠ .selfStandDown device evidence)
    (h : e.authorizes author body = true) : e.HoldsTier author body := by
  have hHas {required : Role} (hTier : e.operationTier body = some required)
      (h : e.hasTier author required = true) : e.HoldsTier author body := by
    obtain ⟨actual, hRole, hCovers⟩ := hasTier_role h
    exact ⟨required, actual, hTier, hRole, hCovers⟩
  cases body with
  | selfStandDown device evidence => exact absurd rfl (hBody device evidence)
  | _ => exact hHas rfl h

/-- **An accepted operation is covered by its author's tier.** An eviction proof
is charged like the eviction it proves. -/
theorem verdict_holdsTier (hBody : ∀ device evidence,
    fact.content.body ≠ .selfStandDown device evidence) (h : judged.verdict fact = .ok ()) :
    judged.evaluator.HoldsTier fact.content.author fact.content.body := by
  obtain ⟨_, -, hAuthority⟩ := except_bind_eq_ok.mp h
  have hPlain (hVerdict : (if judged.isAuthorizedFor fact.content.body fact.content.author then
      Except.ok () else .error fact.content.body.lineageError) = .ok ()) :
      judged.evaluator.HoldsTier fact.content.author fact.content.body := by
    split at hVerdict
    · next hAuthorized => exact holdsTier_of_authorizes hBody hAuthorized
    · cases hVerdict
  unfold FactGraph.authorityVerdict at hAuthority
  cases hCase : fact.content.body with
  | selfStandDown device evidence => exact absurd hCase (hBody device evidence)
  | evictionProof target evidence =>
    rw [hCase] at hAuthority
    have hProof : judged.validateEvictionProof target evidence fact.content.author = .ok () :=
      hAuthority
    unfold FactGraph.validateEvictionProof at hProof
    cases hAuthorized : judged.isAuthorizedFor (.evict target) fact.content.author with
    | false =>
      rw [hAuthorized] at hProof
      cases hProof
    | true =>
      have hEvict : judged.evaluator.HoldsTier fact.content.author (.evict target) :=
        holdsTier_of_authorizes (fun _ _ h => by cases h) hAuthorized
      exact hEvict
  | _ =>
    rw [hCase] at hAuthority hPlain
    exact hPlain hAuthority

end Verdict

/-! ## What a role rests on -/

omit [Platform] in
/-- A role is that of a root without a projected value, or of a projected grant. -/
theorem effectiveRole_eq_some {e : SemanticEvaluator} {subject : DeviceId} {role : Role}
    (h : e.effectiveRole subject = some role) :
    (e.projection.value (.role subject) = none ∧
      e.projection.isConflicted (.role subject) = false ∧
      e.graph.authorityRoots.contains subject = true ∧ role = .owner) ∨
      ∃ (id : FactId) (fact : SignedFact), e.projection.value (.role subject) = some id ∧
        e.graph.facts[id]? = some fact ∧ fact.content.body = .roleGrant subject role := by
  unfold SemanticEvaluator.effectiveRole at h
  split at h
  · cases h
  · split at h
    · cases h
    · next hConflict =>
      cases hValue : e.projection.value (.role subject) with
      | none =>
        rw [hValue] at h
        dsimp only at h
        split at h
        · next hRoot =>
          exact .inl ⟨rfl, by simpa using hConflict, hRoot, (Option.some.inj h).symm⟩
        · cases h
      | some id =>
        rw [hValue] at h
        obtain ⟨fact, hGet, hRole⟩ := Option.bind_eq_some_iff.mp h
        refine .inr ⟨id, fact, rfl, hGet, ?_⟩
        unfold FactBody.projectedRole at hRole
        cases hBody : fact.content.body with
        | roleGrant target granted =>
          rw [hBody] at hRole
          dsimp only at hRole
          split at hRole
          · next hTarget => rw [hTarget, Option.some.inj hRole]
          · cases hRole
        | _ =>
          rw [hBody] at hRole
          cases hRole

/-! ## Authors in the past -/

/-- The author's role and the required tier are the same in two graphs. -/
def SameTier (fact : SignedFact) (live past : FactGraph) : Prop :=
  live.evaluator.effectiveRole fact.content.author =
      past.evaluator.effectiveRole fact.content.author ∧
    live.evaluator.operationTier fact.content.body = past.evaluator.operationTier fact.content.body

/-- Where the live graph is borrowed to judge a fact, the author's role and the
required tier are those of the causal past. -/
def TierReadsPast (g : FactGraph) (fact : SignedFact) : Prop := BorrowAgrees (SameTier fact) g fact

section Confinement

variable {bootstrap : VerifiedBootstrap} {limits : SemanticAdmissionPolicy} {g : FactGraph}

/-- **Every author held the required tier in the causal past.** -/
theorem History.holdsTier (h : History TierReadsPast (.fromBootstrapWithPolicy bootstrap limits) g)
    {id : FactId} {fact : SignedFact} (hGet : g.facts[id]? = some fact)
    (hBody : ∀ device evidence, fact.content.body ≠ .selfStandDown device evidence) :
    (g.exactPast fact).evaluator.HoldsTier fact.content.author fact.content.body := by
  obtain ⟨before, hBefore⟩ := h.judgedAt (empty_sound _ _ _ _) rfl hGet
  obtain ⟨judged, hVerdict, hRole, hTier⟩ := hBefore.judged.judged hBefore.sound hBefore.resident
    hBefore.condition ⟨rfl, rfl⟩
  obtain ⟨required, actual, hRequired, hActual, hCovers⟩ := verdict_holdsTier hBody hVerdict
  rw [hBefore.past]
  exact ⟨required, actual, hTier ▸ hRequired, hRole ▸ hActual, hCovers⟩

/-- The author of a grant holds the tier of the granted role in its past; only an
Owner grants Owner. -/
def GrantHeld (g : FactGraph) (grant : SignedFact) (role : Role) : Prop :=
  ∃ actual, (g.exactPast grant).evaluator.effectiveRole grant.content.author = some actual ∧
    tierCovers actual (grantTier role) = true ∧ (role = .owner → actual = .owner)

/-- A chain of admitted grants from the root: the author of every later grant is
the target of the one before. -/
inductive GrantChain (g : FactGraph) (root : DeviceId) : DeviceId → Role → Prop
  | first {id : FactId} {grant : SignedFact} {target : DeviceId} {role : Role} :
      g.facts[id]? = some grant → grant.content.body = .roleGrant target role →
      grant.content.author = root → GrantHeld g grant role → GrantChain g root target role
  | next {id : FactId} {grant : SignedFact} {target : DeviceId} {role held : Role} :
      GrantChain g root grant.content.author held →
      g.facts[id]? = some grant → grant.content.body = .roleGrant target role →
      GrantHeld g grant role → GrantChain g root target role

theorem History.grantHeld (h : History TierReadsPast (.fromBootstrapWithPolicy bootstrap limits) g)
    {id : FactId} {grant : SignedFact} {target : DeviceId} {role : Role}
    (hGet : g.facts[id]? = some grant) (hBody : grant.content.body = .roleGrant target role) :
    GrantHeld g grant role := by
  obtain ⟨required, actual, hRequired, hActual, hCovers⟩ := h.holdsTier hGet (by simp [hBody])
  rw [hBody] at hRequired
  obtain rfl : grantTier role = required := Option.some.inj hRequired
  refine ⟨actual, hActual, hCovers, fun hOwner => eq_owner_of_tierCovers ?_⟩
  rwa [grantTier_eq_owner.mpr hOwner] at hCovers

/-- A root of a closed project is its one root. -/
theorem History.eq_root {contextId : MeshContextId} {root : DeviceId}
    {cond : FactGraph → SignedFact → Prop}
    (h : History cond (.fromBootstrapWithPolicy (.closed contextId root) limits) g)
    {subject : DeviceId} (hRoot : g.authorityRoots.contains subject = true) : subject = root := by
  rw [h.sameProject.authorityRoots] at hRoot
  have hMem : (Std.ExtTreeSet.ofList [root] compare).contains subject = true := hRoot
  rw [Std.ExtTreeSet.contains_ofList, List.contains_iff_mem, List.mem_singleton] at hMem
  exact hMem

/-- Every admitted grant ends a chain from the root. The induction follows the
dependency order: the role of the author is read in the past of the grant. -/
theorem History.grantChain {contextId : MeshContextId} {root : DeviceId}
    (h : History TierReadsPast (.fromBootstrapWithPolicy (.closed contextId root) limits) g) :
    ∀ id ∈ g.facts, ∀ grant target role, g.facts[id]? = some grant →
      grant.content.body = .roleGrant target role → GrantChain g root target role := by
  have hCausal : CausalFacts g.facts := (h.sound (empty_sound _ _ _ _)).causal
  refine hCausal.induction fun id _ ih grant target role hGet hBody => ?_
  have hHeld := h.grantHeld hGet hBody
  have ⟨actual, hActual, _⟩ := hHeld
  rcases effectiveRole_eq_some hActual with ⟨-, -, hRoot, -⟩ | ⟨below, stored, -, hBelow, hGrant⟩
  · have hRoots : (g.exactPast grant).authorityRoots = g.authorityRoots :=
      (exactPast_sameProject g grant).authorityRoots
    have hAuthor : g.authorityRoots.contains grant.content.author = true := hRoots ▸ hRoot
    exact .first hGet hBody (h.eq_root hAuthor) hHeld
  · obtain ⟨hStored, hMem⟩ := getElem?_exactPast.mp hBelow
    exact .next (ih below (depends_of_mem_pastIds hGet hMem) stored _ _ hStored hGrant)
      hGet hBody hHeld

/-! ## A sample of grants -/

/-- An executable case of `TierReadsPast`: nothing is borrowed, or a grant is and
its author has the same role in both live projections and in the past. -/
def grantReadsPast (g : FactGraph) (fact : SignedFact) : Bool :=
  match g.causalPast fact with
  | .error _ => true
  | .ok causal =>
    !causal.borrowed ||
      match fact.content.body with
      | .roleGrant .. =>
        let past := (g.exactPast fact).evaluator.effectiveRole fact.content.author
        SemanticEvaluator.effectiveRole ⟨g, g.projection⟩ fact.content.author = past &&
          SemanticEvaluator.effectiveRole ⟨g, .fromGraph g⟩ fact.content.author = past
      | _ => false

theorem tierReadsPast_of_grantReadsPast {fact : SignedFact} (h : grantReadsPast g fact = true) :
    TierReadsPast g fact := by
  intro live causal hCache hProjection hCausal hBorrowed
  obtain ⟨found, hFound, hSame⟩ := hCache.causalPast_borrowed hCausal
  rw [hBorrowed] at hSame
  have hRole : live.evaluator.effectiveRole fact.content.author =
      SemanticEvaluator.effectiveRole ⟨g, live.projection⟩ fact.content.author := by
    have hFacts : live.facts = g.facts := by rw [hCache]
    have hRoots : live.authorityRoots = g.authorityRoots := by rw [hCache]
    unfold SemanticEvaluator.effectiveRole FactGraph.evaluator
    dsimp only
    rw [hFacts, hRoots]
  unfold grantReadsPast at h
  rw [hFound] at h
  dsimp only at h
  cases hBody : fact.content.body with
  | roleGrant target role =>
    rw [hBody, hSame] at h
    simp only [Bool.not_true, Bool.false_or, Bool.and_eq_true, decide_eq_true_eq] at h
    have hTier (e : SemanticEvaluator) :
        e.operationTier (.roleGrant target role) = some (grantTier role) := rfl
    refine ⟨?_, by rw [hBody, hTier, hTier]⟩
    rw [hRole]
    rcases hProjection with hLive | hLive
    · rw [hLive]
      exact h.1
    · rw [hLive]
      exact h.2
  | _ =>
    rw [hBody, hSame] at h
    cases h

end Confinement

/-! ## Removing an Owner -/

section Removal

variable {bootstrap : VerifiedBootstrap} {limits : SemanticAdmissionPolicy} {g : FactGraph}

/-- **An Owner is revoked and evicted by Owners only.** These bodies are charged
the tier of their target; a grant is charged the tier of the granted role alone. -/
theorem owner_removed_by_owner
    (h : History TierReadsPast (.fromBootstrapWithPolicy bootstrap limits) g)
    {id : FactId} {fact : SignedFact} {target : DeviceId} (hGet : g.facts[id]? = some fact)
    (hBody : fact.content.body = .roleRevoke target ∨ fact.content.body = .evict target)
    (hOwner : (g.exactPast fact).evaluator.effectiveRole target = some .owner) :
    (g.exactPast fact).evaluator.effectiveRole fact.content.author = some .owner := by
  have hCharged : (g.exactPast fact).evaluator.operationTier fact.content.body = some .owner := by
    have hTarget : (g.exactPast fact).evaluator.targetTier target = .owner := by
      unfold SemanticEvaluator.targetTier
      rw [hOwner]
      rfl
    rcases hBody with hBody | hBody
    · rw [hBody]
      exact congrArg some hTarget
    · rw [hBody]
      exact congrArg some hTarget
  have hChecked : ∀ device evidence, fact.content.body ≠ .selfStandDown device evidence := by
    rcases hBody with hBody | hBody <;> simp [hBody]
  obtain ⟨required, actual, hRequired, hActual, hCovers⟩ := h.holdsTier hGet hChecked
  rw [hCharged] at hRequired
  obtain rfl := Option.some.inj hRequired
  rw [hActual, eq_owner_of_tierCovers hCovers]

end Removal

/-- The root makes a controller, a second Owner and a member; the second Owner,
who has not seen the member, revokes the root and makes a member too. -/
def revokedRoot : List SignedFact :=
  let controller := sampleFact (sampleDevice 1) (.roleGrant (sampleDevice 2) .controller) [] []
  let owner := sampleFact (sampleDevice 1) (.roleGrant (sampleDevice 5) .owner)
    [(sampleDevice 1, [controller.id])] []
  let member := sampleFact (sampleDevice 1) (.roleGrant (sampleDevice 4) .member)
    [(sampleDevice 1, [owner.id])] []
  let revoke := sampleFact (sampleDevice 5) (.roleRevoke (sampleDevice 1))
    [(sampleDevice 5, [owner.id]), (sampleDevice 1, [owner.id])] []
  let below := sampleFact (sampleDevice 5) (.roleGrant (sampleDevice 6) .member)
    [(sampleDevice 5, [revoke.id])] []
  [controller, owner, member, revoke, below]

/-- The graph of that run; every grant reads its past. -/
def revokedRootGraph : Option FactGraph :=
  @admitEach samplePlatform (@grantReadsPast samplePlatform)
    (.fromBootstrapWithPolicy sampleBootstrap sampleLimits) revokedRoot

omit [Platform] in
theorem revokedRootGraph_history {g : FactGraph} (h : revokedRootGraph = some g) :
    @History samplePlatform (@TierReadsPast samplePlatform)
      (.fromBootstrapWithPolicy sampleBootstrap sampleLimits) g := by
  let _ : Platform := samplePlatform
  exact admitEach_history (fun _ _ => tierReadsPast_of_grantReadsPast) (empty_sound _ _ _ _)
    revokedRoot .start h

omit [Platform] in
/-- The run is admitted; the root is an Owner until the revocation, and the member of the second
Owner has its role. -/
theorem revokedRootGraph_run : let _ : Platform := samplePlatform
    revokedRootGraph.any (fun g => g.facts[revokedRoot[3].id]? = some revokedRoot[3] ∧
      (g.exactPast revokedRoot[3]).evaluator.effectiveRole (sampleDevice 1) = some .owner ∧
      g.evaluator.effectiveRole (sampleDevice 6) = some .member) = true := by
  decide +kernel

omit [Platform] in
/-- The revoked root and the author of the revocation are both Owners in its past. -/
theorem owner_removed_by_owner_revoke : ∃ g, revokedRootGraph = some g ∧
    g.facts[revokedRoot[3].id]? = some revokedRoot[3] ∧
    (@FactGraph.evaluator samplePlatform (@FactGraph.exactPast samplePlatform g
      revokedRoot[3])).effectiveRole (sampleDevice 1) = some .owner ∧
    (@FactGraph.evaluator samplePlatform (@FactGraph.exactPast samplePlatform g
      revokedRoot[3])).effectiveRole revokedRoot[3].content.author = some .owner := by
  let _ : Platform := samplePlatform
  obtain ⟨g, hGraph, hTest⟩ := (Option.any_eq_true _ _).mp revokedRootGraph_run
  obtain ⟨hGet, hOwner, -⟩ := of_decide_eq_true hTest
  exact ⟨g, hGraph, hGet, hOwner, owner_removed_by_owner (revokedRootGraph_history hGraph) hGet
    (.inl rfl) hOwner⟩

/-- The root makes a controller and a second Owner; the controller grants that
Owner the member role. -/
def demotion : List SignedFact :=
  let controller := sampleFact (sampleDevice 1) (.roleGrant (sampleDevice 2) .controller) [] []
  let owner := sampleFact (sampleDevice 1) (.roleGrant (sampleDevice 5) .owner)
    [(sampleDevice 1, [controller.id])] []
  let member := sampleFact (sampleDevice 2) (.roleGrant (sampleDevice 5) .member)
    [(sampleDevice 2, [controller.id]), (sampleDevice 5, [owner.id])] []
  [controller, owner, member]

omit [Platform] in
/-- A controller demotes an Owner: a grant is charged the tier of the role it
gives, not of the role it takes away. -/
theorem owner_demoted_by_controller : ∃ (_ : Platform) (bootstrap : VerifiedBootstrap)
    (limits : SemanticAdmissionPolicy) (g : FactGraph) (fact : SignedFact) (target : DeviceId),
    Reachable bootstrap limits g ∧ g.facts[fact.id]? = some fact ∧
      fact.content.body = .roleGrant target .member ∧ fact.content.author ≠ target ∧
      (g.exactPast fact).evaluator.effectiveRole target = some .owner ∧
      fact.id ∈ g.cellHeads (.role target) ∧ g.evaluator.effectiveRole target = some .member ∧
      (g.exactPast fact).evaluator.effectiveRole fact.content.author = some .controller := by
  have hRun : let _ : Platform := samplePlatform
      let g := runCalls (.fromBootstrapWithPolicy sampleBootstrap sampleLimits)
        (demotion.map .admitted)
      g.facts[demotion[2].id]? = some demotion[2] ∧
      demotion[2].content.body = .roleGrant (sampleDevice 5) .member ∧
      demotion[2].content.author ≠ sampleDevice 5 ∧
      (g.exactPast demotion[2]).evaluator.effectiveRole (sampleDevice 5) = some .owner ∧
      demotion[2].id ∈ g.cellHeads (.role (sampleDevice 5)) ∧
      g.evaluator.effectiveRole (sampleDevice 5) = some .member ∧
      (g.exactPast demotion[2]).evaluator.effectiveRole demotion[2].content.author =
        some .controller := by
    decide +kernel
  exact ⟨samplePlatform, sampleBootstrap, sampleLimits, _, demotion[2], sampleDevice 5,
    ⟨demotion.map .admitted, rfl⟩, hRun⟩

/-! ## Confinement -/

section Chains

variable {limits : SemanticAdmissionPolicy} {g : FactGraph}

/-- **Closed authority confinement.** Every author of a checked operation held
the required tier in the exact past of the operation, and every effective role
is the root's own or ends a chain of grants from the root. -/
theorem closed_authority_confined {contextId : MeshContextId} {root : DeviceId}
    (h : History TierReadsPast (.fromBootstrapWithPolicy (.closed contextId root) limits) g) :
    (∀ (id : FactId) (fact : SignedFact), g.facts[id]? = some fact →
      (∀ device evidence, fact.content.body ≠ .selfStandDown device evidence) →
      (g.exactPast fact).evaluator.HoldsTier fact.content.author fact.content.body) ∧
    ∀ subject role, g.evaluator.effectiveRole subject = some role →
      (subject = root ∧ role = .owner) ∨ GrantChain g root subject role := by
  refine ⟨fun id fact hGet hBody => h.holdsTier hGet hBody, fun subject role hRole => ?_⟩
  rcases effectiveRole_eq_some hRole with ⟨-, -, hRoot, hOwner⟩ | ⟨id, grant, -, hGet, hBody⟩
  · exact .inl ⟨h.eq_root hRoot, hOwner⟩
  · exact .inr (h.grantChain id (mem_iff_exists.mpr ⟨grant, hGet⟩) grant subject role hGet hBody)

end Chains

omit [Platform] in
/-- The revocation was authorized in its past, and the member that the second Owner made ends a
chain of more than one grant. -/
theorem closed_authority_confined_revoke : let _ : Platform := samplePlatform
    ∃ g, revokedRootGraph = some g ∧ revokedRoot[4].content.author ≠ sampleDevice 1 ∧
      (g.exactPast revokedRoot[3]).evaluator.HoldsTier revokedRoot[3].content.author
        revokedRoot[3].content.body ∧
      g.evaluator.effectiveRole (sampleDevice 6) = some .member ∧
      GrantChain g (sampleDevice 1) (sampleDevice 6) .member := by
  let _ : Platform := samplePlatform
  obtain ⟨g, hGraph, hTest⟩ := (Option.any_eq_true _ _).mp revokedRootGraph_run
  obtain ⟨hGet, -, hRole⟩ := of_decide_eq_true hTest
  obtain ⟨hHolds, hChains⟩ := closed_authority_confined (revokedRootGraph_history hGraph)
  refine ⟨g, hGraph, by decide, hHolds _ _ hGet fun _ _ hBody => ?_, hRole, ?_⟩
  · cases hBody
  · rcases hChains _ _ hRole with ⟨hRoot, -⟩ | hChain
    · exact absurd hRoot (by decide)
    · exact hChain

/-- The root makes a controller and a member in two branches and joins its own
lineage in favour of the controller. The controller's grant also has the other
branch as a parent, but not the join. -/
def rejoinedController : List SignedFact :=
  let controller := sampleFact (sampleDevice 1) (.roleGrant (sampleDevice 6) .controller) [] []
  let member := sampleFact (sampleDevice 1) (.roleGrant (sampleDevice 7) .member) [] []
  let join := sampleFact (sampleDevice 1) (.authorityLineageResolution (sampleDevice 1)
    (sortDedup [controller.id, member.id]) controller.id)
    [(sampleDevice 1, [controller.id, member.id])] []
  let grant := sampleFact (sampleDevice 6) (.roleGrant (sampleDevice 4) .member)
    [(sampleDevice 6, [controller.id])] [member.id]
  [controller, member, join, grant]

omit [Platform] in
/-- A grant is admitted by an author who has no role in the past of the grant:
it was judged in the live graph, which has the join. -/
theorem unauthorized_in_past : ∃ (_ : Platform) (contextId : MeshContextId) (root : DeviceId)
    (limits : SemanticAdmissionPolicy) (g : FactGraph) (fact : SignedFact) (target : DeviceId),
    Reachable (.closed contextId root) limits g ∧ g.facts[fact.id]? = some fact ∧
      fact.content.body = .roleGrant target .member ∧
      (g.exactPast fact).evaluator.effectiveRole fact.content.author = none := by
  have hRun : let _ : Platform := samplePlatform
      let g := runCalls (.fromBootstrapWithPolicy sampleBootstrap sampleLimits)
        (rejoinedController.map .admitted)
      g.facts[rejoinedController[3].id]? = some rejoinedController[3] ∧
      rejoinedController[3].content.body = .roleGrant (sampleDevice 4) .member ∧
      (g.exactPast rejoinedController[3]).evaluator.effectiveRole
        rejoinedController[3].content.author = none := by
    decide +kernel
  exact ⟨samplePlatform, sampleContext, sampleDevice 1, sampleLimits, _, rejoinedController[3],
    sampleDevice 4, ⟨rejoinedController.map .admitted, rfl⟩, hRun⟩

/-- The facts of the run have ids of their own. -/
example : (rejoinedController.map SignedFact.id).Nodup := by decide +kernel

end MyOwnMesh.Semantic
