import MyOwnMesh.Semantic.Trace

/-!
# The quarantine of a run

A waiting fact is stored with the dependencies it still misses, under every
missing dependency, and in the ready set once it misses none. The three indexes
are exact in every graph of a run: they are what one reads off the waiting facts
and the resident ones.
-/

namespace MyOwnMesh.Semantic

open Foundation

/-- The dependencies of a fact that are not resident. -/
def missingOf (facts : Facts) (fact : SignedFact) : OrdSet FactId :=
  .ofList (fact.dependencies.filter fun dependency => !facts.contains dependency) compare

theorem mem_missingOf {facts : Facts} {fact : SignedFact} {d : FactId} :
    d ∈ missingOf facts fact ↔ d ∈ fact.dependencies ∧ d ∉ facts := by
  unfold missingOf
  rw [mem_setOfList, List.mem_filter, Bool.not_eq_true', ← Bool.not_eq_true,
    Std.ExtTreeMap.contains_iff_mem]

/-- The fact `waiter` waits for `dependency`. -/
def Awaits (g : FactGraph) (dependency waiter : FactId) : Prop :=
  ∃ fact, g.quarantined[waiter]? = some fact ∧ dependency ∈ missingOf g.facts fact

/-- The indexes of the quarantine are those of its facts. -/
structure QuarantineExact (g : FactGraph) : Prop where
  named : ∀ (id : FactId) (fact : SignedFact), g.quarantined[id]? = some fact → fact.id = id
  fresh : ∀ id : FactId, id ∈ g.quarantined → id ∉ g.facts
  missing : ∀ id : FactId,
    g.quarantineMissing[id]? = (g.quarantined[id]?).map (missingOf g.facts)
  waiting : IndexOf g.waitingByDependency (Awaits g)
  ready : ∀ id : FactId, id ∈ g.readyQuarantine ↔
    ∃ fact, g.quarantined[id]? = some fact ∧ ∀ d ∈ fact.dependencies, d ∈ g.facts

namespace QuarantineExact

variable {g g' : FactGraph}

theorem congr (h : QuarantineExact g) (hFacts : g'.facts = g.facts)
    (hQuarantined : g'.quarantined = g.quarantined)
    (hMissing : g'.quarantineMissing = g.quarantineMissing)
    (hWaiting : g'.waitingByDependency = g.waitingByDependency)
    (hReady : g'.readyQuarantine = g.readyQuarantine) : QuarantineExact g' := by
  refine ⟨?_, ?_, ?_, ?_, ?_⟩
  · rw [hQuarantined]
    exact h.named
  · rw [hQuarantined, hFacts]
    exact h.fresh
  · rw [hMissing, hQuarantined, hFacts]
    exact h.missing
  · rw [hWaiting]
    refine h.waiting.congr fun d a => ?_
    unfold Awaits
    rw [hQuarantined, hFacts]
  · rw [hReady, hQuarantined, hFacts]
    exact h.ready

/-! ## Waiting -/

variable {fact : SignedFact}

variable {cost : FactCost}

/-- A waiter enters all indexes of the quarantine. -/
theorem storeQuarantined [Platform] (h : QuarantineExact g) {retainedReserved : Bool}
    (hFresh : fact.id ∉ g.facts) (hNew : fact.id ∉ g.quarantined)
    (hCost : g.factCost fact = .ok cost) (hMissing : cost.missing ≠ []) :
    QuarantineExact (g.storeQuarantined fact cost retainedReserved) := by
  have hMissingOf : Std.ExtTreeSet.ofList cost.missing compare = missingOf g.facts fact := by
    rw [factCost_missing hCost]
    rfl
  have hNone : g.quarantined[fact.id]? = none := Std.ExtTreeMap.getElem?_eq_none hNew
  have hGet (id : FactId) : (g.storeQuarantined fact cost true).quarantined[id]? =
      if fact.id = id then some fact else g.quarantined[id]? := getElem?_insert_eq _ _ _ _
  have hAwaits (d w : FactId) : Awaits (g.storeQuarantined fact cost true) d w ↔
      d ∈ (missingOf g.facts fact).toList ∧ fact.id = w ∨ Awaits g d w := by
    unfold Awaits
    rw [hGet, Std.ExtTreeSet.mem_toList]
    by_cases hEq : fact.id = w
    · subst hEq
      rw [if_pos rfl, hNone]
      exact ⟨fun ⟨_, hSome, hd⟩ => .inl ⟨Option.some.inj hSome ▸ hd, rfl⟩,
        fun hd => hd.elim (fun hd => ⟨fact, rfl, hd.1⟩) fun ⟨_, hSome, _⟩ => nomatch hSome⟩
    · rw [if_neg hEq]
      exact ⟨.inr, fun hd => hd.resolve_left fun hd => hEq hd.2⟩
  have hStored : QuarantineExact (g.storeQuarantined fact cost true) := by
    refine ⟨fun id waiter hSome => ?_, fun id hMem => ?_, fun id => ?_, ?_, fun id => ?_⟩
    · rw [hGet] at hSome
      split at hSome
      · next hEq => exact Option.some.inj hSome ▸ hEq
      · exact h.named id waiter hSome
    · rcases mem_map_insert_iff.mp hMem with rfl | hOld
      · exact hFresh
      · exact h.fresh id hOld
    · change (g.quarantineMissing.insert fact.id (Std.ExtTreeSet.ofList cost.missing compare))[id]? = _
      rw [hGet, getElem?_insert_eq, hMissingOf]
      split
      · rfl
      · exact h.missing id
    · change IndexOf ((Std.ExtTreeSet.ofList cost.missing compare).toList.foldl _ _) _
      rw [hMissingOf]
      exact (h.waiting.foldl_addTo fact.id _).congr fun d w => (hAwaits d w).symm
    · refine (h.ready id).trans ?_
      rw [hGet]
      split
      · next hEq =>
          subst hEq
          rw [hNone]
          refine ⟨fun ⟨_, hSome, _⟩ => (nomatch hSome), fun ⟨_, hSome, hAll⟩ => absurd ?_ hMissing⟩
          rw [factCost_missing hCost, List.filter_eq_nil_iff]
          intro d hd
          have hRes : d ∈ g.facts := hAll d (Option.some.inj hSome ▸ hd)
          rw [Std.ExtTreeMap.contains_iff_mem.mpr hRes]
          decide
      · exact Iff.rfl
  cases retainedReserved with
  | true => exact hStored
  | false => exact hStored.congr rfl rfl rfl rfl rfl

/-! ## Leaving -/

variable {m : OrdMap FactId (OrdSet FactId)}

variable {member : FactId → FactId → Prop}

private theorem indexOf_dropWaiter (h : IndexOf m member) (waiter dependency : FactId) :
    IndexOf (FactGraph.dropWaiter m waiter dependency)
      (fun d w => member d w ∧ ¬ (dependency = d ∧ waiter = w)) := by
  have hLookup (d : FactId) : (FactGraph.dropWaiter m waiter dependency)[d]? =
      if dependency = d then m[d]?.bind fun waiters =>
        if (waiters.erase waiter).isEmpty then none else some (waiters.erase waiter)
      else m[d]? := by
    unfold FactGraph.dropWaiter
    by_cases hEq : dependency = d
    · subst hEq
      rw [if_pos rfl]
      cases hGet : m[dependency]? with
      | none => exact hGet
      | some waiters =>
        dsimp only [Option.bind_some]
        split
        · rw [getElem?_erase_eq, if_pos rfl]
        · rw [getElem?_insert_eq, if_pos rfl]
    · rw [if_neg hEq]
      split
      · rfl
      · split
        · exact getElem?_erase_of_ne hEq
        · exact getElem?_insert_of_ne hEq
  refine ⟨fun d w => ?_, fun d s hSome => ?_⟩
  · rw [getD_eq_getElem?_getD, hLookup, ← h.mem_iff, getD_eq_getElem?_getD]
    by_cases hEq : dependency = d
    · rw [if_pos hEq]
      cases hGet : m[d]? with
      | none => simp
      | some waiters =>
        have hErase : w ∈ waiters.erase waiter ↔ w ∈ waiters ∧ ¬ (dependency = d ∧ waiter = w) := by
          rw [mem_erase_iff]
          tauto
        dsimp only [Option.bind_some, Option.getD_some]
        split
        · next hEmpty =>
            rw [Std.ExtTreeSet.isEmpty_iff] at hEmpty
            rw [← hErase, hEmpty]
            rfl
        · exact hErase
    · rw [if_neg hEq]
      tauto
  · rw [hLookup] at hSome
    split at hSome
    · obtain ⟨waiters, -, hSome⟩ := Option.bind_eq_some_iff.mp hSome
      split at hSome
      · cases hSome
      · next hNonempty =>
          cases hSome
          by_contra hNone
          refine hNonempty (Std.ExtTreeSet.isEmpty_iff.mpr ?_)
          exact Std.ExtTreeSet.eq_empty_iff_forall_not_mem.mpr (not_exists.mp hNone)
    · exact h.nonempty d s hSome

private theorem indexOf_foldl_dropWaiter (waiter : FactId) (keys : List FactId) :
    ∀ {m : OrdMap FactId (OrdSet FactId)} {member : FactId → FactId → Prop}, IndexOf m member →
      IndexOf (keys.foldl (fun m d => FactGraph.dropWaiter m waiter d) m)
        (fun d w => member d w ∧ ¬ (d ∈ keys ∧ waiter = w)) := by
  induction keys with
  | nil =>
    intro m member h
    exact h.congr fun d w => by simp
  | cons key keys ih =>
    intro m member h
    refine (ih (indexOf_dropWaiter h waiter key)).congr fun d w => ?_
    rw [List.mem_cons, eq_comm]
    tauto

/-- A waiter leaves all of them. -/
theorem unstoreQuarantined (h : QuarantineExact g) {id : FactId}
    (hGet : g.quarantined[id]? = some fact) :
    QuarantineExact (g.unstoreQuarantined fact id cost) := by
  have hMissing : g.quarantineMissing.getD id ∅ = missingOf g.facts fact := by
    rw [getD_eq_getElem?_getD, h.missing, hGet]
    rfl
  have hLookup (a : FactId) : (g.unstoreQuarantined fact id cost).quarantined[a]? =
      if id = a then none else g.quarantined[a]? := getElem?_erase_eq _ _ _
  refine ⟨fun a waiter hSome => ?_, fun a hMem => ?_, fun a => ?_, ?_, fun a => ?_⟩
  · rw [hLookup] at hSome
    split at hSome
    · cases hSome
    · exact h.named a waiter hSome
  · exact h.fresh a (mem_map_erase_iff.mp hMem).2
  · change (g.quarantineMissing.erase id)[a]? = _
    rw [getElem?_erase_eq, hLookup]
    split
    · rfl
    · exact h.missing a
  · refine (indexOf_foldl_dropWaiter id (g.quarantineMissing.getD id ∅).toList h.waiting).congr
      fun d w => ?_
    rw [hMissing, Std.ExtTreeSet.mem_toList]
    unfold Awaits
    rw [hLookup]
    by_cases hEq : id = w
    · subst hEq
      rw [if_pos rfl, hGet]
      refine ⟨fun ⟨⟨_, hSome, hd⟩, hNot⟩ => absurd ⟨?_, rfl⟩ hNot, fun ⟨_, hSome, _⟩ => (nomatch hSome)⟩
      rw [Option.some.inj hSome]
      exact hd
    · rw [if_neg hEq]
      exact and_iff_left fun hd => hEq hd.2
  · change a ∈ g.readyQuarantine.erase id ↔ _
    rw [mem_erase_iff, h.ready, hLookup]
    by_cases hEq : id = a
    · rw [if_pos hEq]
      exact ⟨fun ha => absurd hEq ha.1, fun ⟨_, hSome, _⟩ => (nomatch hSome)⟩
    · rw [if_neg hEq]
      exact and_iff_right hEq

/-! ## Waking -/

private theorem indexOf_erase (h : IndexOf m member) (k : FactId) :
    IndexOf (m.erase k) (fun d w => k ≠ d ∧ member d w) := by
  refine ⟨fun d w => ?_, fun d s hSome => ?_⟩
  · rw [getD_eq_getElem?_getD, getElem?_erase_eq]
    by_cases hEq : k = d
    · simp [hEq]
    · rw [if_neg hEq, ← getD_eq_getElem?_getD, h.mem_iff]
      exact (and_iff_right hEq).symm
  · rw [getElem?_erase_eq] at hSome
    split at hSome
    · cases hSome
    · exact h.nonempty d s hSome

private theorem wakeWaiter_rows (d waiter : FactId) (g : FactGraph) (a : FactId) :
    (g.wakeWaiter d waiter).quarantineMissing[a]? =
        (if waiter = a then g.quarantineMissing[a]?.map fun m => m.erase d
          else g.quarantineMissing[a]?) ∧
    (a ∈ (g.wakeWaiter d waiter).readyQuarantine ↔ a ∈ g.readyQuarantine ∨ waiter = a ∧
      ∃ m, g.quarantineMissing[a]? = some m ∧ (m.erase d).isEmpty = true) := by
  unfold FactGraph.wakeWaiter
  cases hGet : g.quarantineMissing[waiter]? with
  | none =>
    refine ⟨?_, ?_⟩
    · dsimp only
      split
      · next hEq => rw [← hEq, hGet, Option.map_none]
      · rfl
    · refine ⟨.inl, fun h => h.elim id ?_⟩
      rintro ⟨rfl, m, hSome, -⟩
      rw [hGet] at hSome
      cases hSome
  | some missing =>
    refine ⟨?_, ?_⟩
    · dsimp only
      rw [getElem?_insert_eq]
      split
      · next hEq => rw [← hEq, hGet, Option.map_some]
      · rfl
    · have hOwn : waiter = a ∧ (∃ m, g.quarantineMissing[a]? = some m ∧
          (m.erase d).isEmpty = true) ↔ waiter = a ∧ (missing.erase d).isEmpty = true := by
        refine and_congr_right ?_
        rintro rfl
        rw [hGet]
        simp
      rw [hOwn]
      dsimp only
      split
      · next hEmpty =>
          rw [mem_insert_iff, hEmpty]
          tauto
      · next hNonempty => simp [hNonempty]

/-- What waking a list of waiters does to the rows of one of them. -/
private theorem foldl_wakeWaiter (d : FactId) (waiters : List FactId) :
    waiters.Nodup → ∀ (g : FactGraph) (a : FactId),
      (waiters.foldl (FactGraph.wakeWaiter d) g).quarantineMissing[a]? =
          (if a ∈ waiters then g.quarantineMissing[a]?.map fun m => m.erase d
            else g.quarantineMissing[a]?) ∧
      (a ∈ (waiters.foldl (FactGraph.wakeWaiter d) g).readyQuarantine ↔
        a ∈ g.readyQuarantine ∨ a ∈ waiters ∧
          ∃ m, g.quarantineMissing[a]? = some m ∧ (m.erase d).isEmpty = true) := by
  induction waiters with
  | nil =>
    intro _ g a
    simp
  | cons waiter waiters ih =>
    intro hNodup g a
    obtain ⟨hHead, hRest⟩ := List.nodup_cons.mp hNodup
    obtain ⟨hMissing, hReady⟩ := ih hRest (g.wakeWaiter d waiter) a
    obtain ⟨hOwnMissing, hOwnReady⟩ := wakeWaiter_rows d waiter g a
    rw [List.foldl_cons, hMissing, hReady, hOwnMissing, hOwnReady]
    by_cases hEq : waiter = a
    · subst hEq
      simp [hHead]
    · have hNe : ¬ a = waiter := fun h => hEq h.symm
      simp [hEq, hNe]

private theorem foldl_wakeWaiter_frame (d : FactId) (waiters : List FactId) (g : FactGraph) :
    (waiters.foldl (FactGraph.wakeWaiter d) g).quarantined = g.quarantined ∧
      (waiters.foldl (FactGraph.wakeWaiter d) g).waitingByDependency = g.waitingByDependency ∧
      (waiters.foldl (FactGraph.wakeWaiter d) g).facts = g.facts := by
  refine List.foldlRecOn (motive := fun s : FactGraph => s.quarantined = g.quarantined ∧
    s.waitingByDependency = g.waitingByDependency ∧ s.facts = g.facts) waiters _ ⟨rfl, rfl, rfl⟩
    fun s hs waiter _ => ?_
  unfold FactGraph.wakeWaiter
  split <;> exact hs

/-- Waking is one fold over the waiters of a dependency, also when it has none. -/
private theorem wakeDependency_eq (g : FactGraph) (d : FactId) :
    g.wakeDependency d = (g.waitingByDependency.getD d ∅).toList.foldl (FactGraph.wakeWaiter d)
      { g with waitingByDependency := g.waitingByDependency.erase d } := by
  unfold FactGraph.wakeDependency
  rw [getD_eq_getElem?_getD]
  cases hGet : g.waitingByDependency[d]? with
  | none =>
    have hErase : g.waitingByDependency.erase d = g.waitingByDependency := by
      refine Std.ExtTreeMap.ext_getElem? fun k => ?_
      rw [getElem?_erase_eq]
      split
      · next hEq => rw [← hEq, hGet]
      · rfl
    rw [hErase]
    rfl
  | some waiters => rfl

/-- Waking moves no fact. -/
theorem wakeDependency_rows (g : FactGraph) (d : FactId) :
    (g.wakeDependency d).quarantined = g.quarantined ∧ (g.wakeDependency d).facts = g.facts := by
  rw [wakeDependency_eq]
  obtain ⟨hQuarantined, -, hFacts⟩ := foldl_wakeWaiter_frame d
    (g.waitingByDependency.getD d ∅).toList
    { g with waitingByDependency := g.waitingByDependency.erase d }
  exact ⟨hQuarantined, hFacts⟩

/-- Storing a fact that was not waiting, and waking its waiters. -/
theorem wakeDependency (h : QuarantineExact g) {stored : FactGraph} (hNew : fact.id ∉ g.quarantined)
    (hFacts : stored.facts = g.facts.insert fact.id fact)
    (hQuarantined : stored.quarantined = g.quarantined)
    (hMissing : stored.quarantineMissing = g.quarantineMissing)
    (hWaiting : stored.waitingByDependency = g.waitingByDependency)
    (hReady : stored.readyQuarantine = g.readyQuarantine) :
    QuarantineExact (stored.wakeDependency fact.id) := by
  have hShrink (waiter : SignedFact) :
      missingOf stored.facts waiter = (missingOf g.facts waiter).erase fact.id := by
    refine set_ext fun d => ?_
    rw [mem_erase_iff, mem_missingOf, mem_missingOf, hFacts, mem_map_insert_iff]
    tauto
  have hWaiters (w : FactId) : w ∈ (g.waitingByDependency.getD fact.id ∅).toList ↔
      Awaits g fact.id w := by
    rw [Std.ExtTreeSet.mem_toList]
    exact h.waiting.mem_iff fact.id w
  have hRows := foldl_wakeWaiter fact.id (g.waitingByDependency.getD fact.id ∅).toList
    (toList_nodup _) { stored with waitingByDependency := stored.waitingByDependency.erase fact.id }
  obtain ⟨hQ, hW, hF⟩ := foldl_wakeWaiter_frame fact.id
    (g.waitingByDependency.getD fact.id ∅).toList
    { stored with waitingByDependency := stored.waitingByDependency.erase fact.id }
  rw [wakeDependency_eq, hWaiting]
  rw [hWaiting] at hRows hQ hW hF
  generalize List.foldl _ _ _ = woken at hRows hQ hW hF ⊢
  dsimp only at hRows hQ hW hF
  simp only [hMissing, hReady, hWaiters] at hRows
  rw [hQuarantined] at hQ
  have hAwaits (d w : FactId) : Awaits woken d w ↔ fact.id ≠ d ∧ Awaits g d w := by
    unfold Awaits
    simp only [hQ, hF, hShrink, mem_erase_iff]
    tauto
  -- Without `fact` among them, the missing dependencies stay as they were.
  have hUnawaited {id : FactId} {waiter : SignedFact} (hGet : g.quarantined[id]? = some waiter)
      (hNot : ¬ Awaits g fact.id id) : fact.id ∉ missingOf g.facts waiter :=
    fun hMem => hNot ⟨waiter, hGet, hMem⟩
  refine ⟨fun id waiter hGet => h.named id waiter (hQ ▸ hGet), fun id hMem => ?_, fun id => ?_, ?_,
    fun id => ?_⟩
  · rw [hQ] at hMem
    rw [hF, hFacts, mem_map_insert_iff]
    rintro (rfl | hOld)
    · exact hNew hMem
    · exact h.fresh id hMem hOld
  · rw [(hRows id).1, h.missing, hQ, hF]
    cases hGet : g.quarantined[id]? with
    | none => simp
    | some waiter =>
      simp only [Option.map_some, hShrink]
      split
      · rfl
      · next hNot =>
          refine congrArg some (set_ext fun d => ?_)
          rw [mem_erase_iff]
          refine ⟨fun hd => ⟨?_, hd⟩, fun hd => hd.2⟩
          rintro rfl
          exact hUnawaited hGet (fun hAwait => hNot ((hWaiters id).mpr hAwait)) hd
  · rw [hW]
    exact (indexOf_erase h.waiting fact.id).congr fun d w => (hAwaits d w).symm
  · rw [(hRows id).2, h.ready, h.missing, hQ, hF]
    cases hGet : g.quarantined[id]? with
    | none => simp
    | some waiter =>
      simp only [Option.map_some, Option.some.injEq, exists_eq_left']
      constructor
      · rintro (hAll | ⟨-, hEmpty⟩) d hd
        · rw [hFacts, mem_map_insert_iff]
          exact .inr (hAll d hd)
        · by_contra hNot
          have hMem := mem_missingOf.mpr ⟨hd, hNot⟩
          rw [hShrink, Std.ExtTreeSet.isEmpty_iff.mp hEmpty] at hMem
          exact Std.ExtTreeSet.not_mem_empty hMem
      · intro hAll
        by_cases hAwait : Awaits g fact.id id
        · refine .inr ⟨hAwait, Std.ExtTreeSet.isEmpty_iff.mpr
            (Std.ExtTreeSet.eq_empty_iff_forall_not_mem.mpr fun d hd => ?_)⟩
          rw [← hShrink, mem_missingOf] at hd
          exact hd.2 (hAll d hd.1)
        · refine .inl fun d hd => by_contra fun hNot => ?_
          have hMem := mem_missingOf.mpr ⟨hd, hNot⟩
          have hStored := hAll d hd
          rw [hFacts, mem_map_insert_iff] at hStored
          rcases hStored with rfl | hOld
          · exact hUnawaited hGet hAwait hMem
          · exact hNot hOld

/-! ## Runs -/

theorem inserted [Platform] (h : QuarantineExact g) {retainedReserved : Bool}
    {previous : Projection} (hNew : fact.id ∉ g.quarantined)
    (hInserted : Inserted g fact cost retainedReserved previous [] g') : QuarantineExact g' := by
  obtain ⟨changes, bytes, -, -, -, rfl⟩ := hInserted.exists_plan
  cases retainedReserved <;> refine h.wakeDependency hNew ?_ ?_ ?_ ?_ ?_ <;>
    simp [storedGraph, storeAdmitted_eq, FactGraph.retainAuthor]

theorem step [Platform] {late : Prop} (hStep : Step late g g') (h : QuarantineExact g) :
    QuarantineExact g' := by
  cases hStep with
  | observe =>
    rw [observed_cacheOnly g]
    exact h.congr rfl rfl rfl rfl rfl
  | wait hOffered hMissing _ _ =>
    exact h.storeQuarantined hOffered.fresh hOffered.notQuarantined hOffered.costed hMissing
  | insert hScreened _ _ hCache hInserted =>
    refine inserted (?_ : QuarantineExact _) ?_ hInserted
    · rw [hCache]
      exact h.congr rfl rfl rfl rfl rfl
    · rw [hCache]
      exact hScreened.notQuarantined
  | withdraw hGet _ => exact h.unstoreQuarantined hGet
  | @unready id hNone =>
    refine h.congr rfl rfl rfl rfl (set_ext fun a => ?_)
    dsimp only
    rw [mem_erase_iff]
    refine and_iff_right_of_imp fun hMem => ?_
    rintro rfl
    obtain ⟨_, hSome, -⟩ := (h.ready id).mp hMem
    rw [hNone] at hSome
    cases hSome
  | _ => exact h.congr rfl rfl rfl rfl rfl

theorem shape (h : QuarantineExact g) : QuarantineShape g := by
  refine fun id fact hGet => ⟨h.named id fact hGet, fun d hd => ?_⟩
  rw [getD_eq_getElem?_getD, h.missing, hGet] at hd
  exact (mem_missingOf.mp hd).1


end QuarantineExact

end MyOwnMesh.Semantic
