import MyOwnMesh.Semantic.CausalPast

/-!
# Histories

A history is the sequence of steps the calls of an owner consist of, with a
condition on every insertion: the graph a fact is inserted into and the fact.
Every owner run is a history without condition. In a history each resident fact
was once judged in a sound graph that met the condition, and its causal past
has stayed the same since.
-/

namespace MyOwnMesh.Semantic

open Foundation

/-- A fact that one graph has in addition to another. -/
def Inserts (g g' : FactGraph) (fact : SignedFact) : Prop :=
  fact.id ∉ g.facts ∧ g'.facts[fact.id]? = some fact

variable [Platform]

/-- The steps of owner calls from `start`, every insertion under `cond`. What a
call undoes at once leads back to the graph before, up to its cache. -/
inductive History (cond : FactGraph → SignedFact → Prop) (start : FactGraph) : FactGraph → Prop
  | start : History cond start start
  | step {g g' : FactGraph} : History cond start g → Step True g g' →
      (∀ fact, Inserts g g' fact → cond g fact) → History cond start g'
  | undone {g g' : FactGraph} {entries : SparseEntries} {current : Option Projection} :
      History cond start g → Undone g entries current g' → History cond start g'

/-! ## Owner runs -/

variable {g g' start : FactGraph}

theorem History.trace (h : History (fun _ _ => True) start g) (hTrace : Trace True g g') :
    History (fun _ _ => True) start g' := by
  induction hTrace with
  | refl => exact h
  | tail _ hStep ih => exact .step ih hStep fun _ _ => trivial

theorem History.effect (h : History (fun _ _ => True) start g) (hEffect : CallEffect True g g') :
    History (fun _ _ => True) start g' := by
  cases hEffect with
  | kept hTrace _ => exact h.trace hTrace
  | undone hRead hUndone => exact .undone (h.trace hRead.trace) hUndone

theorem History.runCalls (calls : List OwnerCall) : ∀ {g : FactGraph},
    History (fun _ _ => True) start g → Settled g →
      History (fun _ _ => True) start (runCalls g calls) := by
  induction calls with
  | nil => exact fun h _ => h
  | cons call calls ih =>
    intro g h hSettled
    have hEffect := call.run_effect hSettled.toSound hSettled.deferral
    exact ih (h.effect hEffect) (hSettled.effect hEffect)

/-- **Every owner run is a history.** -/
theorem Reachable.history {bootstrap : VerifiedBootstrap} {limits : SemanticAdmissionPolicy}
    (h : Reachable bootstrap limits g) :
    History (fun _ _ => True) (.fromBootstrapWithPolicy bootstrap limits) g := by
  obtain ⟨calls, rfl⟩ := h
  exact History.runCalls calls .start ⟨empty_sound _ _ _ _, rfl⟩

/-! ## What a step stores -/

section Store

variable {late : Prop} {g g' : FactGraph}

theorem Stored.grown {fact : SignedFact} {cost : FactCost} (h : Stored g fact cost g') :
    g'.facts = g.facts.insert fact.id fact ∧ SameProject g g' := by
  obtain ⟨_, changes, bytes, -, -, hFrame⟩ := h.exists_plan
  have hStored : (storedGraph g fact cost changes bytes none).facts =
      g.facts.insert fact.id fact ∧ SameProject g (storedGraph g fact cost changes bytes none) := by
    unfold storedGraph
    rw [storeAdmitted_eq]
    exact ⟨rfl, rfl, rfl, rfl, rfl⟩
  have hFacts : g'.facts = (storedGraph g fact cost changes bytes none).facts := by
    rw [hFrame]
  exact ⟨hFacts.trans hStored.1, hStored.2.trans (.of_coreFrame hFrame)⟩

/-- A step keeps the facts, or inserts one that it has judged. -/
theorem Step.facts (h : Step late g g') :
    SameProject g g' ∧ (g'.facts = g.facts ∨ ∃ fact cost, g'.facts = g.facts.insert fact.id fact ∧
      Screened g fact cost ∧ cost.missing = [] ∧ JudgedIn g fact) := by
  rcases h.core with hFrame | ⟨fact, cost, hScreened, hMissing, hJudged, hStored⟩
  · refine ⟨.of_coreFrame hFrame, .inl ?_⟩
    rw [hFrame]
  · obtain ⟨hFacts, hProject⟩ := hStored.grown
    exact ⟨hProject, .inr ⟨fact, cost, hFacts, hScreened, hMissing, hJudged⟩⟩

theorem Step.within (h : Step late g g') : Within g.facts g'.facts := by
  obtain ⟨-, hSame | ⟨fact, cost, hFacts, hScreened, -⟩⟩ := h.facts
  · rw [hSame]
    exact fun _ _ hGet => hGet
  · rw [hFacts]
    exact within_insert hScreened.fresh

end Store

/-! ## Histories of sound graphs -/

/-- A resident fact, seen at the moment it was inserted. -/
structure JudgedAt (cond : FactGraph → SignedFact → Prop) (g : FactGraph) (fact : SignedFact)
    (before : FactGraph) : Prop where
  sound : SoundFacts before
  within : Within before.facts g.facts
  condition : cond before fact
  resident : ∀ d ∈ fact.dependencies, d ∈ before.facts
  judged : JudgedIn before fact
  past : g.exactPast fact = before.exactPast fact

variable {cond : FactGraph → SignedFact → Prop}

/-- What was judged stays judged while its past stays. -/
theorem JudgedAt.later {before : FactGraph} {fact : SignedFact} (h : JudgedAt cond g fact before)
    (hWithin : Within g.facts g'.facts) (hPast : g'.exactPast fact = g.exactPast fact) :
    JudgedAt cond g' fact before where
  sound := h.sound
  within id fact hGet := hWithin id fact (h.within id fact hGet)
  condition := h.condition
  resident := h.resident
  judged := h.judged
  past := hPast.trans h.past

namespace History

variable {cond : FactGraph → SignedFact → Prop} {start g : FactGraph}

theorem sound (h : History cond start g) (hStart : Sound start) : Sound g := by
  induction h with
  | start => exact hStart
  | step _ hStep _ ih => exact ih.step hStep
  | undone _ hUndone ih => exact ih.undone hUndone

theorem sameProject (h : History cond start g) : SameProject start g := by
  induction h with
  | start => exact .refl start
  | step _ hStep _ ih => exact ih.trans hStep.facts.1
  | undone _ hUndone ih => exact ih.trans (.of_coreFrame (.of_cacheOnly hUndone.cacheOnly))

/-- Admitted facts stay. -/
theorem within (h : History cond start g) : Within start.facts g.facts := by
  induction h with
  | start => exact fun _ _ hGet => hGet
  | step _ hStep _ ih => exact fun _ _ hGet => hStep.within _ _ (ih _ _ hGet)
  | undone _ hUndone ih =>
    rw [hUndone.eq]
    exact ih

/-- **Every resident fact was judged under the condition**, and its past has not
changed since. -/
theorem judgedAt (h : History cond start g) (hStart : Sound start) (hEmpty : start.facts = ∅)
    {id : FactId} {fact : SignedFact} (hGet : g.facts[id]? = some fact) :
    ∃ before, JudgedAt cond g fact before := by
  induction h with
  | start =>
    rw [hEmpty] at hGet
    simp at hGet
  | @step g g' hHistory hStep hCond ih =>
    have hSound := hHistory.sound hStart
    have hWithin := hStep.within
    obtain ⟨hProject, hKept⟩ := hStep.facts
    have hOld (hOld : g.facts[id]? = some fact) : ∃ before, JudgedAt cond g' fact before := by
      obtain ⟨before, hBefore⟩ := ih hOld
      exact ⟨before, hBefore.later hWithin
        (exactPast_within hSound.causal hWithin hProject (hSound.causal.closed hOld))⟩
    obtain hSame | ⟨new, cost, hFacts, hScreened, hMissing, hJudged⟩ := hKept
    · exact hOld (hSame ▸ hGet)
    · by_cases hNew : id = new.id
      · rw [hFacts, getElem?_insert_eq, if_pos hNew.symm] at hGet
        obtain rfl := Option.some.inj hGet
        have hDeps := dependencies_resident (factCost_missing hScreened.costed) hMissing
        refine ⟨g, hSound.toSoundFacts, hWithin, ?_, hDeps, hJudged,
          exactPast_within hSound.causal hWithin hProject hDeps⟩
        refine hCond _ ⟨hScreened.fresh, ?_⟩
        rw [hFacts, getElem?_insert_eq, if_pos rfl]
      · rw [hFacts, getElem?_insert_eq, if_neg (Ne.symm hNew)] at hGet
        exact hOld hGet
  | @undone g g' _ _ hHistory hUndone ih =>
    rw [hUndone.eq] at hGet ⊢
    obtain ⟨before, hBefore⟩ := ih hGet
    exact ⟨before, hBefore.later (fun _ _ h => h) rfl⟩

end History

/-! ## Runs of plain admissions -/

/-- Admit a list of facts; `none` unless each is inserted and passes the test. -/
def admitEach (test : FactGraph → SignedFact → Bool) (g : FactGraph) :
    List SignedFact → Option FactGraph
  | [] => some g
  | fact :: facts =>
    match exec (admitFact fact) g with
    | (.ok .inserted, after) => if test g fact then admitEach test after facts else none
    | _ => none

/-- An insertion by a plain admission is one step. -/
theorem admitFact_step {fact : SignedFact} (h : Sound g)
    (hRun : exec (admitFact fact) g = (.ok .inserted, g')) :
    Step True g g' ∧ ∀ other, Inserts g g' other → other = fact := by
  have hSpec : Triple (· = g) (admitFact fact) _ _ :=
    admitFact_spec h.current h.rebuildable h.committed
  have hMeets := hSpec g rfl
  rw [hRun] at hMeets
  have hAdmitted : Admitted g fact false none none [] .inserted g' := hMeets
  cases hAdmitted with
  | inserted hCost hMissing hReadS hJudged hReadT hInserted =>
    rcases hCost with hNone | ⟨-, hScreened⟩
    · cases hNone
    · have hStep : Step True g g' := .insert hScreened hMissing
        ⟨_, hReadS.cacheOnly, .inl hReadS.projection_eq, hJudged⟩ hReadT.cacheOnly hInserted
      refine ⟨hStep, fun other hOther => ?_⟩
      have hFacts := (hInserted.stored.of_cacheOnly hReadT.cacheOnly).grown.1
      have hGet := hOther.2
      rw [hFacts, getElem?_insert_eq] at hGet
      split at hGet
      · exact (Option.some.inj hGet).symm
      · exact absurd (mem_iff_exists.mpr ⟨other, hGet⟩) hOther.1

/-- A run of plain admissions that pass a test is a history. -/
theorem admitEach_history {test : FactGraph → SignedFact → Bool}
    (hTest : ∀ g fact, test g fact = true → cond g fact) (hStart : Sound start)
    (facts : List SignedFact) :
    ∀ {g g' : FactGraph}, History cond start g → admitEach test g facts = some g' →
      History cond start g' := by
  induction facts with
  | nil =>
    intro g g' h hRun
    cases hRun
    exact h
  | cons fact facts ih =>
    intro g g' h hRun
    unfold admitEach at hRun
    split at hRun
    · next after hExec =>
        split at hRun
        · next hPass =>
            obtain ⟨hStep, hOnly⟩ := admitFact_step (h.sound hStart) hExec
            refine ih (.step h hStep fun other hOther => ?_) hRun
            rw [hOnly other hOther]
            exact hTest g fact hPass
        · cases hRun
    · cases hRun

end MyOwnMesh.Semantic
