import MyOwnMesh.Foundation.Program
import MyOwnMesh.Semantic.Causality
import MyOwnMesh.Semantic.Indexes

/-!
# Selector provenance is signed ancestry

`provenanceEntry` is the relation of a fact to a selector as the signed parents
define it. A plan made for a new fact, or for a resident selector during a
rebuild, turns a table of exact entries into a table of exact entries: a fact
inherits descent from its parents, and a selector relates all facts at once.
-/

namespace MyOwnMesh.Semantic

open Foundation

/-- The relation of a fact to a selector, by signed ancestry. -/
def exactRelation (facts : Facts) (selector selected id : FactId) :
    AuthoritySelectorRelation where
  selected
  postSelector := id == selector || isAncestorIn facts selector id
  selectedBefore := id == selected || isAncestorIn facts selected id
  beforeSelected := id == selected || isAncestorIn facts id selected

/-- The selected head of a resident lineage selector. -/
def selectedOf (facts : Facts) (selector : FactId) : Option FactId :=
  (facts[selector]?.bind fun fact => fact.content.body.lineageSelector).map Prod.snd

/-- The provenance a fact map defines. -/
def provenanceEntry (facts : Facts) (id selector : FactId) :
    Option AuthoritySelectorRelation :=
  (selectedOf facts selector).bind fun selected =>
    if id ∈ facts ∧ (exactRelation facts selector selected id).isRelated then
      some (exactRelation facts selector selected id)
    else none

/-- A table with the exact entries of the selectors in `done`, and no others. -/
structure ProvenanceAmong (facts : Facts) (done : FactId → Prop)
    (provenance : AuthorityProvenance) : Prop where
  exact_of_done : ∀ id selector : FactId, done selector →
    (provenance.getD id ∅)[selector]? = provenanceEntry facts id selector
  none_of_not_done : ∀ id selector : FactId, ¬ done selector →
    (provenance.getD id ∅)[selector]? = none
  nonempty : ∀ (id : FactId) (row : AuthorityProvenanceRow), provenance[id]? = some row →
    ∃ selector, selector ∈ row

variable {facts : Facts}

theorem ProvenanceAmong.congr {done done' : FactId → Prop} {provenance : AuthorityProvenance}
    (h : ProvenanceAmong facts done provenance) (hDone : ∀ id, done id ↔ done' id) :
    ProvenanceAmong facts done' provenance :=
  (funext fun id => propext (hDone id) : done = done') ▸ h

/-- Every selected head is resident. -/
def SelectedResident (facts : Facts) : Prop :=
  ∀ selector selected : FactId, selectedOf facts selector = some selected → selected ∈ facts

/-! ## Inheriting from the signed parents -/

/-- Merge one parent relation into an optional entry. -/
def mergeRelation (entry : Option AuthoritySelectorRelation)
    (relation : AuthoritySelectorRelation) : Option AuthoritySelectorRelation :=
  if relation.postSelector || relation.selectedBefore then
    let base := entry.getD
      { selected := relation.selected, postSelector := false, selectedBefore := false,
        beforeSelected := false }
    some { base with
      postSelector := base.postSelector || relation.postSelector
      selectedBefore := base.selectedBefore || relation.selectedBefore }
  else entry

theorem getElem?_inheritRelation (row : AuthorityProvenanceRow) (selector a : FactId)
    (relation : AuthoritySelectorRelation) :
    (inheritRelation row selector relation)[a]? =
      if selector = a then mergeRelation row[a]? relation else row[a]? := by
  unfold inheritRelation mergeRelation
  by_cases hFlags : (relation.postSelector || relation.selectedBefore) = true
  · rw [if_pos hFlags, if_pos hFlags, getElem?_insert_eq]
    by_cases hEq : selector = a
    · subst hEq
      rw [if_pos rfl, if_pos rfl, getD_eq_getElem?_getD]
    · rw [if_neg hEq, if_neg hEq]
  · rw [if_neg hFlags, if_neg hFlags, ite_self]

private theorem getElem?_foldl_inherit (entries : List (FactId × AuthoritySelectorRelation))
    (hDistinct : entries.Pairwise fun a b => ¬ compare a.1 b.1 = .eq) (a : FactId) :
    ∀ row : AuthorityProvenanceRow,
      (entries.foldl (fun row entry => inheritRelation row entry.1 entry.2) row)[a]? =
        ((entries.find? fun entry => entry.1 == a).map Prod.snd).elim row[a]?
          (mergeRelation row[a]?) := by
  induction entries with
  | nil => intro row; rfl
  | cons entry entries ih =>
    intro row
    obtain ⟨hHead, hRest⟩ := List.pairwise_cons.mp hDistinct
    rw [List.foldl_cons, ih hRest, getElem?_inheritRelation, List.find?_cons]
    by_cases hEq : entry.1 = a
    · have hNone : entries.find? (fun other => other.1 == a) = none := by
        rw [List.find?_eq_none]
        intro other hOther hSame
        refine hHead other hOther ?_
        rw [hEq, beq_iff_eq.mp hSame]
        exact Std.ReflOrd.compare_self
      simp [hEq, hNone]
    · rw [if_neg hEq, beq_eq_false_iff_ne.mpr hEq]

private theorem find?_toList (row : AuthorityProvenanceRow) (a : FactId) :
    ((row.toList.find? fun entry => entry.1 == a).map Prod.snd) = row[a]? := by
  cases hFind : row.toList.find? fun entry => entry.1 == a with
  | none =>
    cases hGet : row[a]? with
    | none => rfl
    | some relation =>
      have hMem := Std.ExtTreeMap.mem_toList_iff_getElem?_eq_some.mpr hGet
      exact absurd (beq_self_eq_true a) (List.find?_eq_none.mp hFind _ hMem)
  | some entry =>
    have hMem := List.mem_of_find?_eq_some hFind
    have hSame := List.find?_some hFind
    have hKey : entry.1 = a := beq_iff_eq.mp hSame
    rw [Option.map_some, ← Std.ExtTreeMap.mem_toList_iff_getElem?_eq_some.mp hMem, hKey]

/-- One entry of the inherited row: the own entry, merged with the parents'. -/
theorem getElem?_inheritedRow (g : FactGraph) (fact : SignedFact) (a : FactId) :
    (g.inheritedRow fact)[a]? =
      (fact.content.parents.filterMap fun parent => (g.authorityProvenance.getD parent ∅)[a]?).foldl
        mergeRelation (g.authorityProvenance.getD fact.id ∅)[a]? := by
  unfold FactGraph.inheritedRow
  generalize g.authorityProvenance.getD fact.id ∅ = row
  induction fact.content.parents generalizing row with
  | nil => rfl
  | cons parent parents ih =>
    rw [List.foldl_cons, ih, List.filterMap_cons]
    have hParent := getElem?_foldl_inherit (g.authorityProvenance.getD parent ∅).toList
      Std.ExtTreeMap.distinct_keys_toList a row
    rw [find?_toList] at hParent
    rw [hParent]
    cases (g.authorityProvenance.getD parent ∅)[a]? <;> rfl

/-- Merging relations of one selector collects their descent flags. -/
theorem foldl_mergeRelation (selected : FactId) (relations : List AuthoritySelectorRelation) :
    (∀ relation ∈ relations, relation.selected = selected) →
    ∀ entry : Option AuthoritySelectorRelation,
      (∀ relation, entry = some relation → relation.selected = selected) →
      relations.foldl mergeRelation entry =
        if entry.isSome ∨ relations.any (fun r => r.postSelector || r.selectedBefore) then
          some {
            selected
            postSelector := entry.any (·.postSelector) || relations.any (·.postSelector)
            selectedBefore := entry.any (·.selectedBefore) || relations.any (·.selectedBefore)
            beforeSelected := entry.any (·.beforeSelected) }
        else none := by
  induction relations with
  | nil =>
    intro _ entry hEntry
    cases entry with
    | none => rfl
    | some relation => simp [← hEntry relation rfl]
  | cons relation relations ih =>
    intro hRelations entry hEntry
    rw [List.foldl_cons]
    have hSelf := hRelations relation List.mem_cons_self
    rw [ih (fun r hr => hRelations r (List.mem_cons_of_mem relation hr))]
    · unfold mergeRelation
      by_cases hFlags : (relation.postSelector || relation.selectedBefore) = true
      · rw [if_pos hFlags]
        cases entry <;> simp [hFlags, Bool.or_assoc]
      · rw [if_neg hFlags]
        have hPost : relation.postSelector = false := by
          cases h : relation.postSelector <;> simp_all
        have hBefore : relation.selectedBefore = false := by
          cases h : relation.selectedBefore <;> simp_all
        simp [hPost, hBefore]
    · intro merged hMerged
      unfold mergeRelation at hMerged
      split at hMerged
      · rw [← Option.some.inj hMerged]
        cases entry with
        | none => exact hSelf
        | some base => exact hEntry base rfl
      · exact hEntry merged hMerged

/-! ## Exact entries -/

section Entries

variable {facts : Facts} {selector selected id : FactId}

theorem exactRelation_postSelector_iff :
    (exactRelation facts selector selected id).postSelector = true ↔
      id = selector ∨ Ancestor facts selector id := by
  simp [exactRelation, isAncestorIn_iff]

theorem exactRelation_selectedBefore_iff :
    (exactRelation facts selector selected id).selectedBefore = true ↔
      id = selected ∨ Ancestor facts selected id := by
  simp [exactRelation, isAncestorIn_iff]

theorem exactRelation_beforeSelected_iff :
    (exactRelation facts selector selected id).beforeSelected = true ↔
      id = selected ∨ Ancestor facts id selected := by
  simp [exactRelation, isAncestorIn_iff]

theorem exactRelation_isRelated_iff :
    (exactRelation facts selector selected id).isRelated = true ↔
      (id = selector ∨ Ancestor facts selector id) ∨
        (id = selected ∨ Ancestor facts selected id) ∨
          (id = selected ∨ Ancestor facts id selected) := by
  unfold AuthoritySelectorRelation.isRelated
  rw [Bool.or_eq_true, Bool.or_eq_true, exactRelation_postSelector_iff,
    exactRelation_selectedBefore_iff, exactRelation_beforeSelected_iff, or_assoc]

theorem relation_ext {a b : AuthoritySelectorRelation} (hSelected : a.selected = b.selected)
    (hPost : a.postSelector = true ↔ b.postSelector = true)
    (hAfter : a.selectedBefore = true ↔ b.selectedBefore = true)
    (hBefore : a.beforeSelected = true ↔ b.beforeSelected = true) : a = b := by
  cases a
  cases b
  simp only [AuthoritySelectorRelation.mk.injEq]
  exact ⟨hSelected, Bool.eq_iff_iff.mpr hPost, Bool.eq_iff_iff.mpr hAfter,
    Bool.eq_iff_iff.mpr hBefore⟩

theorem provenanceEntry_eq_some_iff {relation : AuthoritySelectorRelation}
    (hSelected : selectedOf facts selector = some selected) :
    provenanceEntry facts id selector = some relation ↔
      (id ∈ facts ∧ (exactRelation facts selector selected id).isRelated = true) ∧
        exactRelation facts selector selected id = relation := by
  unfold provenanceEntry
  rw [hSelected, Option.bind_some]
  split
  · simp_all
  · simp_all

/-- Some parent carries a flag exactly when the fact does by descent. -/
private theorem any_entries_iff (hSelected : selectedOf facts selector = some selected)
    {parents : List FactId} (hParents : ∀ p ∈ parents, p ∈ facts)
    (flag : AuthoritySelectorRelation → Bool) {above : FactId}
    (hRelated : ∀ r : AuthoritySelectorRelation, flag r = true → r.isRelated = true)
    (hFlag : ∀ p, flag (exactRelation facts selector selected p) = true ↔
      p = above ∨ Ancestor facts above p) :
    (parents.filterMap fun p => provenanceEntry facts p selector).any flag = true ↔
      ∃ p ∈ parents, above = p ∨ Ancestor facts above p := by
  rw [List.any_eq_true]
  constructor
  · rintro ⟨relation, hMem, hSet⟩
    obtain ⟨p, hp, hEntry⟩ := List.mem_filterMap.mp hMem
    obtain ⟨-, rfl⟩ := (provenanceEntry_eq_some_iff hSelected).mp hEntry
    exact ⟨p, hp, ((hFlag p).mp hSet).imp_left Eq.symm⟩
  · rintro ⟨p, hp, hAbove⟩
    have hSet := (hFlag p).mpr (hAbove.imp_left Eq.symm)
    refine ⟨_, List.mem_filterMap.mpr ⟨p, hp, (provenanceEntry_eq_some_iff hSelected).mpr
      ⟨⟨hParents p hp, hRelated _ hSet⟩, rfl⟩⟩, hSet⟩

section Inherit

variable {g : FactGraph} {fact : SignedFact} (hFacts : CausalFacts facts)
  (hGet : facts[fact.id]? = some fact) (hSelected : selectedOf facts selector = some selected)

include hFacts hGet hSelected

/-- The flags the parents of a fact hand down. -/
private theorem parent_flags :
    let entries := fact.content.parents.filterMap fun p => provenanceEntry facts p selector
    (entries.any (·.postSelector) = true ↔ Ancestor facts selector fact.id) ∧
    (entries.any (·.selectedBefore) = true ↔ Ancestor facts selected fact.id) ∧
    (entries.any (fun r => r.postSelector || r.selectedBefore) = true ↔
      Ancestor facts selector fact.id ∨ Ancestor facts selected fact.id) := by
  have hResident : ∀ p ∈ fact.content.parents, p ∈ facts := fun p hp =>
    hFacts.closed hGet p (SignedFact.mem_dependencies_of_parent hp)
  have hPost := any_entries_iff hSelected hResident (·.postSelector)
    (fun r h => by simp [AuthoritySelectorRelation.isRelated, h])
    (fun p => exactRelation_postSelector_iff)
  have hAfter := any_entries_iff hSelected hResident (·.selectedBefore)
    (fun r h => by simp [AuthoritySelectorRelation.isRelated, h])
    (fun p => exactRelation_selectedBefore_iff)
  rw [← ancestor_iff_parents hGet] at hPost hAfter
  refine ⟨hPost, hAfter, ?_⟩
  rw [← hPost, ← hAfter, List.any_eq_true, List.any_eq_true, List.any_eq_true]
  simp only [Bool.or_eq_true, and_or_left, exists_or]

omit hFacts hGet in
private theorem selected_of_mem_entries {parents : List FactId}
    (relation : AuthoritySelectorRelation)
    (h : relation ∈ parents.filterMap fun p => provenanceEntry facts p selector) :
    relation.selected = selected := by
  obtain ⟨p, -, hEntry⟩ := List.mem_filterMap.mp h
  obtain ⟨-, rfl⟩ := (provenanceEntry_eq_some_iff hSelected).mp hEntry
  rfl

variable (hParents : ∀ p ∈ fact.content.parents,
  (g.authorityProvenance.getD p ∅)[selector]? = provenanceEntry facts p selector)

include hParents

/-- An exact own entry already holds what the parents hand down. -/
theorem inheritedRow_of_exact (hOwn : (g.authorityProvenance.getD fact.id ∅)[selector]? =
      provenanceEntry facts fact.id selector) :
    (g.inheritedRow fact)[selector]? = provenanceEntry facts fact.id selector := by
  obtain ⟨hPost, hAfter, hAny⟩ := parent_flags hFacts hGet hSelected
  have hMem : fact.id ∈ facts := mem_iff_exists.mpr ⟨fact, hGet⟩
  rw [getElem?_inheritedRow, List.filterMap_congr hParents, hOwn]
  rw [foldl_mergeRelation selected _ (selected_of_mem_entries hSelected)]
  · cases hEntry : provenanceEntry facts fact.id selector with
    | none =>
      refine if_neg ?_
      rw [hAny]
      rintro (h | hDescends)
      · cases h
      · have hRelated : (exactRelation facts selector selected fact.id).isRelated = true :=
          exactRelation_isRelated_iff.mpr
            (hDescends.imp (fun h => .inr h) fun h => .inl (.inr h))
        rw [(provenanceEntry_eq_some_iff hSelected).mpr ⟨⟨hMem, hRelated⟩, rfl⟩] at hEntry
        cases hEntry
    | some relation =>
      obtain ⟨-, rfl⟩ := (provenanceEntry_eq_some_iff hSelected).mp hEntry
      rw [if_pos (.inl rfl)]
      refine congrArg some (relation_ext rfl ?_ ?_ Iff.rfl)
      · rw [Bool.or_eq_true, hPost]
        exact or_iff_left_iff_imp.mpr fun h => exactRelation_postSelector_iff.mpr (.inr h)
      · rw [Bool.or_eq_true, hAfter]
        exact or_iff_left_iff_imp.mpr fun h => exactRelation_selectedBefore_iff.mpr (.inr h)
  · intro relation hRelation
    obtain ⟨-, rfl⟩ := (provenanceEntry_eq_some_iff hSelected).mp hRelation
    rfl

/-- A fact without an entry that neither is nor precedes the selector and its
selected head inherits its exact entry. -/
theorem inheritedRow_of_none (hOwn : (g.authorityProvenance.getD fact.id ∅)[selector]? = none)
    (hNotSelector : fact.id ≠ selector) (hNotSelected : fact.id ≠ selected)
    (hNotBefore : ¬ Ancestor facts fact.id selected) :
    (g.inheritedRow fact)[selector]? = provenanceEntry facts fact.id selector := by
  obtain ⟨hPost, hAfter, hAny⟩ := parent_flags hFacts hGet hSelected
  have hMem : fact.id ∈ facts := mem_iff_exists.mpr ⟨fact, hGet⟩
  have hRelated : (exactRelation facts selector selected fact.id).isRelated = true ↔
      Ancestor facts selector fact.id ∨ Ancestor facts selected fact.id := by
    simp only [exactRelation_isRelated_iff, hNotSelector, hNotSelected, hNotBefore, false_or,
      or_false]
  rw [getElem?_inheritedRow, List.filterMap_congr hParents, hOwn,
    foldl_mergeRelation selected _ (selected_of_mem_entries hSelected) _ (by simp)]
  by_cases hDescends : Ancestor facts selector fact.id ∨ Ancestor facts selected fact.id
  · rw [if_pos (.inr (hAny.mpr hDescends)), (provenanceEntry_eq_some_iff hSelected).mpr
      ⟨⟨hMem, hRelated.mpr hDescends⟩, rfl⟩]
    refine congrArg some (relation_ext rfl ?_ ?_ ?_)
    · rw [exactRelation_postSelector_iff, or_iff_right hNotSelector, ← hPost]
      rfl
    · rw [exactRelation_selectedBefore_iff, or_iff_right hNotSelected, ← hAfter]
      rfl
    · rw [exactRelation_beforeSelected_iff, or_iff_right hNotSelected]
      exact ⟨fun h => (by cases h), fun h => absurd h hNotBefore⟩
  · rw [if_neg fun h => hDescends (hAny.mp (h.resolve_left Bool.false_ne_true))]
    cases hEntry : provenanceEntry facts fact.id selector with
    | none => rfl
    | some relation =>
      obtain ⟨⟨-, hSome⟩, -⟩ := (provenanceEntry_eq_some_iff hSelected).mp hEntry
      exact absurd (hRelated.mp hSome) hDescends

end Inherit

end Entries

/-! ## Plans -/

section Plans

/-- The row of a fact once the planned changes are applied. -/
theorem getD_union (provenance changes : AuthorityProvenance) (id : FactId) :
    (provenance ∪ changes).getD id ∅ = (changes[id]?.or provenance[id]?).getD ∅ := by
  rw [getD_eq_getElem?_getD, Std.ExtTreeMap.getElem?_union]

variable [Platform]
variable {g : FactGraph} {selector : FactId}

variable {id selected : FactId} {next plan : AuthorityProvenance × Nat}

/-- One recorded relation changes one entry of one row. -/
theorem planRelation_ok {relation : AuthoritySelectorRelation}
    (h : g.planRelation selector plan id relation = .ok next) :
    next.1 = plan.1.insert id
      (((g.authorityProvenance ∪ plan.1).getD id ∅).insert selector relation) := by
  unfold FactGraph.planRelation at h
  obtain ⟨changes, plannedBytes⟩ := plan
  simp only [except_bind_eq_ok] at h
  obtain ⟨_, -, _, -, _, -, _, -, hNext⟩ := h
  rw [← Except.ok.inj hNext, getD_union]

omit [Platform] in
private theorem getElem?_planned (provenance changes : AuthorityProvenance)
    (id a selector : FactId) (relation : AuthoritySelectorRelation) (s : FactId) :
    ((provenance ∪ changes.insert id
        (((provenance ∪ changes).getD id ∅).insert selector relation)).getD a ∅)[s]? =
      if id = a ∧ selector = s then some relation
      else ((provenance ∪ changes).getD a ∅)[s]? := by
  rw [getD_union, getElem?_insert_eq]
  by_cases hId : id = a
  · subst hId
    rw [if_pos rfl, Option.some_or, Option.getD_some, getElem?_insert_eq]
    by_cases hSelector : selector = s <;> simp [hSelector]
  · rw [if_neg hId, ← getD_union]
    simp [hId]

variable {selectedAncestors : OrdSet FactId}

omit [Platform] in
/-- The computed relation of a resident fact is the exact one. -/
theorem selectorRelation_eq (hFacts : CausalFacts facts) (hId : id ∈ facts)
    (hAncestors : ∀ a : FactId, a ∈ selectedAncestors ↔ Ancestor facts a selected) :
    selectorRelation facts selector selected selectedAncestors id =
      .ok (exactRelation facts selector selected id) := by
  obtain ⟨ancestors, hOk, hMem⟩ := completeAncestors_spec hFacts hId
  unfold selectorRelation
  rw [hOk]
  refine congrArg Except.ok (relation_ext rfl ?_ ?_ ?_)
  · rw [exactRelation_postSelector_iff, Bool.or_eq_true, beq_iff_eq,
      Std.ExtTreeSet.contains_iff_mem, hMem]
  · rw [exactRelation_selectedBefore_iff, Bool.or_eq_true, beq_iff_eq,
      Std.ExtTreeSet.contains_iff_mem, hMem]
  · rw [exactRelation_beforeSelected_iff, Bool.or_eq_true, beq_iff_eq,
      Std.ExtTreeSet.contains_iff_mem, hAncestors]

/-- The loop of one selector over resident facts. -/
private theorem foldlM_planRelation (hFacts : CausalFacts facts)
    (hAncestors : ∀ a : FactId, a ∈ selectedAncestors ↔ Ancestor facts a selected)
    (ids : List FactId) :
    (∀ id ∈ ids, id ∈ facts) → ∀ plan next : AuthorityProvenance × Nat,
      ids.foldlM (fun plan id => do
        let relation ← selectorRelation facts selector selected selectedAncestors id
        if relation.isRelated then g.planRelation selector plan id relation
        else return plan) plan = .ok next →
      ∀ a s : FactId, ((g.authorityProvenance ∪ next.1).getD a ∅)[s]? =
        if selector = s ∧ a ∈ ids ∧ (exactRelation facts selector selected a).isRelated then
          some (exactRelation facts selector selected a)
        else ((g.authorityProvenance ∪ plan.1).getD a ∅)[s]? := by
  induction ids with
  | nil =>
    intro _ plan next h a s
    rw [List.foldlM_nil] at h
    cases h
    simp
  | cons id ids ih =>
    intro hIds plan next h a s
    rw [List.foldlM_cons, selectorRelation_eq hFacts (hIds id List.mem_cons_self) hAncestors,
      except_bind_eq_ok] at h
    obtain ⟨mid, hMid, hRest⟩ := h
    rw [ih (fun b hb => hIds b (List.mem_cons_of_mem id hb)) mid next hRest a s]
    change (if _ then _ else _) = Except.ok mid at hMid
    split at hMid
    · rename_i hRelated
      rw [planRelation_ok hMid, getElem?_planned]
      by_cases hEq : id = a
      · subst hEq
        by_cases hSelector : selector = s
        · subst hSelector
          simp [hRelated]
        · simp [hSelector]
      · have hMem : a ∈ id :: ids ↔ a ∈ ids := by simp [Ne.symm hEq]
        simp [hMem, hEq]
    · rename_i hRelated
      cases hMid
      by_cases hEq : id = a
      · subst hEq
        simp [hRelated]
      · have hMem : a ∈ id :: ids ↔ a ∈ ids := by simp [Ne.symm hEq]
        simp [hMem]

variable {fact : SignedFact}

/-- A recorded row is never empty. -/
private theorem planSelector_nonempty
    (hPlan : ∀ (id : FactId) (row : AuthorityProvenanceRow), plan.1[id]? = some row → ∃ s, s ∈ row)
    (h : g.planSelector fact facts plan selector selected = .ok next) (id : FactId)
    (row : AuthorityProvenanceRow) (hRow : next.1[id]? = some row) : ∃ s, s ∈ row := by
  unfold FactGraph.planSelector at h
  rw [except_bind_eq_ok] at h
  obtain ⟨selectedAncestors, -, hFold⟩ := h
  refine foldlM_ok_invariant (I := fun plan => ∀ (id : FactId) (row : AuthorityProvenanceRow),
    plan.1[id]? = some row → ∃ s, s ∈ row) _ ?_ plan next hPlan hFold id row hRow
  intro acc a _ mid hAcc hStep
  rw [except_bind_eq_ok] at hStep
  obtain ⟨relation, -, hRecord⟩ := hStep
  split at hRecord
  · rw [planRelation_ok hRecord]
    intro b row hGet
    rw [getElem?_insert_eq] at hGet
    split at hGet
    · refine ⟨selector, ?_⟩
      rw [← Option.some.inj hGet, Std.ExtTreeMap.mem_insert]
      exact .inl Std.ReflOrd.compare_self
    · exact hAcc b row hGet
  · cases hRecord
    exact hAcc

/-- The entry a plan leaves before the candidate's own selector is considered. -/
def inheritedEntry (g : FactGraph) (fact : SignedFact) (id selector : FactId) :
    Option AuthoritySelectorRelation :=
  if id = fact.id then (g.inheritedRow fact)[selector]?
  else (g.authorityProvenance.getD id ∅)[selector]?

omit [Platform] in
/-- An own entry is never lost by inheriting. -/
theorem own_eq_none_of_inheritedRow (h : (g.inheritedRow fact)[selector]? = none) :
    (g.authorityProvenance.getD fact.id ∅)[selector]? = none := by
  rw [getElem?_inheritedRow] at h
  generalize (g.authorityProvenance.getD fact.id ∅)[selector]? = entry at h
  generalize fact.content.parents.filterMap
    (fun parent => (g.authorityProvenance.getD parent ∅)[selector]?) = relations at h
  induction relations generalizing entry with
  | nil => exact h
  | cons relation relations ih =>
    have hMerged := ih (mergeRelation entry relation) h
    unfold mergeRelation at hMerged
    split at hMerged
    · cases hMerged
    · exact hMerged

private theorem inheritedPlan_ok (h : g.inheritedPlan fact = .ok plan) :
    (∀ a s : FactId, ((g.authorityProvenance ∪ plan.1).getD a ∅)[s]? = inheritedEntry g fact a s) ∧
    ∀ (id : FactId) (row : AuthorityProvenanceRow), plan.1[id]? = some row → ∃ s, s ∈ row := by
  unfold FactGraph.inheritedPlan at h
  dsimp only at h
  split at h
  · rename_i hEmpty
    cases h
    refine ⟨fun a s => ?_, by simp⟩
    rw [getD_union, Std.ExtTreeMap.getElem?_empty, Option.none_or, ← getD_eq_getElem?_getD]
    unfold inheritedEntry
    split
    · rename_i hEq
      subst hEq
      have hNone : (g.inheritedRow fact)[s]? = none := by
        rw [Std.ExtTreeMap.isEmpty_iff.mp hEmpty, Std.ExtTreeMap.getElem?_empty]
      rw [hNone, own_eq_none_of_inheritedRow hNone]
    · rfl
  · rename_i hEmpty
    simp only [except_bind_eq_ok] at h
    obtain ⟨_, -, _, -, hPlan⟩ := h
    cases hPlan
    constructor
    · intro a s
      rw [getD_union, getElem?_insert_eq]
      unfold inheritedEntry
      by_cases hEq : fact.id = a
      · rw [if_pos hEq, if_pos hEq.symm]
        rfl
      · rw [if_neg hEq, if_neg (Ne.symm hEq), Std.ExtTreeMap.getElem?_empty, Option.none_or,
          ← getD_eq_getElem?_getD]
    · intro id row hGet
      rw [getElem?_insert_eq] at hGet
      split at hGet
      · rw [← Option.some.inj hGet]
        exact exists_mem_of_not_isEmpty hEmpty
      · simp at hGet

variable {changes : AuthorityProvenance}

/-- **What a plan records.** The candidate inherits from its parents; if it is
a selector it also relates every resident fact to itself. -/
theorem plannedProvenance_ok (hStaged : g.stagedColdPending = 0)
    (hFacts : CausalFacts (g.facts.insert fact.id fact))
    (hDeps : ∀ d ∈ fact.dependencies, d ∈ g.facts) (h : g.plannedProvenance fact = .ok changes) :
    (∀ a s : FactId, ((g.authorityProvenance ∪ changes).getD a ∅)[s]? =
      if s = fact.id then
        (provenanceEntry (g.facts.insert fact.id fact) a s).or (inheritedEntry g fact a s)
      else inheritedEntry g fact a s) ∧
    ∀ (id : FactId) (row : AuthorityProvenanceRow), changes[id]? = some row → ∃ s, s ∈ row := by
  unfold FactGraph.plannedProvenance at h
  rw [if_neg (by simpa using hDeps)] at h
  simp only [except_bind_eq_ok] at h
  obtain ⟨start, hStart, contexts, hContexts, ⟨final, _⟩, hFold, _, -, hChanges⟩ := h
  cases hChanges
  obtain ⟨hRows, hNonempty⟩ := inheritedPlan_ok hStart
  unfold FactGraph.provenanceContexts at hContexts
  rw [if_pos hStaged] at hContexts
  cases hContexts
  cases hSelector : fact.content.body.lineageSelector with
  | none =>
    rw [hSelector] at hFold
    cases hFold
    refine ⟨fun a s => ?_, hNonempty⟩
    rw [hRows a s]
    split
    · rename_i hEq
      subst hEq
      unfold provenanceEntry selectedOf
      simp [hSelector]
    · rfl
  | some selection =>
    obtain ⟨subject, selected⟩ := selection
    rw [hSelector] at hFold
    have hList : ((∅ : OrdMap FactId FactId).insert fact.id selected).toList =
        [(fact.id, selected)] := rfl
    simp only [hList, List.foldlM_cons, List.foldlM_nil, bind_pure] at hFold
    refine ⟨fun a s => ?_, planSelector_nonempty hNonempty hFold⟩
    have hSelected : selectedOf (g.facts.insert fact.id fact) fact.id = some selected := by
      unfold selectedOf
      simp [hSelector]
    unfold FactGraph.planSelector at hFold
    rw [except_bind_eq_ok] at hFold
    obtain ⟨selectedAncestors, hAncestors, hLoop⟩ := hFold
    rw [if_pos (.inl rfl)] at hLoop
    obtain ⟨ancestors, hOk, hMem⟩ :=
      completeAncestors_spec hFacts (mem_of_completeAncestors_ok hAncestors)
    rw [hAncestors] at hOk
    cases hOk
    rw [foldlM_planRelation hFacts hMem _ (fun id hId => Std.ExtTreeMap.mem_keys.mp hId) start _
      hLoop a s, hRows a s]
    by_cases hEq : s = fact.id
    · subst hEq
      rw [if_pos rfl]
      unfold provenanceEntry
      simp only [hSelected, Option.bind_some, true_and, Std.ExtTreeMap.mem_keys]
      split <;> rfl
    · rw [if_neg hEq, if_neg fun h => hEq h.1.symm]

theorem inheritedPlan_keys (h : g.inheritedPlan fact = .ok plan) (hId : id ∈ plan.1) :
    id = fact.id := by
  unfold FactGraph.inheritedPlan at h
  dsimp only at h
  split at h
  · cases h
    simp at hId
  · simp only [except_bind_eq_ok] at h
    obtain ⟨_, -, _, -, hPlan⟩ := h
    cases hPlan
    rw [mem_map_insert_iff] at hId
    exact (hId.resolve_right (by simp)).symm

/-- A plan touches the row of its candidate; a selector, or any candidate over a
cold overlay, also touches rows of resident facts. -/
theorem plannedProvenance_keys (h : g.plannedProvenance fact = .ok changes) (id : FactId)
    (hId : id ∈ changes) :
    id = fact.id ∨
      (g.stagedColdPending ≠ 0 ∨ fact.content.body.lineageSelector.isSome = true) ∧
        id ∈ g.facts := by
  by_cases hAll : g.stagedColdPending ≠ 0 ∨ fact.content.body.lineageSelector.isSome = true
  · suffices h : id ∈ g.facts.insert fact.id fact by
      rw [mem_map_insert_iff] at h
      rcases h with h | h
      · exact .inl h.symm
      · exact .inr ⟨hAll, h⟩
    revert id
    unfold FactGraph.plannedProvenance at h
    split at h
    · cases h
      simp
    simp only [except_bind_eq_ok] at h
    obtain ⟨start, hStart, contexts, -, ⟨final, _⟩, hFold, _, -, hChanges⟩ := h
    cases hChanges
    have hSelf : fact.id ∈ g.facts.insert fact.id fact := Std.ExtTreeMap.mem_insert_self
    refine foldlM_ok_invariant (I := fun plan : AuthorityProvenance × Nat =>
      ∀ id, id ∈ plan.1 → id ∈ g.facts.insert fact.id fact) _ ?_ start _ ?_ hFold
    · intro plan entry _ next hPlan hStep
      unfold FactGraph.planSelector at hStep
      rw [except_bind_eq_ok] at hStep
      obtain ⟨_, -, hLoop⟩ := hStep
      refine foldlM_ok_invariant (I := fun plan : AuthorityProvenance × Nat =>
        ∀ id, id ∈ plan.1 → id ∈ g.facts.insert fact.id fact) _ ?_ plan next hPlan hLoop
      intro acc a ha mid hAcc hRelation
      rw [except_bind_eq_ok] at hRelation
      obtain ⟨relation, -, hRecord⟩ := hRelation
      have hMem : a ∈ g.facts.insert fact.id fact := by
        split at ha
        · exact Std.ExtTreeMap.mem_keys.mp ha
        · rw [List.mem_singleton.mp ha]
          exact hSelf
      split at hRecord
      · rw [planRelation_ok hRecord]
        intro b hb
        rw [mem_map_insert_iff] at hb
        rcases hb with rfl | hb
        · exact hMem
        · exact hAcc b hb
      · cases hRecord
        exact hAcc
    · intro id hId
      rw [inheritedPlan_keys hStart hId]
      exact hSelf
  · obtain ⟨hStaged, hSelector⟩ := not_or.mp hAll
    have hNone : fact.content.body.lineageSelector = none := by
      simpa using hSelector
    refine .inl ?_
    unfold FactGraph.plannedProvenance at h
    split at h
    · cases h
      simp at hId
    simp only [except_bind_eq_ok] at h
    obtain ⟨start, hStart, contexts, hContexts, ⟨final, _⟩, hFold, _, -, hChanges⟩ := h
    cases hChanges
    unfold FactGraph.provenanceContexts at hContexts
    rw [if_pos (not_not.mp hStaged), hNone] at hContexts
    cases hContexts
    cases hFold
    exact inheritedPlan_keys hStart hId

end Plans

/-! ## Exact tables -/

/-- The complete exact table of a fact map. -/
abbrev ProvenanceOf (facts : Facts) (provenance : AuthorityProvenance) : Prop :=
  ProvenanceAmong facts (fun _ => True) provenance

variable {selector : FactId}

theorem selectedOf_eq_none (h : selector ∉ facts) : selectedOf facts selector = none := by
  unfold selectedOf
  rw [Std.ExtTreeMap.getElem?_eq_none h]
  rfl

theorem provenanceEntry_of_selectedOf_none {id : FactId} (h : selectedOf facts selector = none) :
    provenanceEntry facts id selector = none := by
  unfold provenanceEntry
  rw [h]
  rfl

theorem provenanceEntry_of_not_mem {id : FactId} (h : id ∉ facts) :
    provenanceEntry facts id selector = none := by
  unfold provenanceEntry
  cases selectedOf facts selector with
  | none => rfl
  | some selected => exact if_neg fun hMem => h hMem.1

/-- An exact entry does not change in a larger map. -/
theorem provenanceEntry_within {small large : Facts} (hSmall : CausalFacts small)
    (hWithin : Within small large) (hResident : SelectedResident small) {id : FactId}
    (hId : id ∈ small) (hSelector : selectedOf large selector = selectedOf small selector) :
    provenanceEntry large id selector = provenanceEntry small id selector := by
  cases hSelected : selectedOf small selector with
  | none =>
    rw [provenanceEntry_of_selectedOf_none hSelected,
      provenanceEntry_of_selectedOf_none (hSelector.trans hSelected)]
  | some selected =>
    have hHead := hResident selector selected hSelected
    have hRelation : exactRelation large selector selected id =
        exactRelation small selector selected id := by
      refine relation_ext rfl ?_ ?_ ?_
      · rw [exactRelation_postSelector_iff, exactRelation_postSelector_iff,
          hSmall.ancestor_within hWithin hId]
      · rw [exactRelation_selectedBefore_iff, exactRelation_selectedBefore_iff,
          hSmall.ancestor_within hWithin hId]
      · rw [exactRelation_beforeSelected_iff, exactRelation_beforeSelected_iff,
          hSmall.ancestor_within hWithin hHead]
    obtain ⟨fact, hGet⟩ := mem_iff_exists.mp hId
    have hLarge : id ∈ large := mem_iff_exists.mpr ⟨fact, hWithin id fact hGet⟩
    unfold provenanceEntry
    rw [hSelector, hSelected, Option.bind_some, Option.bind_some, hRelation]
    exact if_congr (by simp [hId, hLarge]) rfl rfl

/-- Nothing is inherited where neither the fact nor a parent has an entry. -/
theorem inheritedRow_eq_none {g : FactGraph} {fact : SignedFact}
    (hOwn : (g.authorityProvenance.getD fact.id ∅)[selector]? = none)
    (hParents : ∀ p ∈ fact.content.parents, (g.authorityProvenance.getD p ∅)[selector]? = none) :
    (g.inheritedRow fact)[selector]? = none := by
  have hList : (fact.content.parents.filterMap fun p =>
      (g.authorityProvenance.getD p ∅)[selector]?) = [] := by
    rw [List.filterMap_eq_nil_iff]
    exact hParents
  rw [getElem?_inheritedRow, hList, hOwn]
  rfl

section Tables

variable [Platform] {g : FactGraph} {fact : SignedFact} {changes : AuthorityProvenance}

omit [Platform] in
private theorem union_nonempty {provenance : AuthorityProvenance}
    (hOld : ∀ (id : FactId) (row : AuthorityProvenanceRow), provenance[id]? = some row →
      ∃ s, s ∈ row)
    (hNew : ∀ (id : FactId) (row : AuthorityProvenanceRow), changes[id]? = some row →
      ∃ s, s ∈ row) (id : FactId) (row : AuthorityProvenanceRow)
    (h : (provenance ∪ changes)[id]? = some row) : ∃ s, s ∈ row := by
  rw [Std.ExtTreeMap.getElem?_union, Option.or_eq_some_iff] at h
  rcases h with h | ⟨-, h⟩
  · exact hNew id row h
  · exact hOld id row h

/-- **A new fact keeps the table exact.** -/
theorem ProvenanceAmong.plan_new (hProvenance : ProvenanceOf g.facts g.authorityProvenance)
    (hStaged : g.stagedColdPending = 0) (hFacts : CausalFacts g.facts)
    (hResident : SelectedResident g.facts) (hNew : fact.id ∉ g.facts)
    (hDeps : ∀ d ∈ fact.dependencies, d ∈ g.facts)
    (h : g.plannedProvenance fact = .ok changes) :
    ProvenanceOf (g.facts.insert fact.id fact) (g.authorityProvenance ∪ changes) := by
  have hGrown := hFacts.insert hNew hDeps
  have hWithin : Within g.facts (g.facts.insert fact.id fact) := within_insert hNew
  have hSelf : (g.facts.insert fact.id fact)[fact.id]? = some fact := by
    rw [getElem?_insert_eq, if_pos rfl]
  obtain ⟨hRows, hNonempty⟩ := plannedProvenance_ok hStaged hGrown hDeps h
  have hOld : ∀ a s : FactId, (g.authorityProvenance.getD a ∅)[s]? = provenanceEntry g.facts a s :=
    fun a s => hProvenance.exact_of_done a s trivial
  have hOwn : ∀ s : FactId, (g.authorityProvenance.getD fact.id ∅)[s]? = none := fun s => by
    rw [hOld, provenanceEntry_of_not_mem hNew]
  have hParentMem : ∀ p ∈ fact.content.parents, p ∈ g.facts := fun p hp =>
    hDeps p (SignedFact.mem_dependencies_of_parent hp)
  have hUnknown : ∀ a : FactId, (g.authorityProvenance.getD a ∅)[fact.id]? = none := fun a => by
    rw [hOld, provenanceEntry_of_selectedOf_none (selectedOf_eq_none hNew)]
  refine ⟨fun a s _ => ?_, fun a s hFalse => absurd trivial hFalse,
    union_nonempty hProvenance.nonempty hNonempty⟩
  rw [hRows a s]
  by_cases hSelf' : s = fact.id
  · subst hSelf'
    have hNone : inheritedEntry g fact a fact.id = none := by
      unfold inheritedEntry
      split
      · exact inheritedRow_eq_none (hOwn _) fun p _ => hUnknown p
      · exact hUnknown a
    rw [if_pos rfl, hNone, Option.or_none]
  · have hSelector : selectedOf (g.facts.insert fact.id fact) s = selectedOf g.facts s := by
      unfold selectedOf
      rw [getElem?_insert_eq, if_neg (Ne.symm hSelf')]
    rw [if_neg hSelf']
    unfold inheritedEntry
    split
    · rename_i hEq
      subst hEq
      cases hSelected : selectedOf g.facts s with
      | none =>
        rw [provenanceEntry_of_selectedOf_none (hSelector.trans hSelected)]
        refine inheritedRow_eq_none (hOwn s) fun p _ => ?_
        rw [hOld, provenanceEntry_of_selectedOf_none hSelected]
      | some selected =>
        have hHead := hResident s selected hSelected
        refine inheritedRow_of_none hGrown hSelf (hSelector.trans hSelected) (fun p hp => ?_)
          (hOwn s) (Ne.symm hSelf') (fun hEq => hNew (hEq ▸ hHead)) fun hBefore => ?_
        · rw [hOld, provenanceEntry_within hFacts hWithin hResident (hParentMem p hp) hSelector]
        · exact not_depends_insert hFacts hNew hHead hBefore.depends
    · rename_i hNe
      rw [hOld]
      by_cases hMem : a ∈ g.facts
      · rw [provenanceEntry_within hFacts hWithin hResident hMem hSelector]
      · rw [provenanceEntry_of_not_mem hMem, provenanceEntry_of_not_mem]
        rw [mem_map_insert_iff]
        rintro (hEq | hOldMem)
        · exact hNe hEq.symm
        · exact hMem hOldMem

omit [Platform] in
/-- Storing a resident fact again changes nothing. -/
theorem insert_resident (hGet : facts[fact.id]? = some fact) :
    facts.insert fact.id fact = facts := by
  refine Std.ExtTreeMap.ext_getElem? fun a => ?_
  rw [getElem?_insert_eq]
  split
  · rename_i hEq
    rw [← hEq, hGet]
  · rfl

omit [Platform] in
/-- A resident fact has inherited already. -/
theorem ProvenanceAmong.inheritedEntry_resident {done : FactId → Prop}
    (hProvenance : ProvenanceAmong g.facts done g.authorityProvenance)
    (hFacts : CausalFacts g.facts) (hGet : g.facts[fact.id]? = some fact) (a s : FactId) :
    inheritedEntry g fact a s = (g.authorityProvenance.getD a ∅)[s]? := by
  unfold inheritedEntry
  split
  · rename_i hEq
    subst hEq
    by_cases hDone : done s
    · rw [hProvenance.exact_of_done _ s hDone]
      cases hSelected : selectedOf g.facts s with
      | none =>
        rw [provenanceEntry_of_selectedOf_none hSelected]
        refine inheritedRow_eq_none ?_ fun p _ => ?_
        · rw [hProvenance.exact_of_done _ s hDone, provenanceEntry_of_selectedOf_none hSelected]
        · rw [hProvenance.exact_of_done _ s hDone, provenanceEntry_of_selectedOf_none hSelected]
      | some selected =>
        exact inheritedRow_of_exact hFacts hGet hSelected
          (fun p _ => hProvenance.exact_of_done p s hDone)
          (hProvenance.exact_of_done _ s hDone)
    · rw [hProvenance.none_of_not_done _ s hDone]
      exact inheritedRow_eq_none (hProvenance.none_of_not_done _ s hDone)
        fun p _ => hProvenance.none_of_not_done p s hDone
  · rfl

/-- **A rebuild step adds one selector.** -/
theorem ProvenanceAmong.plan_resident {done : FactId → Prop}
    (hProvenance : ProvenanceAmong g.facts done g.authorityProvenance)
    (hStaged : g.stagedColdPending = 0) (hFacts : CausalFacts g.facts)
    (hGet : g.facts[fact.id]? = some fact) (h : g.plannedProvenance fact = .ok changes) :
    ProvenanceAmong g.facts (fun s => s = fact.id ∨ done s) (g.authorityProvenance ∪ changes) := by
  have hSame := insert_resident hGet
  obtain ⟨hRows, hNonempty⟩ :=
    plannedProvenance_ok hStaged (hSame.symm ▸ hFacts) (hFacts.closed hGet) h
  rw [hSame] at hRows
  have hInherited := hProvenance.inheritedEntry_resident hFacts hGet
  refine ⟨fun a s hs => ?_, fun a s hs => ?_, union_nonempty hProvenance.nonempty hNonempty⟩
  · rw [hRows a s, hInherited]
    by_cases hDone : done s
    · rw [hProvenance.exact_of_done a s hDone, Option.or_self, ite_self]
    · have hEq : s = fact.id := hs.resolve_right hDone
      rw [if_pos hEq, hProvenance.none_of_not_done a s hDone, Option.or_none]
  · rw [hRows a s, if_neg fun hEq => hs (.inl hEq), hInherited]
    exact hProvenance.none_of_not_done a s fun hDone => hs (.inr hDone)

end Tables

end MyOwnMesh.Semantic
