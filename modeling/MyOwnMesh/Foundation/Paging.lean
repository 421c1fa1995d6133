import Mathlib.Data.List.Basic

/-!
# Producers of pages

A producer hands out a list page by page. It is described by the items a state still has
to hand out and by one step: a page is a non-empty front of those that fits, and a
producer without a page has either handed out all of them or met one that fits no page.
-/

namespace MyOwnMesh.Foundation

variable {α β σ : Type*}

/-- The pages of an iterator up to its end. -/
def collect (next : σ → Option β × σ) : Nat → σ → Option (List β × σ)
  | 0, _ => none
  | fuel + 1, state =>
    match (next state).1 with
    | none => some ([], (next state).2)
    | some page =>
      (collect next fuel (next state).2).map fun rest => (page :: rest.1, rest.2)

/-- Pages over a list of items: a front of it, all of it if the producer stays valid, and
it is valid exactly if every item fits a page alone. -/
structure Paged (fits : List α → Bool) (content : β → List α) (items : List α) (pages : List β)
    (valid : Bool) : Prop where
  front : (pages.map content).flatten <+: items
  whole : valid = true → (pages.map content).flatten = items
  fitting : ∀ page ∈ pages, fits (content page) = true
  valid_iff : valid = true ↔ ∀ item ∈ items, fits [item] = true

/-- What one call of a producer does with the items left. -/
structure PageStep (fits : List α → Bool) (content : β → List α) (left : σ → List α)
    (valid : σ → Bool) (ready : σ → Prop) (items : List α) (call : Option β × σ) : Prop where
  page : ∀ page, call.1 = some page → items = content page ++ left call.2 ∧ content page ≠ [] ∧
    fits (content page) = true ∧ ready call.2
  stop : call.1 = none → (items = [] ∧ valid call.2 = true) ∨
    ((∃ item ∈ items, fits [item] = false) ∧ valid call.2 = false)

section

variable {fits : List α → Bool} {content : β → List α}

theorem Paged.end : Paged fits content ([] : List α) [] true :=
  ⟨by simp, fun _ => rfl, by simp, by simp⟩

theorem Paged.refused {items : List α} (h : ∃ item ∈ items, fits [item] = false) :
    Paged fits content items [] false := by
  obtain ⟨item, hItem, hFits⟩ := h
  refine ⟨by simp, by simp, by simp, by simp, fun hAll => ?_⟩
  rw [hAll item hItem] at hFits
  exact absurd hFits (by simp)

theorem Paged.cons (hPart : ∀ page, fits page = true → ∀ item ∈ page, fits [item] = true)
    {page : β} {rest : List α} {pages : List β} {valid : Bool}
    (hFits : fits (content page) = true) (h : Paged fits content rest pages valid) :
    Paged fits content (content page ++ rest) (page :: pages) valid := by
  refine ⟨?_, fun hValid => ?_, ?_, ?_⟩
  · rw [List.map_cons, List.flatten_cons]
    exact (List.prefix_append_right_inj _).mpr h.front
  · rw [List.map_cons, List.flatten_cons, h.whole hValid]
  · intro other hOther
    rcases List.mem_cons.mp hOther with rfl | hOther
    · exact hFits
    · exact h.fitting other hOther
  · rw [h.valid_iff]
    constructor
    · intro hAll item hItem
      rcases List.mem_append.mp hItem with hPage | hRest
      · exact hPart _ hFits item hPage
      · exact hAll item hRest
    · exact fun hAll item hItem => hAll item (List.mem_append_right _ hItem)

/-- A producer whose calls all take such a step ends with the pages of what it had. -/
theorem collect_paged (hPart : ∀ page, fits page = true → ∀ item ∈ page, fits [item] = true)
    {next : σ → Option β × σ} {left : σ → List α} {valid : σ → Bool} {ready : σ → Prop}
    (hStep : ∀ state, ready state →
      PageStep fits content left valid ready (left state) (next state)) (fuel : Nat) :
    ∀ state, ready state → (left state).length < fuel →
      ∃ pages last, collect next fuel state = some (pages, last) ∧
        Paged fits content (left state) pages (valid last) := by
  induction fuel with
  | zero => exact fun _ _ hFuel => absurd hFuel (Nat.not_lt_zero _)
  | succ fuel ih =>
    intro state hReady hFuel
    have hCall := hStep state hReady
    cases hPage : (next state).1 with
    | none =>
      refine ⟨[], (next state).2, by rw [collect, hPage], ?_⟩
      rcases hCall.stop hPage with ⟨hNil, hValid⟩ | ⟨hItem, hValid⟩
      · rw [hNil, hValid]
        exact Paged.end
      · rw [hValid]
        exact Paged.refused hItem
    | some page =>
      obtain ⟨hItems, hSome, hFits, hNext⟩ := hCall.page page hPage
      have hPos := List.length_pos_iff.mpr hSome
      have hLength := congrArg List.length hItems
      rw [List.length_append] at hLength
      obtain ⟨pages, last, hCollect, hPages⟩ := ih (next state).2 hNext (by omega)
      refine ⟨page :: pages, last, by rw [collect, hPage, hCollect]; rfl, ?_⟩
      rw [hItems]
      exact hPages.cons hPart hFits

end

end MyOwnMesh.Foundation
