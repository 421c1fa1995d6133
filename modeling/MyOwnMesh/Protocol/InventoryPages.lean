import Mathlib.Algebra.Order.BigOperators.Group.List
import MyOwnMesh.Foundation.Paging
import MyOwnMesh.Protocol.FactPage
import MyOwnMesh.Semantic.Journal

/-!
# Inventory pages

Fact identities are announced and requested in pages that fit one receive frame. Three
producers cut them: `ExactFramePages` measures the whole candidate page after each
identity, the cursor over the durable store and the pages of a delta keep a running
length. An identity's JSON text has the length `idLen` gives it; the loops measure each
one, so nothing rests on all of them being `digestTextLen`.
-/

namespace MyOwnMesh.Protocol

open Foundation Semantic

/-! ## Messages -/

/-- The two frames that carry a set of identities. -/
inductive FactSetKind where
  | factInventory
  | factRequest
deriving DecidableEq

def FactSetKind.tag : FactSetKind → String
  | .factInventory => "fact_inventory"
  | .factRequest => "fact_request"

def canonicalFactIds (factIds : List FactId) : List FactId := sortDedup factIds

/-- The ids a node has, in order. -/
structure FactInventory where
  contextId : MeshContextId
  factIds : List FactId

def FactInventory.new (contextId : MeshContextId) (factIds : List FactId) : FactInventory :=
  ⟨contextId, canonicalFactIds factIds⟩

def deserializeCanonicalFactIds (contextId : MeshContextId) (factIds : List FactId) :
    Except String (MeshContextId × List FactId) :=
  if factIds ≠ canonicalFactIds factIds then
    .error "fact identifiers must be sorted and deduplicated"
  else .ok (contextId, canonicalFactIds factIds)

/-- The JSON text of a frame without identities. -/
def emptySetLen (kind : FactSetKind) : Nat :=
  "\x7b\"kind\":\"".length + kind.tag.length + "\",\"context_id\":".length + digestTextLen +
    ",\"fact_ids\":[]\x7d".length

/-- `usize::checked_add`. -/
def checkedAddLen (a b : Nat) : Option Nat := if a + b < 2 ^ 64 then some (a + b) else none

section

variable (idLen : FactId → Nat)

/-- The length of a frame's JSON text: its identities with the commas between them. -/
def factSetLen (kind : FactSetKind) (factIds : List FactId) : Nat :=
  emptySetLen kind + (factIds.map idLen).sum + (factIds.length - 1)

/-- `encoded_json_len` of such a frame. -/
def encodedSetLen (kind : FactSetKind) (factIds : List FactId) : Option Nat :=
  checkedAddLen (factSetLen idLen kind factIds) 0

end

/-! ## `ExactFramePages` -/

section

variable {T : Type*}

/-- The test of a candidate page. -/
def fitsFrame (encodedLen : List T → Option Nat) (values : List T) : Bool :=
  (encodedLen values).any (· ≤ receiveFrameBytes)

/-- Pages of values, each filled as far as a frame allows. -/
structure ExactFramePages (T : Type*) where
  values : List T
  pending : Option T
  started : Bool
  finished : Bool
  invalid : Bool

def exactFramePages (values : List T) : ExactFramePages T := ⟨values, none, false, false, false⟩

namespace ExactFramePages

def isValid (pages : ExactFramePages T) : Bool := !pages.invalid

/-- The loop of `next`: `value` is the one taken last, `values` those behind it. -/
def grow (encodedLen : List T → Option Nat) : List T → T → List T →
    Option (List T) × ExactFramePages T
  | current, value, values =>
    if fitsFrame encodedLen (current ++ [value]) then
      match values with
      | [] => (some (current ++ [value]), ⟨[], none, true, true, false⟩)
      | following :: values => grow encodedLen (current ++ [value]) following values
    else if current.isEmpty then (none, ⟨values, none, true, false, true⟩)
    else (some current, ⟨values, some value, true, false, false⟩)
termination_by _ _ values => values.length

/-- The next page that fits a frame. -/
def next (encodedLen : List T → Option Nat) (pages : ExactFramePages T) :
    Option (List T) × ExactFramePages T :=
  if pages.finished || pages.invalid then (none, pages)
  else
    match pages.pending, pages.values with
    | some value, values => grow encodedLen [] value values
    | none, value :: values => grow encodedLen [] value values
    | none, [] =>
      if pages.started then (none, { pages with finished := true })
      else (some [], { pages with started := true, finished := true })

def left (pages : ExactFramePages T) : List T := pages.pending.toList ++ pages.values

/-- A state between calls that has handed out a page or has one to hand out. -/
structure Ready (pages : ExactFramePages T) : Prop where
  valid : pages.invalid = false
  finished : pages.finished = true → pages.left = []
  started : pages.left = [] → pages.started = true

theorem grow_step (encodedLen : List T → Option Nat) (values : List T) :
    ∀ (current : List T) (value : T),
      (current ≠ [] → fitsFrame encodedLen current = true) →
      PageStep (fitsFrame encodedLen) id left isValid Ready (current ++ value :: values)
        (grow encodedLen current value values) := by
  induction values with
  | nil =>
    intro current value hCurrent
    rw [grow]
    split
    · next hFits =>
      refine ⟨?_, by simp⟩
      rintro page ⟨⟩
      exact ⟨by simp [left], by simp, hFits, rfl, fun _ => rfl, fun _ => rfl⟩
    · next hFits => exact refusedStep [] current value hCurrent hFits
  | cons following values ih =>
    intro current value hCurrent
    rw [grow]
    split
    · next hFits =>
      have hStep := ih (current ++ [value]) following fun _ => hFits
      rwa [List.append_assoc] at hStep
    · next hFits => exact refusedStep (following :: values) current value hCurrent hFits
where
  /-- The value that does not fit opens the next page, or ends the iteration. -/
  refusedStep (values current : List T) (value : T)
      (hCurrent : current ≠ [] → fitsFrame encodedLen current = true)
      (hFits : ¬ fitsFrame encodedLen (current ++ [value]) = true) :
      PageStep (fitsFrame encodedLen) id left isValid Ready (current ++ value :: values)
        (if current.isEmpty then (none, ⟨values, none, true, false, true⟩)
        else (some current, ⟨values, some value, true, false, false⟩)) := by
    cases current with
    | nil =>
      refine ⟨by simp, fun _ => Or.inr ⟨⟨value, List.mem_cons_self, ?_⟩, rfl⟩⟩
      exact Bool.eq_false_iff.mpr hFits
    | cons first rest =>
      refine ⟨?_, by simp⟩
      rintro page ⟨⟩
      exact ⟨rfl, by simp, hCurrent (by simp), rfl, by simp, by simp [left]⟩

theorem next_step (encodedLen : List T → Option Nat) (pages : ExactFramePages T)
    (h : pages.Ready) :
    PageStep (fitsFrame encodedLen) id left isValid Ready pages.left (next encodedLen pages) := by
  obtain ⟨values, pending, started, finished, invalid⟩ := pages
  obtain rfl : invalid = false := h.valid
  cases finished with
  | true =>
    rw [h.finished rfl]
    exact ⟨by simp [next], fun _ => Or.inl ⟨rfl, rfl⟩⟩
  | false =>
    cases pending with
    | some value => exact grow_step encodedLen values [] value (by simp)
    | none =>
      cases values with
      | cons value values => exact grow_step encodedLen values [] value (by simp)
      | nil =>
        obtain rfl : started = true := h.started rfl
        exact ⟨by simp [next], fun _ => Or.inl ⟨rfl, rfl⟩⟩

end ExactFramePages

end

/-! ## The cursor over the durable store -/

section

variable (idLen : FactId → Nat)

/-- `admitted_semantic_fact_ids_after`. -/
def idsAfter (store : List FactId) (cursor : Option FactId) : List FactId :=
  match cursor with
  | none => store
  | some cursor => store.filter fun id => compare cursor id == .lt

/-- The length after one more identity. -/
def candidateLen (encodedLen : Nat) (factIds : List FactId) (id : FactId) : Option Nat :=
  (checkedAddLen encodedLen (if factIds.isEmpty then 0 else 1)).bind (checkedAddLen · (idLen id))

/-- The loop of `next_page` over its candidates; without an answer the cursor is
invalid. -/
def takeFitting : List FactId → List FactId → Nat → Option (List FactId)
  | [], factIds, _ => some factIds
  | id :: candidates, factIds, encodedLen =>
    match candidateLen idLen encodedLen factIds id with
    | none => none
    | some candidateLen =>
      if candidateLen > receiveFrameBytes then
        if factIds.isEmpty then none else some factIds
      else takeFitting candidates (factIds ++ [id]) candidateLen

/-- Where the next page of an inventory begins. -/
structure FactInventoryCursor where
  contextId : MeshContextId
  cursor : Option FactId
  finished : Bool
  invalid : Bool

def localFactInventoryCursor (contextId : MeshContextId) : FactInventoryCursor :=
  ⟨contextId, none, false, false⟩

namespace FactInventoryCursor

def isValid (state : FactInventoryCursor) : Bool := !state.invalid

def maximumIds : Nat := (receiveFrameBytes - emptySetLen .factInventory) / 53 + 1

/-- The page of identities after the cursor. -/
def nextPage (store : List FactId) (state : FactInventoryCursor) :
    Option FactInventory × FactInventoryCursor :=
  if state.finished || state.invalid then (none, state)
  else
    match takeFitting idLen ((idsAfter store state.cursor).take maximumIds) []
        (emptySetLen .factInventory) with
    | none => (none, { state with invalid := true })
    | some factIds =>
      if factIds.isEmpty then (none, { state with finished := true })
      else (some (.new state.contextId factIds), { state with cursor := factIds.getLast? })

end FactInventoryCursor

/-! ## The pages of a delta -/

/-- The identities a delta announces: `BTreeSet` of its admitted and promoted facts. -/
def deltaIds (delta : SemanticDelta) : List FactId :=
  sortDedup (((delta.rows.filter fun row => row.status = .admitted).map fun row => row.fact.id) ++
    delta.promoted)

/-- The loop of `delta_inventory_pages`. -/
def deltaPagesLoop (contextId : MeshContextId) : List FactId → List FactInventory →
    List FactId → Nat → Option (List FactInventory)
  | [], pages, current, _ =>
    some (if current.isEmpty then pages else pages ++ [.new contextId current])
  | id :: ids, pages, current, encodedLen =>
    match candidateLen idLen encodedLen current id with
    | none => none
    | some candidateLen =>
      if candidateLen > receiveFrameBytes then
        if current.isEmpty then none
        else
          match checkedAddLen (emptySetLen .factInventory) (idLen id) with
          | none => none
          | some singleLen =>
            if singleLen > receiveFrameBytes then none
            else deltaPagesLoop contextId ids (pages ++ [.new contextId current]) [id] singleLen
      else deltaPagesLoop contextId ids pages (current ++ [id]) candidateLen

def deltaInventoryPages (contextId : MeshContextId) (delta : SemanticDelta) :
    Option (List FactInventory) :=
  deltaPagesLoop idLen contextId (deltaIds delta) [] [] (emptySetLen .factInventory)

/-! ## Lengths -/

variable {idLen}

variable {a b fuel n : Nat}

theorem checkedAddLen_eq_some : checkedAddLen a b = some n ↔ n = a + b ∧ a + b < 2 ^ 64 := by
  unfold checkedAddLen
  split <;> simp_all [eq_comm]

theorem checkedAddLen_eq_none : checkedAddLen a b = none ↔ 2 ^ 64 ≤ a + b := by
  unfold checkedAddLen
  split <;> simp_all

variable {kind : FactSetKind} {factIds : List FactId}

/-- A page fits exactly if its length is within the frame. -/
theorem fitsFrame_iff :
    fitsFrame (encodedSetLen idLen kind) factIds = true ↔
      factSetLen idLen kind factIds ≤ receiveFrameBytes := by
  unfold fitsFrame encodedSetLen
  cases hLen : checkedAddLen (factSetLen idLen kind factIds) 0 with
  | none =>
    rw [checkedAddLen_eq_none] at hLen
    simp only [Option.any_none, Bool.false_eq_true, receiveFrameBytes, false_iff]
    omega
  | some n =>
    obtain ⟨rfl, -⟩ := checkedAddLen_eq_some.mp hLen
    simp

theorem factSetLen_append_singleton (kind : FactSetKind) (factIds : List FactId) (id : FactId) :
    factSetLen idLen kind (factIds ++ [id]) =
      factSetLen idLen kind factIds + (if factIds.isEmpty then 0 else 1) + idLen id := by
  cases factIds with
  | nil => simp [factSetLen]
  | cons first rest =>
    simp only [factSetLen, List.map_append, List.map_cons, List.map_nil, List.sum_append,
      List.sum_cons, List.sum_nil, List.length_append, List.length_cons, List.length_nil,
      List.isEmpty_cons, Bool.false_eq_true, if_false]
    omega

/-- A page that fits has only identities that fit alone. -/
theorem fitsFrame_part (kind : FactSetKind) (page : List FactId)
    (h : fitsFrame (encodedSetLen idLen kind) page = true) (id : FactId) (hId : id ∈ page) :
    fitsFrame (encodedSetLen idLen kind) [id] = true := by
  rw [fitsFrame_iff] at h ⊢
  have := List.single_le_sum (by simp) (idLen id) (List.mem_map_of_mem hId)
  simp only [factSetLen, List.map_cons, List.map_nil, List.sum_cons, List.sum_nil,
    List.length_cons, List.length_nil] at h ⊢
  omega

theorem emptySetLen_le (kind : FactSetKind) : emptySetLen kind ≤ receiveFrameBytes := by
  cases kind <;> decide

@[simp] theorem factSetLen_nil (kind : FactSetKind) :
    factSetLen idLen kind [] = emptySetLen kind := rfl

variable {id : FactId}

/-- The running length is the length of the candidate page. -/
theorem candidateLen_eq_some
    (h : candidateLen idLen (factSetLen idLen kind factIds) factIds id = some n) :
    n = factSetLen idLen kind (factIds ++ [id]) := by
  obtain ⟨m, hSeparator, hId⟩ := Option.bind_eq_some_iff.mp h
  rw [checkedAddLen_eq_some] at hSeparator hId
  rw [factSetLen_append_singleton, hId.1, hSeparator.1]

/-- Next to a page that fits only an identity that fits no page overflows. -/
theorem candidateLen_eq_none (hFits : factSetLen idLen kind factIds ≤ receiveFrameBytes)
    (h : candidateLen idLen (factSetLen idLen kind factIds) factIds id = none) :
    fitsFrame (encodedSetLen idLen kind) [id] = false := by
  have hOver : 2 ^ 64 ≤ factSetLen idLen kind factIds + 1 + idLen id := by
    unfold candidateLen at h
    cases hSeparator : checkedAddLen (factSetLen idLen kind factIds)
        (if factIds.isEmpty then 0 else 1) with
    | none =>
      have := checkedAddLen_eq_none.mp hSeparator
      split at this <;> omega
    | some m =>
      rw [hSeparator, Option.bind_some, checkedAddLen_eq_none] at h
      obtain ⟨rfl, -⟩ := checkedAddLen_eq_some.mp hSeparator
      split at h <;> omega
  rw [Bool.eq_false_iff, ne_eq, fitsFrame_iff, factSetLen]
  simp only [List.map_cons, List.map_nil, List.sum_cons, List.sum_nil, receiveFrameBytes]
    at hFits ⊢
  omega

/-- An identity that does not fit an empty page fits no page. -/
theorem not_fits_of_empty (hEmpty : factIds.isEmpty = true)
    (hOver : factSetLen idLen kind (factIds ++ [id]) > receiveFrameBytes) :
    fitsFrame (encodedSetLen idLen kind) [id] = false := by
  rw [List.isEmpty_iff.mp hEmpty, List.nil_append] at hOver
  rw [Bool.eq_false_iff, ne_eq, fitsFrame_iff]
  omega

/-! ## The cursor hands out the store -/

/-- The candidates are taken up to one that does not fit; the cursor turns invalid only at
an identity that fits no page. -/
theorem takeFitting_spec (kind : FactSetKind) (candidates : List FactId) :
    ∀ factIds, factSetLen idLen kind factIds ≤ receiveFrameBytes →
      (∃ taken rest, takeFitting idLen candidates factIds (factSetLen idLen kind factIds) =
          some (factIds ++ taken) ∧ candidates = taken ++ rest ∧
        factSetLen idLen kind (factIds ++ taken) ≤ receiveFrameBytes ∧
        (factIds ++ taken = [] → candidates = [])) ∨
      (takeFitting idLen candidates factIds (factSetLen idLen kind factIds) = none ∧
        ∃ id ∈ candidates, fitsFrame (encodedSetLen idLen kind) [id] = false) := by
  induction candidates with
  | nil =>
    intro factIds hFits
    exact Or.inl ⟨[], [], by simp [takeFitting], rfl, by simpa using hFits, fun _ => rfl⟩
  | cons id candidates ih =>
    intro factIds hFits
    rw [takeFitting]
    cases hLen : candidateLen idLen (factSetLen idLen kind factIds) factIds id with
    | none => exact Or.inr ⟨rfl, id, List.mem_cons_self, candidateLen_eq_none hFits hLen⟩
    | some n =>
      obtain rfl := candidateLen_eq_some hLen
      dsimp only
      split
      · next hOver =>
        split
        · next hEmpty =>
          exact Or.inr ⟨rfl, id, List.mem_cons_self, not_fits_of_empty hEmpty hOver⟩
        · next hSome =>
          refine Or.inl ⟨[], id :: candidates, by simp, rfl, by simpa using hFits, fun hNil => ?_⟩
          exact absurd hNil (by simpa using hSome)
      · next hWithin =>
        rcases ih (factIds ++ [id]) (by omega) with
          ⟨taken, rest, hTake, hRest, hPage, -⟩ | ⟨hTake, other, hOther, hAlone⟩
        · rw [List.append_assoc] at hTake hPage
          exact Or.inl ⟨id :: taken, rest, hTake, by rw [hRest]; rfl, hPage, by simp⟩
        · exact Or.inr ⟨hTake, other, List.mem_cons_of_mem _ hOther, hAlone⟩

def Ascending (ids : List FactId) : Prop := ids.Pairwise fun a b => compare a b = .lt

/-- What follows the last identity of a front is the rest. -/
theorem idsAfter_append {front rest : List FactId} (hSorted : Ascending (front ++ rest))
    (hSome : front ≠ []) : idsAfter (front ++ rest) front.getLast? = rest := by
  obtain ⟨initial, last, rfl⟩ := (List.eq_nil_or_concat' front).resolve_left hSome
  obtain ⟨hFront, -, hRest⟩ := List.pairwise_append.mp hSorted
  rw [List.getLast?_concat, idsAfter, List.filter_append,
    List.filter_eq_nil_iff.mpr, List.nil_append, List.filter_eq_self.mpr]
  · intro id hId
    simpa using hRest last (by simp) id hId
  · intro id hId
    rcases List.mem_append.mp hId with hInitial | hLast
    · have hLess := (List.pairwise_append.mp hFront).2.2 id hInitial last (by simp)
      simp [Std.OrientedCmp.gt_of_lt hLess]
    · obtain rfl := List.mem_singleton.mp hLast
      simp

namespace FactInventoryCursor

def left (store : List FactId) (state : FactInventoryCursor) : List FactId :=
  idsAfter store state.cursor

/-- A cursor between calls stands behind what it has handed out. -/
structure Ready (store : List FactId) (state : FactInventoryCursor) : Prop where
  valid : state.invalid = false
  going : state.finished = false
  seen : ∃ seen, store = seen ++ state.left store ∧ state.cursor = seen.getLast?

/-- One page of a cursor that is ready. -/
theorem nextPage_step {store : List FactId} (hSorted : Ascending store)
    (state : FactInventoryCursor) (h : state.Ready store) :
    PageStep (fitsFrame (encodedSetLen idLen .factInventory)) FactInventory.factIds (left store)
      isValid (Ready store) (state.left store) (nextPage idLen store state) := by
  obtain ⟨seen, hSeen, hCursor⟩ := h.seen
  have hEmpty : factSetLen idLen .factInventory [] ≤ receiveFrameBytes := emptySetLen_le _
  rw [nextPage, h.valid, h.going, Bool.or_self, if_neg (by simp)]
  rw [← (factSetLen_nil .factInventory : factSetLen idLen .factInventory [] = _)]
  rcases takeFitting_spec .factInventory ((idsAfter store state.cursor).take maximumIds) []
      hEmpty with
    ⟨page, rest, hTake, hRest, hFits, hNil⟩ | ⟨hTake, id, hId, hAlone⟩
  · rw [hTake]
    rw [List.nil_append] at hFits hNil ⊢
    by_cases hPage : page = []
    · -- nothing was left to take
      have hNone : state.left store = [] :=
        (List.take_eq_nil_iff.mp (hNil hPage)).resolve_left (by simp [maximumIds])
      subst hPage
      exact ⟨by simp, fun _ => Or.inl ⟨hNone, rfl⟩⟩
    · have hLeft : state.left store = page ++ (rest ++ (state.left store).drop maximumIds) := by
        conv_lhs => rw [← List.take_append_drop maximumIds (state.left store)]
        rw [show (state.left store).take maximumIds = page ++ rest from hRest,
          List.append_assoc]
      have hStore : store = (seen ++ page) ++ (rest ++ (state.left store).drop maximumIds) := by
        rw [List.append_assoc, ← hLeft]
        exact hSeen
      have hContent : (FactInventory.new state.contextId page).factIds = page := by
        refine sortDedup_of_ordered ?_
        rw [hStore] at hSorted
        exact (List.pairwise_append.mp (List.pairwise_append.mp hSorted).1).2.1
      have hLast : page.getLast? = (seen ++ page).getLast? := by
        rw [List.getLast?_append_of_ne_nil _ hPage]
      have hAfter : idsAfter store page.getLast? = rest ++ (state.left store).drop maximumIds := by
        rw [hLast]
        conv_lhs => rw [hStore]
        exact idsAfter_append (hStore ▸ hSorted) (by simp [hPage])
      dsimp only
      rw [if_neg (by simpa using hPage)]
      refine ⟨?_, by simp⟩
      rintro _ ⟨⟩
      rw [hContent]
      refine ⟨?_, hPage, fitsFrame_iff.mpr hFits, rfl, rfl, seen ++ page, ?_, hLast⟩
      · exact hLeft.trans (congrArg (page ++ ·) hAfter.symm)
      · exact hStore.trans (congrArg (seen ++ page ++ ·) hAfter.symm)
  · rw [hTake]
    exact ⟨by simp, fun _ => Or.inr ⟨⟨id, List.mem_of_mem_take hId, hAlone⟩, rfl⟩⟩

end FactInventoryCursor

/-! ## The pages of a delta hand out its identities -/

@[simp] theorem factSetLen_singleton (kind : FactSetKind) (id : FactId) :
    factSetLen idLen kind [id] = emptySetLen kind + idLen id := by
  simp [factSetLen]

/-- The loop pages the ids that are left, or finds one that fits no frame. -/
theorem deltaPagesLoop_paged (contextId : MeshContextId) (ids : List FactId) :
    ∀ pages current, factSetLen idLen .factInventory current ≤ receiveFrameBytes →
      Ascending (current ++ ids) →
      ∃ more valid, deltaPagesLoop idLen contextId ids pages current
          (factSetLen idLen .factInventory current) =
          (if valid = true then some (pages ++ more) else none) ∧
        Paged (fitsFrame (encodedSetLen idLen .factInventory)) FactInventory.factIds
          (current ++ ids) more valid := by
  induction ids with
  | nil =>
    intro pages current hFits hSorted
    rw [deltaPagesLoop]
    split
    · next hEmpty =>
      rw [List.isEmpty_iff.mp hEmpty]
      exact ⟨[], true, by simp, Paged.end⟩
    · exact ⟨[.new contextId current], true, rfl,
        closedPage contextId hFits (List.pairwise_append.mp hSorted).1 Paged.end⟩
  | cons id ids ih =>
    intro pages current hFits hSorted
    have hRefused : fitsFrame (encodedSetLen idLen .factInventory) [id] = false →
        Paged (fitsFrame (encodedSetLen idLen .factInventory)) FactInventory.factIds
          (current ++ id :: ids) [] false := fun hAlone => Paged.refused ⟨id, by simp, hAlone⟩
    rw [deltaPagesLoop]
    cases hLen : candidateLen idLen (factSetLen idLen .factInventory current) current id with
    | none => exact ⟨[], false, rfl, hRefused (candidateLen_eq_none hFits hLen)⟩
    | some n =>
      obtain rfl := candidateLen_eq_some hLen
      dsimp only
      split
      · next hOver =>
        split
        · next hEmpty => exact ⟨[], false, rfl, hRefused (not_fits_of_empty hEmpty hOver)⟩
        -- the page is closed and the identity opens the next one
        have hUnfit : receiveFrameBytes < factSetLen idLen .factInventory [id] →
            fitsFrame (encodedSetLen idLen .factInventory) [id] = false := fun hLong => by
          rw [Bool.eq_false_iff, ne_eq, fitsFrame_iff]
          omega
        cases hSingle : checkedAddLen (emptySetLen .factInventory) (idLen id) with
        | none =>
          have hLong := checkedAddLen_eq_none.mp hSingle
          refine ⟨[], false, rfl, hRefused (hUnfit ?_)⟩
          rw [factSetLen_singleton, receiveFrameBytes]
          omega
        | some single =>
          obtain rfl : single = factSetLen idLen .factInventory [id] := by
            rw [(checkedAddLen_eq_some.mp hSingle).1, factSetLen_singleton]
          dsimp only
          split
          · next hLong => exact ⟨[], false, rfl, hRefused (hUnfit hLong)⟩
          · next hShort =>
            obtain ⟨hFront, hBack, -⟩ := List.pairwise_append.mp hSorted
            obtain ⟨more, valid, hMore, hPages⟩ :=
              ih (pages ++ [.new contextId current]) [id] (by omega) hBack
            refine ⟨.new contextId current :: more, valid, ?_,
              closedPage contextId hFits hFront hPages⟩
            rw [hMore, List.append_assoc]
            rfl
      · next hWithin =>
        have hNext := ih pages (current ++ [id]) (by omega)
          (by rw [List.append_assoc]; exact hSorted)
        rwa [List.append_assoc] at hNext
where
  /-- The page made of `current`, in front of other pages. -/
  closedPage (contextId : MeshContextId) {current rest : List FactId} {more : List FactInventory}
      {valid : Bool} (hFits : factSetLen idLen .factInventory current ≤ receiveFrameBytes)
      (hSorted : Ascending current)
      (hPages : Paged (fitsFrame (encodedSetLen idLen .factInventory)) FactInventory.factIds
        rest more valid) :
      Paged (fitsFrame (encodedSetLen idLen .factInventory)) FactInventory.factIds
        (current ++ rest) (.new contextId current :: more) valid := by
    have hContent : (FactInventory.new contextId current).factIds = current :=
      sortDedup_of_ordered hSorted
    have hPage : Paged (fitsFrame (encodedSetLen idLen .factInventory)) FactInventory.factIds
        ((FactInventory.new contextId current).factIds ++ rest) (.new contextId current :: more)
        valid :=
      hPages.cons (fitsFrame_part .factInventory) (by rw [hContent]; exact fitsFrame_iff.mpr hFits)
    rwa [hContent] at hPage

/-! ## Nothing is lost -/

variable (idLen) in
/-- What a producer of pages over `ids` has done when it ended: every page fits the frame
and is accepted by its receiver, the producer is valid exactly if every identity fits a
frame alone, and then the pages are the identities, each once and in order. -/
structure HandsOut (kind : FactSetKind) (contextId : MeshContextId) (ids : List FactId)
    (pages : List (List FactId)) (valid : Bool) : Prop where
  fitting : ∀ page ∈ pages, factSetLen idLen kind page ≤ receiveFrameBytes
  accepted : ∀ page ∈ pages, deserializeCanonicalFactIds contextId page = .ok (contextId, page)
  valid_iff : valid = true ↔ ∀ id ∈ ids, factSetLen idLen kind [id] ≤ receiveFrameBytes
  whole : valid = true → pages.flatten = ids

variable {ids page : List FactId}

theorem deserialize_of_ascending (contextId : MeshContextId) (h : Ascending page) :
    deserializeCanonicalFactIds contextId page = .ok (contextId, page) := by
  have hContent : canonicalFactIds page = page := sortDedup_of_ordered h
  rw [deserializeCanonicalFactIds, hContent, if_neg (by simp)]

/-- Pages of ascending identities are ascending. -/
theorem ascending_of_mem {pages : List (List FactId)} (hSorted : Ascending ids)
    (hFront : pages.flatten <+: ids) (hPage : page ∈ pages) : Ascending page :=
  hSorted.sublist ((List.sublist_flatten_of_mem hPage).trans hFront.sublist)

theorem HandsOut.of_paged {β : Type*} {content : β → List FactId} {pages : List β} {valid : Bool}
    (contextId : MeshContextId) (hSorted : Ascending ids)
    (h : Paged (fitsFrame (encodedSetLen idLen kind)) content ids pages valid) :
    HandsOut idLen kind contextId ids (pages.map content) valid := by
  refine ⟨fun page hPage => ?_, fun page hPage => ?_, ?_, h.whole⟩
  · obtain ⟨original, hOriginal, rfl⟩ := List.mem_map.mp hPage
    exact fitsFrame_iff.mp (h.fitting original hOriginal)
  · exact deserialize_of_ascending contextId (ascending_of_mem hSorted h.front hPage)
  · rw [h.valid_iff]
    simp only [fitsFrame_iff]

/-- `ExactFramePages` over ascending identities. Without identities it hands out one empty
page. -/
theorem exactFramePages_handsOut (kind : FactSetKind) (contextId : MeshContextId)
    (hSorted : Ascending ids) (hFuel : ids.length + 1 < fuel) :
    ∃ pages last, collect (ExactFramePages.next (encodedSetLen idLen kind)) fuel
        (exactFramePages ids) = some (pages, last) ∧
      HandsOut idLen kind contextId ids pages last.isValid := by
  cases ids with
  | nil =>
    obtain ⟨fuel, rfl⟩ : ∃ more, fuel = more + 2 := ⟨fuel - 2, by simp at hFuel; omega⟩
    refine ⟨[[]], ⟨[], none, true, true, false⟩, rfl, ?_, ?_, by simp [ExactFramePages.isValid],
      fun _ => rfl⟩
    · simpa using emptySetLen_le kind
    · simpa using deserialize_of_ascending contextId List.Pairwise.nil
  | cons first rest =>
    obtain ⟨pages, last, hCollect, hPages⟩ := collect_paged (fitsFrame_part kind)
      (fun state hReady => ExactFramePages.next_step (encodedSetLen idLen kind) state hReady) fuel
      (exactFramePages (first :: rest)) ⟨rfl, by simp [exactFramePages], by
        simp [exactFramePages, ExactFramePages.left]⟩ (by
        simpa [exactFramePages, ExactFramePages.left] using by simp at hFuel; omega)
    refine ⟨pages, last, hCollect, ?_⟩
    simpa using HandsOut.of_paged contextId hSorted hPages

theorem factInventoryCursor_handsOut (contextId : MeshContextId) {store : List FactId}
    (hSorted : Ascending store) (hFuel : store.length < fuel) :
    ∃ pages last, collect (FactInventoryCursor.nextPage idLen store) fuel
        (localFactInventoryCursor contextId) = some (pages, last) ∧
      HandsOut idLen .factInventory contextId store (pages.map FactInventory.factIds)
        last.isValid := by
  obtain ⟨pages, last, hCollect, hPages⟩ := collect_paged (fitsFrame_part .factInventory)
    (fun state hReady => FactInventoryCursor.nextPage_step hSorted state hReady) fuel
    (localFactInventoryCursor contextId) ⟨rfl, rfl, [], rfl, rfl⟩ hFuel
  exact ⟨pages, last, hCollect, HandsOut.of_paged contextId hSorted hPages⟩

theorem deltaInventoryPages_handsOut (contextId : MeshContextId) (delta : SemanticDelta) :
    HandsOut idLen .factInventory contextId (deltaIds delta)
      (((deltaInventoryPages idLen contextId delta).getD []).map FactInventory.factIds)
      (deltaInventoryPages idLen contextId delta).isSome := by
  have hSorted : Ascending (deltaIds delta) := sortDedup_ordered _
  obtain ⟨pages, valid, hLoop, hPages⟩ :=
    deltaPagesLoop_paged contextId (deltaIds delta) [] [] (emptySetLen_le _) hSorted
  have hHands := HandsOut.of_paged contextId hSorted hPages
  have hResult : deltaInventoryPages idLen contextId delta =
      if valid = true then some pages else none := hLoop
  rw [hResult]
  cases valid with
  | true => exact hHands
  | false => exact ⟨by simp, by simp, hHands.valid_iff, by simp⟩

/-- **Inventory paging loses nothing.** The three producers end, and what they have handed
out then is as `HandsOut` says. -/
theorem inventory_paging_lossless (idLen : FactId → Nat) (contextId : MeshContextId)
    (ids : List FactId) (hSorted : Ascending ids) (delta : SemanticDelta) :
    (∀ kind fuel, ids.length + 1 < fuel →
      ∃ pages last, collect (ExactFramePages.next (encodedSetLen idLen kind)) fuel
          (exactFramePages ids) = some (pages, last) ∧
        HandsOut idLen kind contextId ids pages last.isValid) ∧
    (∀ fuel, ids.length < fuel →
      ∃ pages last, collect (FactInventoryCursor.nextPage idLen ids) fuel
          (localFactInventoryCursor contextId) = some (pages, last) ∧
        HandsOut idLen .factInventory contextId ids (pages.map FactInventory.factIds)
          last.isValid) ∧
    HandsOut idLen .factInventory contextId (deltaIds delta)
      (((deltaInventoryPages idLen contextId delta).getD []).map FactInventory.factIds)
      (deltaInventoryPages idLen contextId delta).isSome :=
  ⟨fun kind _ hFuel => exactFramePages_handsOut kind contextId hSorted hFuel,
    fun _ hFuel => factInventoryCursor_handsOut contextId hSorted hFuel,
    deltaInventoryPages_handsOut contextId delta⟩

/-- Two identities so long that a frame holds one of them go out in two pages. -/
theorem inventory_paging_lossless_two :
    ∃ last, collect (ExactFramePages.next (encodedSetLen (fun _ => receiveFrameBytes / 2)
        .factRequest)) 4 (exactFramePages [⟨⟨1, by decide⟩⟩, ⟨⟨2, by decide⟩⟩]) =
        some ([[⟨⟨1, by decide⟩⟩], [⟨⟨2, by decide⟩⟩]], last) ∧
      HandsOut (fun _ => receiveFrameBytes / 2) .factRequest ⟨⟨0, by decide⟩⟩
        [⟨⟨1, by decide⟩⟩, ⟨⟨2, by decide⟩⟩] [[⟨⟨1, by decide⟩⟩], [⟨⟨2, by decide⟩⟩]] true := by
  obtain ⟨pages, last, hCollect, hPages⟩ :=
    (inventory_paging_lossless (fun _ => receiveFrameBytes / 2) ⟨⟨0, by decide⟩⟩
      [⟨⟨1, by decide⟩⟩, ⟨⟨2, by decide⟩⟩] (by unfold Ascending; decide) .empty).1 .factRequest 4
      (by decide)
  have hRun : (collect (ExactFramePages.next (encodedSetLen (fun _ => receiveFrameBytes / 2)
      .factRequest)) 4 (exactFramePages [⟨⟨1, by decide⟩⟩, ⟨⟨2, by decide⟩⟩])).map
        (fun run => (run.1, run.2.isValid)) =
      some ([[⟨⟨1, by decide⟩⟩], [⟨⟨2, by decide⟩⟩]], true) := by decide +kernel
  rw [hCollect, Option.map_some, Option.some.injEq, Prod.mk.injEq] at hRun
  obtain ⟨rfl, hValid⟩ : pages = _ ∧ last.isValid = true := hRun
  rw [hValid] at hPages
  exact ⟨last, hCollect, hPages⟩

end

end MyOwnMesh.Protocol
