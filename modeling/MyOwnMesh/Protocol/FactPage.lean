import MyOwnMesh.Semantic.Fact

/-!
# Fact pages on the peer wire

A page carries signed facts with its continuation cursor and its completion bit,
and one frame holds at most `receiveFrameBytes`. Lengths are those of the compact
JSON text: the texts of digests have fixed length, and a fact's own text has the
length `Platform` gives it.
-/

namespace MyOwnMesh.Protocol

open Foundation Semantic

def receiveFrameBytes : Nat := 65535

/-- Facts in the order of their ids. -/
structure FactPageMessage where
  contextId : MeshContextId
  facts : List SignedFact
  nextCursor : Option FactId
  complete : Bool
deriving DecidableEq

/-- The messages that answer a request. -/
inductive MeshMessage where
  | fact (fact : SignedFact)
  | factPage (page : FactPageMessage)
deriving DecidableEq

def MeshMessage.facts : MeshMessage → List SignedFact
  | .fact signed => [signed]
  | .factPage page => page.facts

/-! ## Encoded lengths -/

/-- A digest's JSON text: 52 base32 symbols and the quotes. -/
def digestTextLen : Nat := 54

/-- A page's JSON text without its facts and its cursor. -/
def pageFrameLen (complete : Bool) : Nat :=
  "\x7b\"kind\":\"fact_page\",\"context_id\":".length + digestTextLen + ",\"facts\":[".length +
    "],\"next_cursor\":".length + ",\"complete\":".length +
    (if complete then "true".length else "false".length) + "\x7d".length

def cursorLen : Option FactId → Nat
  | some _ => digestTextLen
  | none => "null".length

variable [Platform]

/-- The facts of a page with the commas between them. -/
def factsLen (facts : List SignedFact) : Option Nat :=
  (facts.mapM Platform.encodedLen).map fun lengths => lengths.sum + (lengths.length - 1)

/-- `serde_json::to_vec(message)`, by its length. The tag of a single fact stands
before the fields of its text. -/
def MeshMessage.jsonLen : MeshMessage → Option Nat
  | .fact signed => (Platform.encodedLen signed).map fun n => "\"kind\":\"fact\",".length + n
  | .factPage page =>
    (factsLen page.facts).map fun n => pageFrameLen page.complete + n + cursorLen page.nextCursor

/-- `encoded_json_len`: the counting writer refuses a length outside of `usize`. -/
def encodedJsonLen (message : MeshMessage) : Option Nat :=
  message.jsonLen.filter fun n => n < 2 ^ 64

namespace FactPageMessage

def encodedLen (page : FactPageMessage) : Option Nat := encodedJsonLen (.factPage page)

/-- The checks of a received page, in the order of the source. -/
def validate (page : FactPageMessage) : Except String Unit :=
  if page.facts.isEmpty && (!page.complete || page.nextCursor.isSome) then
    .error "an empty fact page must be complete without a cursor"
  else if page.facts.any fun fact => fact.content.meshContext ≠ page.contextId then
    .error "fact page contains a foreign mesh context"
  else if !strictlyAscending (page.facts.map SignedFact.id) then
    .error "fact page IDs must be strictly increasing"
  else if page.complete && page.nextCursor.isSome then
    .error "a complete fact page cannot have a continuation cursor"
  else if !page.complete && page.nextCursor ≠ page.facts.getLast?.map SignedFact.id then
    .error "an incomplete fact page must end at its continuation cursor"
  else
    match page.encodedLen with
    | none => .error "fact page length overflow"
    | some n =>
      if n > receiveFrameBytes then .error "fact page exceeds the receive frame boundary"
      else .ok ()

/-- A page that has passed its own check. -/
def new (contextId : MeshContextId) (facts : List SignedFact) (nextCursor : Option FactId)
    (complete : Bool) : Except String FactPageMessage := do
  let page : FactPageMessage := { contextId, facts, nextCursor, complete }
  page.validate
  return page

end FactPageMessage

/-- The cursor of a page that is not the last. -/
def pageCursor (facts : List SignedFact) (complete : Bool) : Option FactId :=
  if complete then none else facts.getLast?.map SignedFact.id

/-! ## Pages that fit -/

/-- A page of facts of one context in the order of their identities. -/
structure Regular (contextId : MeshContextId) (facts : List SignedFact) : Prop where
  context : ∀ fact ∈ facts, fact.content.meshContext = contextId
  ascending : facts.Pairwise fun a b => compare a.id b.id = .lt

/-- The facts fit one page that is not the last. -/
def Fits (contextId : MeshContextId) (facts : List SignedFact) : Prop :=
  ∃ n, (FactPageMessage.mk contextId facts (pageCursor facts false) false).encodedLen = some n ∧
    n ≤ receiveFrameBytes

instance (contextId : MeshContextId) (facts : List SignedFact) :
    Decidable (Fits contextId facts) :=
  match h : (FactPageMessage.mk contextId facts (pageCursor facts false) false).encodedLen with
  | none => isFalse (by rintro ⟨n, hn, -⟩; simp [h] at hn)
  | some n => decidable_of_iff (n ≤ receiveFrameBytes) (by simp [Fits, h])

section Fitting

variable {contextId : MeshContextId} {facts more : List SignedFact} {n : Nat}

theorem encodedLen_eq_some {cursor : Option FactId} {complete : Bool} :
    (FactPageMessage.mk contextId facts cursor complete).encodedLen = some n ↔
      ∃ k, factsLen facts = some k ∧ n = pageFrameLen complete + k + cursorLen cursor ∧
        n < 2 ^ 64 := by
  unfold FactPageMessage.encodedLen encodedJsonLen MeshMessage.jsonLen
  simp only [Option.filter_eq_some_iff, Option.map_eq_some_iff, decide_eq_true_eq]
  constructor
  · rintro ⟨⟨k, hFacts, rfl⟩, hRange⟩
    exact ⟨k, hFacts, rfl, hRange⟩
  · rintro ⟨k, hFacts, rfl, hRange⟩
    exact ⟨⟨k, hFacts, rfl⟩, hRange⟩

/-- Both parts of a list are no longer than the list. -/
theorem factsLen_of_append (h : factsLen (facts ++ more) = some n) :
    (∃ k, factsLen facts = some k ∧ k ≤ n) ∧ ∃ k, factsLen more = some k ∧ k ≤ n := by
  unfold factsLen at h ⊢
  rw [List.mapM_append] at h
  cases hFacts : facts.mapM Platform.encodedLen with
  | none => simp [hFacts] at h
  | some lengths =>
    cases hMore : more.mapM Platform.encodedLen with
    | none => simp [hFacts, hMore] at h
    | some others =>
      simp only [hFacts, hMore, Option.pure_def, Option.bind_eq_bind, Option.bind_some,
        Option.map_some, Option.some.injEq, List.sum_append, List.length_append] at h
      refine ⟨⟨lengths.sum + (lengths.length - 1), rfl, ?_⟩,
        ⟨others.sum + (others.length - 1), rfl, ?_⟩⟩
      · omega
      · omega

omit [Platform] in
/-- The cursor of a continuation is a digest. -/
theorem cursorLen_pageCursor (hNonempty : facts ≠ []) :
    cursorLen (pageCursor facts false) = digestTextLen := by
  simp [pageCursor, List.getLast?_eq_some_getLast hNonempty, cursorLen]

/-- Both parts of a page that fits do. -/
theorem Fits.of_append (h : Fits contextId (facts ++ more)) :
    (facts ≠ [] → Fits contextId facts) ∧ (more ≠ [] → Fits contextId more) := by
  obtain ⟨n, hLen, hLe⟩ := h
  obtain ⟨k, hFacts, rfl, hRange⟩ := encodedLen_eq_some.mp hLen
  obtain ⟨⟨i, hHead, hi⟩, ⟨j, hTail, hj⟩⟩ := factsLen_of_append hFacts
  refine ⟨fun hNonempty => ?_, fun hNonempty => ?_⟩
  · have hCursor := cursorLen_pageCursor hNonempty
    have hWhole := cursorLen_pageCursor (List.append_ne_nil_of_left_ne_nil hNonempty more)
    refine ⟨_, encodedLen_eq_some.mpr ⟨i, hHead, rfl, ?_⟩, ?_⟩
    · omega
    · omega
  · have hCursor := cursorLen_pageCursor hNonempty
    have hWhole := cursorLen_pageCursor (List.append_ne_nil_of_right_ne_nil facts hNonempty)
    refine ⟨_, encodedLen_eq_some.mpr ⟨j, hTail, rfl, ?_⟩, ?_⟩
    · omega
    · omega

/-- Each fact of a page that fits has a page of its own. -/
theorem Fits.of_mem (h : Fits contextId facts) {fact : SignedFact} (hFact : fact ∈ facts) :
    Fits contextId [fact] := by
  obtain ⟨before, after, rfl⟩ := List.append_of_mem hFact
  have hRest : Fits contextId ([fact] ++ after) := h.of_append.2 (by simp)
  exact hRest.of_append.1 (by simp)

omit [Platform] in
theorem Regular.of_append (h : Regular contextId (facts ++ more)) : Regular contextId facts :=
  ⟨fun fact hFact => h.context fact (List.mem_append_left _ hFact),
    (List.pairwise_append.mp h.ascending).1⟩

/-- The end of a page is shorter than its continuation. -/
theorem Fits.encodedLen (h : Fits contextId facts) (hNonempty : facts ≠ []) (complete : Bool) :
    ∃ n, (FactPageMessage.mk contextId facts (pageCursor facts complete) complete).encodedLen =
      some n ∧ n ≤ receiveFrameBytes := by
  cases complete with
  | false => exact h
  | true =>
    obtain ⟨n, hLen, hLe⟩ := h
    obtain ⟨k, hFacts, rfl, hRange⟩ := encodedLen_eq_some.mp hLen
    have hCursor := cursorLen_pageCursor hNonempty
    have hShorter : pageFrameLen true + cursorLen none ≤ pageFrameLen false + digestTextLen := by
      decide
    have hNone : cursorLen (pageCursor facts true) = cursorLen none := rfl
    refine ⟨_, encodedLen_eq_some.mpr ⟨k, hFacts, rfl, ?_⟩, ?_⟩
    · omega
    · omega

/-- A regular page that fits is accepted. -/
theorem FactPageMessage.validate_of_fits (hFits : Fits contextId facts)
    (hRegular : Regular contextId facts) (hNonempty : facts ≠ []) (complete : Bool) :
    (FactPageMessage.mk contextId facts (pageCursor facts complete) complete).validate =
      .ok () := by
  obtain ⟨n, hLen, hLe⟩ := hFits.encodedLen hNonempty complete
  have hContext : (facts.any fun fact => fact.content.meshContext ≠ contextId) = false := by
    simpa using hRegular.context
  have hAscending : strictlyAscending (facts.map SignedFact.id) = true :=
    strictlyAscending_of_pairwise (List.pairwise_map.mpr hRegular.ascending)
  have hEmpty : facts.isEmpty = false := by simpa using hNonempty
  unfold FactPageMessage.validate
  simp only [hEmpty, hContext, hAscending, hLen]
  cases complete with
  | false => simp [pageCursor, Nat.not_lt.mpr hLe]
  | true => simp [pageCursor, Nat.not_lt.mpr hLe]

/-- A page that is accepted is within the frame boundary. -/
theorem FactPageMessage.encodedLen_of_validate {page : FactPageMessage}
    (h : page.validate = .ok ()) : ∃ n, page.encodedLen = some n ∧ n ≤ receiveFrameBytes := by
  unfold FactPageMessage.validate at h
  repeat (split at h; · cases h)
  rename_i n hLen hLe
  exact ⟨n, hLen, Nat.not_lt.mp hLe⟩

end Fitting

end MyOwnMesh.Protocol
