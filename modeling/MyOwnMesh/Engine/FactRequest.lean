import MyOwnMesh.Protocol.FactPage
import MyOwnMesh.Semantic.Sample

/-!
# Answering a fact request

`on_fact_request` grows one page fact by fact and measures it after each. The probe
builds the page it measures, and a page over the frame boundary is not built: the
probe then has no length at all, the branches that send what has been collected are
not reached, and the whole request ends without an answer (`fact_request_unanswered`).
So a request is answered exactly when its facts fit one page (`fact_request_answered`).
-/

namespace MyOwnMesh.Engine

open Foundation Semantic Protocol

/-- A request that was accepted: its constructor and its decoder keep the identities sorted
and distinct. -/
structure FactRequest where
  contextId : MeshContextId
  factIds : List FactId
  canonical : factIds.Pairwise fun a b => compare a b = .lt

/-- The part of the engine's state a request reads. The durable owner hands out a row
only under the identity and the context its fact has. -/
structure EngineState where
  meshContextId : MeshContextId
  admittedSemanticFact : FactId → Option SignedFact
  stored : ∀ (id : FactId) (fact : SignedFact), admittedSemanticFact id = some fact →
    fact.id = id ∧ fact.content.meshContext = meshContextId

/-- Why a reply was not sent. -/
inductive SendError where
  | page (reason : String)
  | serde
  | network
deriving DecidableEq

/-- The frames that went out so far. -/
abbrev Sent := List MeshMessage

section Replies

variable [Platform]

/-- `send_logical_reply`: whether the next frame goes out is up to the route. -/
def sendLogicalReply (route : Nat → Bool) (sent : Sent) (message : MeshMessage) :
    Except SendError Unit × Sent :=
  if message.jsonLen.isNone then (.error .serde, sent)
  else if route sent.length then (.ok (), sent ++ [message])
  else (.error .network, sent)

/-- Build a page and send it. -/
def sendFactPage (route : Nat → Bool) (sent : Sent) (contextId : MeshContextId)
    (facts : List SignedFact) (complete : Bool) : Except SendError Unit × Sent :=
  match FactPageMessage.new contextId facts (pageCursor facts complete) complete with
  | .error reason => (.error (.page reason), sent)
  | .ok page => sendLogicalReply route sent (.factPage page)

/-- The size of a page; `none` where the page is refused. -/
def factPageEncodedLen (contextId : MeshContextId) (facts : List SignedFact) (complete : Bool) :
    Option Nat :=
  match FactPageMessage.new contextId facts (pageCursor facts complete) complete with
  | .error _ => none
  | .ok page => page.encodedLen

/-- `send_single_fact_page`: `ok false` is a fact that no frame can carry. -/
def sendSingleFactPage (route : Nat → Bool) (sent : Sent) (fact : SignedFact) :
    Except SendError Bool × Sent :=
  match (MeshMessage.fact fact).jsonLen with
  | none => (.error .serde, sent)
  | some n =>
    if n > receiveFrameBytes then (.ok false, sent)
    else
      match sendLogicalReply route sent (.fact fact) with
      | (.ok (), sent) => (.ok true, sent)
      | (.error error, sent) => (.error error, sent)

/-- The loop over the requested identities, with the facts of the page in progress. It
ends with the page that is left, or early with none. -/
def collectPages (state : EngineState) (route : Nat → Bool) :
    List FactId → List SignedFact → Sent → Option (List SignedFact) × Sent
  | [], pageFacts, sent => (some pageFacts, sent)
  | id :: ids, pageFacts, sent =>
    match state.admittedSemanticFact id with
    | none => collectPages state route ids pageFacts sent
    | some fact =>
      match factPageEncodedLen state.meshContextId (pageFacts ++ [fact]) false with
      | none => (none, sent)
      | some n =>
        if n > receiveFrameBytes then
          if pageFacts.isEmpty then
            match sendSingleFactPage route sent fact with
            | (.ok _, sent) => collectPages state route ids [] sent
            | (.error _, sent) => (none, sent)
          else
            match sendFactPage route sent state.meshContextId pageFacts false with
            | (.error _, sent) => (none, sent)
            | (.ok (), sent) =>
              if (factPageEncodedLen state.meshContextId [fact] false).all fun n =>
                  n > receiveFrameBytes then
                match sendSingleFactPage route sent fact with
                | (.ok _, sent) => collectPages state route ids [] sent
                | (.error _, sent) => (none, sent)
              else collectPages state route ids [fact] sent
        else collectPages state route ids (pageFacts ++ [fact]) sent

/-- `on_fact_request`, with the frames it sends. -/
def onFactRequest (state : EngineState) (route : Nat → Bool) (request : FactRequest) : Sent :=
  if request.contextId ≠ state.meshContextId then []
  else
    match collectPages state route request.factIds [] [] with
    | (none, sent) => sent
    | (some pageFacts, sent) =>
      if pageFacts.isEmpty then sent
      else (sendFactPage route sent state.meshContextId pageFacts true).2

/-! ## What a request asks for -/

/-- The admitted facts a request asks for, in its order. A request names facts of its own
context only. -/
def requested (state : EngineState) (request : FactRequest) : List SignedFact :=
  (request.factIds.filterMap state.admittedSemanticFact).filter fun fact =>
    fact.content.meshContext = request.contextId

/-- The fact fits a page of its own, or a frame of its own. -/
def Transmittable (contextId : MeshContextId) (fact : SignedFact) : Bool :=
  (factPageEncodedLen contextId [fact] true).isSome ||
    ((MeshMessage.fact fact).jsonLen).any fun n => n ≤ receiveFrameBytes

section Answer

variable {state : EngineState} {route : Nat → Bool}

omit [Platform] in
/-- The admitted facts of sorted identities make a regular page. -/
theorem regular_of_admitted (state : EngineState) {ids : List FactId}
    (hIds : ids.Pairwise fun a b => compare a b = .lt) :
    Regular state.meshContextId (ids.filterMap state.admittedSemanticFact) := by
  refine ⟨fun fact hFact => ?_, ?_⟩
  · obtain ⟨id, -, hRead⟩ := List.mem_filterMap.mp hFact
    exact (state.stored id fact hRead).2
  · refine List.Pairwise.filterMap _ ?_ hIds
    intro a b hLt fact hFact other hOther
    rw [(state.stored a fact hFact).1, (state.stored b other hOther).1]
    exact hLt

omit [Platform] in
/-- A request of another context asks for nothing that is admitted here. -/
theorem requested_eq (state : EngineState) (request : FactRequest) :
    requested state request = if request.contextId = state.meshContextId then
      request.factIds.filterMap state.admittedSemanticFact else [] := by
  have hContext := (regular_of_admitted state request.canonical).context
  unfold requested
  by_cases hSame : request.contextId = state.meshContextId
  · rw [if_pos hSame, List.filter_eq_self]
    intro fact hFact
    simp [hContext fact hFact, hSame]
  · rw [if_neg hSame, List.filter_eq_nil_iff]
    intro fact hFact
    simp [hContext fact hFact, Ne.symm hSame]

variable {contextId : MeshContextId} {facts : List SignedFact}

/-- The probe measures a page it can build. -/
theorem factPageEncodedLen_of_fits (hFits : Fits contextId facts)
    (hRegular : Regular contextId facts) (hNonempty : facts ≠ []) (complete : Bool) :
    ∃ n, factPageEncodedLen contextId facts complete = some n ∧
      n ≤ receiveFrameBytes := by
  obtain ⟨n, hLen, hLe⟩ := hFits.encodedLen hNonempty complete
  have hValid := FactPageMessage.validate_of_fits hFits hRegular hNonempty complete
  refine ⟨n, ?_, hLe⟩
  unfold factPageEncodedLen FactPageMessage.new
  simp only [hValid]
  exact hLen

/-- What the probe measures fits: a page over the boundary is not built. -/
theorem fits_of_factPageEncodedLen {n : Nat}
    (h : factPageEncodedLen contextId facts false = some n) :
    Fits contextId facts ∧ n ≤ receiveFrameBytes := by
  unfold factPageEncodedLen FactPageMessage.new at h
  cases hValid : (FactPageMessage.mk contextId facts (pageCursor facts false) false).validate with
  | error reason =>
    simp only [hValid] at h
    cases h
  | ok _ =>
    obtain ⟨m, hLen, hLe⟩ := FactPageMessage.encodedLen_of_validate hValid
    simp only [hValid] at h
    cases hLen.symm.trans h
    exact ⟨⟨n, hLen, hLe⟩, hLe⟩

/-- **The loop over the facts of a request.** It sends nothing, and keeps them all if they fit
one page. -/
theorem collectPages_eq (ids : List FactId) : ∀ (pageFacts : List SignedFact) (sent : Sent),
    Fits state.meshContextId pageFacts →
    Regular state.meshContextId (pageFacts ++ ids.filterMap state.admittedSemanticFact) →
    collectPages state route ids pageFacts sent =
      (if Fits state.meshContextId (pageFacts ++ ids.filterMap state.admittedSemanticFact) then
        some (pageFacts ++ ids.filterMap state.admittedSemanticFact) else none, sent) := by
  induction ids with
  | nil =>
    intro pageFacts sent hFits _
    rw [List.filterMap_nil, List.append_nil, if_pos hFits]
    rfl
  | cons id ids ih =>
    intro pageFacts sent hFits hRegular
    cases hRead : state.admittedSemanticFact id with
    | none =>
      rw [List.filterMap_cons_none hRead] at hRegular ⊢
      simp only [collectPages, hRead]
      exact ih pageFacts sent hFits hRegular
    | some fact =>
      rw [List.filterMap_cons_some hRead, List.append_cons] at hRegular ⊢
      have hNonempty : pageFacts ++ [fact] ≠ [] := by simp
      cases hLen : factPageEncodedLen state.meshContextId (pageFacts ++ [fact]) false with
      | none =>
        -- The request ends here, and no longer page fits.
        rw [if_neg fun hAll => ?_]
        · simp only [collectPages, hRead, hLen]
        · obtain ⟨n, hSome, -⟩ := factPageEncodedLen_of_fits (hAll.of_append.1 hNonempty)
            hRegular.of_append hNonempty false
          cases hLen.symm.trans hSome
      | some n =>
        obtain ⟨hMore, hLe⟩ := fits_of_factPageEncodedLen hLen
        simp only [collectPages, hRead, hLen]
        rw [if_neg (Nat.not_lt.mpr hLe)]
        exact ih (pageFacts ++ [fact]) sent hMore hRegular

/-- The last page of facts that fit goes out when the route takes it. -/
theorem sendFactPage_of_fits (hFits : Fits contextId facts) (hRegular : Regular contextId facts)
    (hNonempty : facts ≠ []) (hRoute : route 0 = true) :
    sendFactPage route [] contextId facts true =
      (.ok (), [.factPage { contextId, facts, nextCursor := none, complete := true }]) := by
  obtain ⟨n, hLen, -⟩ := hFits.encodedLen hNonempty true
  have hValid := FactPageMessage.validate_of_fits hFits hRegular hNonempty true
  have hJson : (MeshMessage.factPage (.mk contextId facts none true)).jsonLen = some n :=
    Option.eq_some_of_filter_eq_some hLen
  unfold sendFactPage FactPageMessage.new
  simp only [hValid]
  show sendLogicalReply route [] (.factPage (.mk contextId facts none true)) = _
  simp [sendLogicalReply, hJson, hRoute]

/-- What a request is answered with, when the route takes every frame. -/
theorem onFactRequest_eq (state : EngineState) (request : FactRequest)
    (hRoute : ∀ n, route n = true) :
    onFactRequest state route request =
      if Fits state.meshContextId (requested state request) ∧ requested state request ≠ [] then
        [.factPage ⟨state.meshContextId, requested state request, none, true⟩] else [] := by
  have hRegular := regular_of_admitted state request.canonical
  have hEmptyFits : Fits state.meshContextId [] :=
    ⟨_, rfl, show pageFrameLen false + 0 + cursorLen none ≤ receiveFrameBytes by decide⟩
  rw [requested_eq]
  unfold onFactRequest
  by_cases hSame : request.contextId = state.meshContextId
  · rw [if_neg (not_not.mpr hSame), if_pos hSame, collectPages_eq request.factIds [] [] hEmptyFits
      hRegular, List.nil_append]
    generalize request.factIds.filterMap state.admittedSemanticFact = facts at hRegular ⊢
    by_cases hFits : Fits state.meshContextId facts
    · by_cases hEmpty : facts = []
      · simp [hEmpty, hEmptyFits]
      · have hSent := sendFactPage_of_fits hFits hRegular hEmpty (hRoute 0)
        simp [hFits, hEmpty, hSent]
    · simp [hFits]
  · rw [if_pos hSame, if_neg hSame, if_neg fun h => h.2 rfl]

/-- The frames carry every requested fact that any frame can carry, each once and in order, and
nothing else; every page is valid. -/
def Answered (state : EngineState) (route : Nat → Bool) (request : FactRequest) : Prop :=
  (onFactRequest state route request).flatMap MeshMessage.facts =
      (requested state request).filter (Transmittable state.meshContextId) ∧
    ((onFactRequest state route request).flatMap MeshMessage.facts).Pairwise
      (fun a b => compare a.id b.id = .lt) ∧
    ∀ page, .factPage page ∈ onFactRequest state route request → page.validate = .ok ()

/-- **A request is answered exactly when its facts fit one page**, or no frame can carry any
of them. If they do not fit nothing is sent. -/
theorem fact_request_answered (state : EngineState) (route : Nat → Bool) (request : FactRequest)
    (hRoute : ∀ n, route n = true) :
    (Answered state route request ↔ Fits state.meshContextId (requested state request) ∨
      ∀ fact ∈ requested state request, Transmittable state.meshContextId fact = false) ∧
    (¬ Fits state.meshContextId (requested state request) →
      onFactRequest state route request = []) := by
  have hSent := onFactRequest_eq state request hRoute
  have hNothing (hNot : ¬ Fits state.meshContextId (requested state request)) :
      onFactRequest state route request = [] := by
    rw [hSent, if_neg fun h => hNot h.1]
  refine ⟨⟨fun hAnswered => ?_, fun hCase => ?_⟩, hNothing⟩
  · refine or_iff_not_imp_left.mpr fun hNot fact hFact => ?_
    have hAll := hAnswered.1.symm
    rw [hNothing hNot, List.flatMap_nil, List.filter_eq_nil_iff] at hAll
    exact Bool.eq_false_iff.mpr (hAll fact hFact)
  · have hRegular : Regular state.meshContextId (requested state request) := by
      have hAdmitted := regular_of_admitted state request.canonical
      rw [requested_eq]
      split
      · exact hAdmitted
      · exact ⟨fun _ h => (List.not_mem_nil h).elim, .nil⟩
    unfold Answered
    rw [hSent]
    split
    · rename_i hPage
      obtain ⟨hFits, hNonempty⟩ := hPage
      have hAll : (requested state request).filter (Transmittable state.meshContextId) =
          requested state request := by
        rw [List.filter_eq_self]
        intro fact hFact
        have hAlone : Regular state.meshContextId [fact] :=
          ⟨by simpa using hRegular.context fact hFact, List.pairwise_singleton _ _⟩
        obtain ⟨n, hLen, -⟩ := factPageEncodedLen_of_fits (hFits.of_mem hFact) hAlone
          (List.cons_ne_nil _ _) true
        simp [Transmittable, hLen]
      simp only [List.flatMap_cons, List.flatMap_nil, List.append_nil, MeshMessage.facts]
      refine ⟨hAll.symm, hRegular.ascending, fun page hMem => ?_⟩
      rw [List.mem_singleton, MeshMessage.factPage.injEq] at hMem
      rw [hMem]
      exact FactPageMessage.validate_of_fits hFits hRegular hNonempty true
    · -- No fact was asked for, or none that a frame can carry.
      rename_i hNone
      refine ⟨(List.filter_eq_nil_iff.mpr fun fact hFact => ?_).symm, .nil,
        fun page hMem => (List.not_mem_nil hMem).elim⟩
      rcases hCase with hFits | hNo
      · exact absurd ⟨hFits, List.ne_nil_of_mem hFact⟩ hNone
      · exact Bool.eq_false_iff.mp (hNo fact hFact)

end Answer

end Replies

/-! ## Requests of a small store -/

/-- The sample platform with facts of seven hundred bytes. -/
@[reducible] def pagePlatform : Platform := { samplePlatform with encodedLen := fun _ => some 700 }

/-- A hundred facts, numbered from zero. -/
def sampleStore : EngineState where
  meshContextId := sampleContext
  admittedSemanticFact id :=
    if id.bytes.val < 100 then
      some { content := sampleContent (sampleDevice 1) (.roleRevoke (sampleDevice 2)) [] []
             id, signature := "" }
    else none
  stored := by
    intro id fact hRead
    split at hRead
    · rw [← Option.some.inj hRead]
      exact ⟨rfl, rfl⟩
    · simp at hRead

def sampleRequest (count : Nat)
    (canonical : ((List.range count).map fun n => FactId.mk (Fin.ofNat _ n)).Pairwise
      fun a b => compare a b = .lt) : FactRequest :=
  { contextId := sampleContext, factIds := _, canonical }

/-- Three facts fit one page, and a hundred do not. -/
theorem fact_request_answered_three :
    let _ : Platform := pagePlatform
    (requested sampleStore (sampleRequest 3 (by decide +kernel))).length = 3 ∧
      Answered sampleStore (fun _ => true) (sampleRequest 3 (by decide +kernel)) ∧
      ¬ Answered sampleStore (fun _ => true) (sampleRequest 100 (by decide +kernel)) := by
  let _ : Platform := pagePlatform
  refine ⟨by decide +kernel, (fact_request_answered sampleStore (fun _ => true) (sampleRequest 3
    (by decide +kernel)) (fun _ => rfl)).1.mpr (.inl (by decide +kernel)), fun hAnswered => ?_⟩
  have hCase := (fact_request_answered sampleStore (fun _ => true) (sampleRequest 100
    (by decide +kernel)) (fun _ => rfl)).1.mp hAnswered
  revert hCase
  decide +kernel

/-- Each of a hundred facts fits a page, and a request for all of them is not answered. -/
theorem fact_request_unanswered :
    let _ : Platform := pagePlatform
    let request := sampleRequest 100 (by decide +kernel)
    (requested sampleStore request).length = 100 ∧
      (∀ fact ∈ requested sampleStore request, Transmittable sampleContext fact = true) ∧
      onFactRequest sampleStore (fun _ => true) request = [] := by
  decide +kernel

end MyOwnMesh.Engine
