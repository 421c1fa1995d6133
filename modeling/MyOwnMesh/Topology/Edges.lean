import MyOwnMesh.Foundation.Program
import MyOwnMesh.Topology.Ranking

/-!
# Agreement on edges

Two nodes decide alone whether they are connected. A leaf ranks the hubs and keeps the
first ones; a hub counts the hubs that the leaf ranks before it. Both come to the same
edges, in the hub tier and in a hub tree that passed the configuration check.
-/

namespace MyOwnMesh.Topology

open Foundation

/-! ## The configuration check -/

/-- The check of a key that is not modelled. -/
class DeviceKeys where
  /-- Whether a base32 text is the canonical one of the 32 bytes of an Ed25519 key. -/
  spellsKey : String → Bool

section Check

variable [DeviceKeys]

/-- `DeviceId::from_canonical_str`. -/
def isCanonical (text : String) : Bool :=
  text.toList.all (fun c => (97 ≤ c.toNat && c.toNat ≤ 122) || (50 ≤ c.toNat && c.toNat ≤ 55)) &&
    DeviceKeys.spellsKey text

/-- Canonical texts are equal when the keys are, so sorting and comparing neighbours
finds a text that occurs twice. -/
def validateTopology (tree : HubTreeSelector) : Except String Unit := do
  failIf (¬isCanonical tree.root = true) "HubTree root must be a canonical DeviceId"
  failIf (tree.hubs = []) "HubTree requires at least one hub"
  tree.hubs.forM fun hub => do
    failIf (¬isCanonical hub = true) "HubTree hubs must be canonical DeviceIds"
    failIf (hub = tree.root) "HubTree root cannot also be a configured hub"
  failIf (¬tree.hubs.Nodup) "HubTree hubs must be unique"
  failIf (tree.hubs.length ≤ tree.backupCandidates)
    "HubTree backup candidates must be fewer than configured hubs"

theorem isCanonical_isKey {text : String} (h : isCanonical text = true) : IsKey text := by
  intro hDash
  rw [isCanonical, Bool.and_eq_true, List.all_eq_true] at h
  exact absurd (h.1 _ hDash) (by decide)

end Check

/-- What the check leaves of a tree: hubs named by their keys, each once, none of them
the root. -/
structure SoundTree (tree : HubTreeSelector) : Prop where
  key : ∀ hub ∈ tree.hubs, pubkeyPart hub = hub
  notRoot : ∀ hub ∈ tree.hubs, tree.isRoot hub = false
  nodup : tree.hubs.Nodup
  nonempty : tree.hubs ≠ []

theorem validateTopology_sound [DeviceKeys] {tree : HubTreeSelector}
    (h : validateTopology tree = .ok ()) : SoundTree tree := by
  unfold validateTopology at h
  simp only [except_bind_eq_ok, failIf_eq_ok, exists_and_left, exists_const] at h
  obtain ⟨hRoot, hSome, ⟨⟩, hEach, hNodup, -⟩ := h
  have hHubs (hub : String) (hHub : hub ∈ tree.hubs) :
      isCanonical hub = true ∧ hub ≠ tree.root := by
    obtain ⟨_, hCanonical, hOther⟩ := except_bind_eq_ok.mp (forM_eq_ok.mp hEach hub hHub)
    exact ⟨not_not.mp (failIf_eq_ok.mp hCanonical), failIf_eq_ok.mp hOther⟩
  have hKey (hub : String) (hHub : hub ∈ tree.hubs) : pubkeyPart hub = hub :=
    pubkeyPart_of_isKey (isCanonical_isKey (hHubs hub hHub).1)
  refine ⟨hKey, fun hub hHub => ?_, not_not.mp hNodup, hSome⟩
  rw [HubTreeSelector.isRoot, hKey hub hHub,
    pubkeyPart_of_isKey (isCanonical_isKey (not_not.mp hRoot)), beq_eq_false_iff_ne]
  exact (hHubs hub hHub).2

/-- A device id: nothing is left to strip from its public key. -/
def IsId (id : String) : Prop := pubkeyPart (pubkeyPart id) = pubkeyPart id

/-! ## The candidates of a leaf -/

section Candidates

variable [Rendezvous]

def firstHubs (hubs : List String) (leaf : String) (limit : Nat) : List String :=
  (sortedBy (rankFor (pubkeyPart leaf)) (hubs.map pubkeyPart)).take limit

/-- Hubs that are selected exactly when they rank first are that many keys. -/
theorem count_firstHubs {hubs : List String} {leaf : String} {limit : Nat}
    {selects : String → Bool}
    (h : ∀ hub ∈ hubs, selects hub = true ↔ pubkeyPart hub ∈ firstHubs hubs leaf limit) :
    ((hubs.filter selects).map pubkeyPart).dedup.length =
      min limit (hubs.map pubkeyPart).dedup.length := by
  have hNodup : (firstHubs hubs leaf limit).Nodup :=
    (nodup_sortedBy _ _).sublist (List.take_sublist _ _)
  have hPerm : ((hubs.filter selects).map pubkeyPart).dedup.Perm (firstHubs hubs leaf limit) := by
    refine (List.perm_ext_iff_of_nodup (List.nodup_dedup _) hNodup).mpr fun key => ?_
    rw [List.mem_dedup, List.mem_map]
    constructor
    · rintro ⟨hub, hHub, rfl⟩
      obtain ⟨hMem, hSelects⟩ := List.mem_filter.mp hHub
      exact (h hub hMem).mp hSelects
    · intro hKey
      obtain ⟨hub, hHub, rfl⟩ := List.mem_map.mp (mem_sortedBy.mp (List.mem_of_mem_take hKey))
      exact ⟨hub, List.mem_filter.mpr ⟨hHub, (h hub hHub).mpr hKey⟩, rfl⟩
  rw [hPerm.length_eq, firstHubs, List.length_take, length_sortedBy]

/-- The ranks a leaf compares, as the counting loop compares them. -/
theorem rankFor_lt_iff {leaf a b : String} : rankFor leaf a < rankFor leaf b ↔
    rendezvousScore leaf b < rendezvousScore leaf a ∨
      (rendezvousScore leaf a = rendezvousScore leaf b ∧ a < b) := by
  unfold rankFor
  rw [Prod.Lex.toLex_lt_toLex]
  simp only [OrderDual.toDual_lt_toDual, OrderDual.toDual_inj]

namespace HubTreeSelector

variable {tree : HubTreeSelector} {leaf hub : String}

/-- The counting loop from some place on. -/
theorem candidateContains_go (hubs : List String) : ∀ (rank : Nat) (found : Bool),
    rank < tree.candidateLimit →
    (candidateContains.go tree leaf hub hubs rank found = true ↔
      (found = true ∨
        ∃ c ∈ hubs, tree.isRoot (pubkeyPart c) = false ∧ pubkeyPart c = pubkeyPart hub) ∧
      rank + hubs.countP (fun c => !tree.isRoot (pubkeyPart c) && decide
        (rankFor (pubkeyPart leaf) (pubkeyPart c) < rankFor (pubkeyPart leaf) (pubkeyPart hub))) <
          tree.candidateLimit) := by
  induction hubs with
  | nil =>
    intro rank found hRank
    simp [candidateContains.go, hRank]
  | cons c rest ih =>
    intro rank found hRank
    rw [candidateContains.go]
    cases hRoot : tree.isRoot (pubkeyPart c) with
    | true => simp [hRoot, ih rank found hRank]
    | false =>
      rw [if_neg (by simp)]
      by_cases hSame : pubkeyPart c = pubkeyPart hub
      · rw [hSame] at hRoot
        rw [if_pos hSame, ih rank true hRank]
        simp [hRoot, hSame]
      · rw [if_neg hSame]
        by_cases hBetter : rankFor (pubkeyPart leaf) (pubkeyPart c) <
            rankFor (pubkeyPart leaf) (pubkeyPart hub)
        · rw [if_pos (rankFor_lt_iff.mp hBetter)]
          by_cases hFull : tree.candidateLimit ≤ rank + 1
          · rw [if_pos hFull, List.countP_cons_of_pos (by simp [hRoot, hBetter])]
            simp only [Bool.false_eq_true, false_iff, not_and]
            omega
          · rw [if_neg hFull, ih (rank + 1) found (by omega),
              List.countP_cons_of_pos (by simp [hRoot, hBetter])]
            simp only [List.mem_cons, exists_eq_or_imp, hSame, and_false, false_or]
            rw [Nat.add_right_comm, Nat.add_assoc]
        · rw [if_neg (rankFor_lt_iff.not.mp hBetter), ih rank found hRank,
            List.countP_cons_of_neg (by simp [hBetter])]
          simp only [List.mem_cons, exists_eq_or_imp, hSame, and_false, false_or]

omit [Rendezvous] in
theorem map_pubkeyPart (hSound : SoundTree tree) : tree.hubs.map pubkeyPart = tree.hubs :=
  (List.map_congr_left hSound.key).trans (List.map_id' _)

omit [Rendezvous] in
theorem candidateLimit_pos (hSound : SoundTree tree) : 0 < tree.candidateLimit := by
  have := List.length_pos_iff.mpr hSound.nonempty
  unfold candidateLimit
  omega

/-- **The count of a hub is the ranking of a leaf.** -/
theorem candidateContains_iff (hSound : SoundTree tree) : tree.candidateContains leaf hub = true ↔
    pubkeyPart hub ∈ firstHubs tree.hubs leaf tree.candidateLimit := by
  have hLimit := candidateLimit_pos hSound
  unfold candidateContains firstHubs
  rw [if_neg (by omega), candidateContains_go tree.hubs 0 false hLimit,
    mem_take_sortedBy (rankFor_injective _), map_pubkeyPart hSound, hSound.nodup.dedup]
  have hCount : tree.hubs.countP (fun c => !tree.isRoot (pubkeyPart c) && decide
      (rankFor (pubkeyPart leaf) (pubkeyPart c) < rankFor (pubkeyPart leaf) (pubkeyPart hub))) =
      tree.hubs.countP fun c => decide
        (rankFor (pubkeyPart leaf) c < rankFor (pubkeyPart leaf) (pubkeyPart hub)) := by
    refine List.countP_congr fun c hc => ?_
    rw [hSound.key c hc, hSound.notRoot c hc]
    simp
  rw [hCount, Nat.zero_add]
  refine and_congr_left' ⟨?_, fun hMem => .inr ⟨_, hMem, ?_, hSound.key _ hMem⟩⟩
  · rintro (hFalse | ⟨c, hc, -, hSame⟩)
    · simp at hFalse
    · rwa [← hSame, hSound.key c hc]
  · rw [hSound.key _ hMem]
    exact hSound.notRoot _ hMem

theorem rankedCandidates_keys (hSound : SoundTree tree) (leaf : String) (limit : Nat) :
    (tree.rankedCandidates leaf limit).map RankedHub.key = firstHubs tree.hubs leaf limit := by
  have hKept : tree.hubs.filter (fun hub => !tree.isRoot (pubkeyPart hub)) = tree.hubs :=
    List.filter_eq_self.mpr fun hub hHub => by
      rw [hSound.key hub hHub, hSound.notRoot hub hHub]
      rfl
  have hScan :=
    scan_keys (pubkeyPart leaf) limit (fun hub => tree.isRoot (pubkeyPart hub)) tree.hubs
  rw [hKept] at hScan
  exact hScan

/-! ## The edges of a tree -/

omit [Rendezvous] in
theorem isHub_iff_mem (hSound : SoundTree tree) {id : String} (hId : IsId id) :
    tree.isHub (pubkeyPart id) = true ↔ pubkeyPart id ∈ tree.hubs := by
  rw [isHub, hId, Bool.and_eq_true, List.any_eq_true]
  constructor
  · rintro ⟨-, hub, hHub, hSame⟩
    rw [beq_iff_eq, hSound.key hub hHub] at hSame
    exact hSame ▸ hHub
  · intro hMem
    exact ⟨by simp [hSound.notRoot _ hMem], _, hMem, by simp [hSound.key _ hMem]⟩

theorem edge_symm (tree : HubTreeSelector) (a b : String) : tree.edge a b = tree.edge b a := by
  unfold edge
  dsimp only
  by_cases hSame : pubkeyPart a = pubkeyPart b
  · rw [if_pos hSame, if_pos hSame.symm]
  · rw [if_neg hSame, if_neg (Ne.symm hSame)]
    cases tree.isRoot (pubkeyPart a) <;> cases tree.isRoot (pubkeyPart b) <;>
      cases tree.isHub (pubkeyPart a) <;> cases tree.isHub (pubkeyPart b) <;> rfl

/-- A leaf has the edges to the hubs it ranks first. -/
theorem leaf_edge_iff (hSound : SoundTree tree) {peer : String} (hLeaf : IsId leaf)
    (hPeer : IsId peer) (hRoot : tree.isRoot (pubkeyPart leaf) = false)
    (hHub : tree.isHub (pubkeyPart leaf) = false) : tree.edge leaf peer = true ↔
      pubkeyPart peer ∈ firstHubs tree.hubs leaf tree.candidateLimit := by
  have hFirst : pubkeyPart peer ∈ firstHubs tree.hubs leaf tree.candidateLimit →
      pubkeyPart peer ∈ tree.hubs := fun hMem => by
    have := mem_sortedBy.mp (List.mem_of_mem_take hMem)
    rwa [map_pubkeyPart hSound] at this
  have hContains := @candidateContains_iff _ _ (pubkeyPart leaf) (pubkeyPart peer) hSound
  rw [hPeer, firstHubs, hLeaf] at hContains
  unfold edge
  dsimp only
  by_cases hSame : pubkeyPart leaf = pubkeyPart peer
  · rw [if_pos hSame]
    refine ⟨fun h => absurd h (by simp), fun hMem => ?_⟩
    have hIn := hFirst hMem
    rw [← hSame, ← isHub_iff_mem hSound hLeaf, hHub] at hIn
    simp at hIn
  · rw [if_neg hSame, hRoot, hHub]
    cases hPeerHub : tree.isHub (pubkeyPart peer) with
    | true =>
      have hNot := hSound.notRoot _ ((isHub_iff_mem hSound hPeer).mp hPeerHub)
      simp only [hNot]
      exact hContains
    | false =>
      have hOut : pubkeyPart peer ∉ tree.hubs := fun hMem => by
        simp [(isHub_iff_mem hSound hPeer).mpr hMem] at hPeerHub
      cases tree.isRoot (pubkeyPart peer) <;>
        exact ⟨fun h => absurd h (by simp), fun hMem => absurd (hFirst hMem) hOut⟩

/-- Frames flow exactly where connections exist. -/
theorem mem_selectPreferred (hSound : SoundTree tree) {selfId peer : String} (hSelf : IsId selfId)
    (hPeer : IsId peer) (peers : List String) : peer ∈ tree.selectPreferred selfId peers ↔
      peer ∈ peers ∧ tree.edge selfId peer = true := by
  have hExact : tree.isHub peer = tree.isHub (pubkeyPart peer) := by
    unfold isHub
    rw [hPeer]
  have hRootHub (id : String) (hId : IsId id) (hRoot : tree.isRoot (pubkeyPart id) = true) :
      tree.isHub (pubkeyPart id) = false := by
    rw [isHub, hId, hRoot]
    rfl
  have hSameRoot (hRoot : tree.isRoot (pubkeyPart selfId) = true)
      (hPeerRoot : tree.isRoot (pubkeyPart peer) = true) : pubkeyPart selfId = pubkeyPart peer := by
    rw [isRoot, beq_iff_eq] at hRoot hPeerRoot
    rw [← hSelf, hRoot, ← hPeerRoot, hPeer]
  unfold selectPreferred
  dsimp only
  cases hRoot : tree.isRoot (pubkeyPart selfId) with
  | true =>
    have hNotHub := hRootHub selfId hSelf hRoot
    rw [if_pos rfl, List.mem_filter, hExact]
    refine and_congr_right fun _ => ?_
    unfold edge
    dsimp only
    rw [hRoot, hNotHub]
    by_cases hSame : pubkeyPart selfId = pubkeyPart peer
    · simp [hSame]
    · rw [if_neg hSame]
      cases hPeerRoot : tree.isRoot (pubkeyPart peer) with
      | true => exact absurd (hSameRoot hRoot hPeerRoot) hSame
      | false => cases tree.isHub (pubkeyPart peer) <;> simp [Ne.symm hSame]
  | false =>
    rw [if_neg (by simp)]
    cases hHub : tree.isHub (pubkeyPart selfId) with
    | true =>
      rw [if_pos rfl, List.mem_filter]
      refine and_congr_right fun _ => ?_
      unfold edge
      dsimp only
      rw [hRoot, hHub]
      by_cases hSame : pubkeyPart selfId = pubkeyPart peer
      · simp [hSame]
      · rw [if_neg hSame]
        cases hPeerRoot : tree.isRoot (pubkeyPart peer) with
        | true =>
          rw [hRootHub peer hPeer hPeerRoot]
          simp [Ne.symm hSame]
        | false => cases tree.isHub (pubkeyPart peer) <;> simp [Ne.symm hSame]
    | false =>
      rw [if_neg (by simp), List.mem_filter, leaf_edge_iff hSound hSelf hPeer hRoot hHub]
      refine and_congr_right fun _ => ?_
      have hKeys := rankedCandidates_keys hSound (pubkeyPart selfId) tree.candidateLimit
      have hFirst : firstHubs tree.hubs (pubkeyPart selfId) tree.candidateLimit =
          firstHubs tree.hubs selfId tree.candidateLimit := by
        unfold firstHubs
        rw [hSelf]
      rw [← hFirst, ← hKeys, List.mem_map, Bool.and_eq_true, List.any_eq_true]
      simp only [beq_iff_eq, ne_eq, decide_not, Bool.not_eq_true', decide_eq_false_iff_not]
      refine ⟨fun h => h.2, fun h => ⟨fun hSame => ?_, h⟩⟩
      have hMem : pubkeyPart peer ∈
          firstHubs tree.hubs (pubkeyPart selfId) tree.candidateLimit := by
        rw [← hKeys]
        exact List.mem_map.mpr h
      have hIn := mem_sortedBy.mp (List.mem_of_mem_take hMem)
      rw [map_pubkeyPart hSound, hSame, ← isHub_iff_mem hSound hSelf, hHub] at hIn
      simp at hIn

end HubTreeSelector

/-! ## The edges of the hub tier -/

namespace HubsSelector

theorem rankedHubsPrefix_keys (self : HubsSelector) (spoke : String) (limit : Nat) :
    (self.rankedHubsPrefix spoke limit).map RankedHub.key = firstHubs self.hubs spoke limit := by
  have hScan := scan_keys (pubkeyPart spoke) limit (fun _ => false) self.hubs
  simp only [Bool.not_false, List.filter_true] at hScan
  exact hScan

theorem spokeSelectsHub_iff {self : HubsSelector} {spoke hub : String} :
    self.spokeSelectsHub spoke hub = true ↔
      pubkeyPart hub ∈ firstHubs self.hubs spoke (max self.spokeRedundancy 1) := by
  rw [← rankedHubsPrefix_keys, spokeSelectsHub, List.any_eq_true, List.mem_map]
  simp only [beq_iff_eq]

theorem edge_symm (self : HubsSelector) (a b : String) : self.edge a b = self.edge b a := by
  unfold edge
  by_cases hSame : pubkeyPart a = pubkeyPart b
  · rw [if_pos hSame, if_pos hSame.symm]
  · rw [if_neg hSame, if_neg (Ne.symm hSame)]
    cases self.isHub a <;> cases self.isHub b <;> rfl

theorem mem_selectPreferred (self : HubsSelector) (selfId peer : String) (peers : List String) :
    peer ∈ self.selectPreferred selfId peers ↔ peer ∈ peers ∧ self.edge selfId peer = true := by
  unfold selectPreferred
  rw [List.mem_filter]
  refine and_congr_right fun _ => ?_
  unfold edge
  by_cases hSame : pubkeyPart peer = pubkeyPart selfId
  · rw [if_pos hSame, if_pos hSame.symm]
  · rw [if_neg hSame, if_neg (Ne.symm hSame)]
    cases self.isHub selfId <;> cases self.isHub peer <;>
      simp [hubsFor, spokeSelectsHub, List.any_map, Function.comp_def]

/-- A spoke has the edges to the hubs it ranks first. -/
theorem spoke_edge_iff {self : HubsSelector} {spoke hub : String}
    (hSpoke : self.isHub spoke = false) (hHub : hub ∈ self.hubs) : self.edge spoke hub = true ↔
      pubkeyPart hub ∈ firstHubs self.hubs spoke (max self.spokeRedundancy 1) := by
  have hIs : self.isHub hub = true := List.any_eq_true.mpr ⟨hub, hHub, by simp⟩
  have hNe : pubkeyPart spoke ≠ pubkeyPart hub := fun hSame => by
    unfold isHub at hSpoke hIs
    rw [hSame, hIs] at hSpoke
    simp at hSpoke
  unfold edge
  rw [if_neg hNe, hSpoke, hIs]
  exact spokeSelectsHub_iff

end HubsSelector

/-- **Edges are consistent**, in every hub tier and in every hub tree that the check
accepts: the two ends agree, nobody is its own neighbour, frames flow where connections
exist, and a spoke or leaf has as many hubs as its redundancy asks for. -/
theorem topology_edges_consistent [DeviceKeys] :
    (∀ (hubs : List String) (redundancy : Option Nat),
      (∀ a b, (HubsSelector.fromMode hubs redundancy).edge a b =
        (HubsSelector.fromMode hubs redundancy).edge b a) ∧
      (∀ a b, pubkeyPart a = pubkeyPart b →
        (HubsSelector.fromMode hubs redundancy).edge a b = false) ∧
      (∀ selfId peers peer,
        peer ∈ (HubsSelector.fromMode hubs redundancy).selectPreferred selfId peers ↔
          peer ∈ peers ∧ (HubsSelector.fromMode hubs redundancy).edge selfId peer = true) ∧
      ∀ spoke, (HubsSelector.fromMode hubs redundancy).isHub spoke = false →
        ((hubs.filter ((HubsSelector.fromMode hubs redundancy).edge spoke)).map
          pubkeyPart).dedup.length =
            min (max (redundancy.getD 2) 1) (hubs.map pubkeyPart).dedup.length) ∧
    ∀ tree : HubTreeSelector, validateTopology tree = .ok () →
      (∀ a b, tree.edge a b = tree.edge b a) ∧
      (∀ a b, pubkeyPart a = pubkeyPart b → tree.edge a b = false) ∧
      (∀ selfId peers, IsId selfId → ∀ peer, IsId peer →
        (peer ∈ tree.selectPreferred selfId peers ↔
          peer ∈ peers ∧ tree.edge selfId peer = true)) ∧
      ∀ leaf, IsId leaf → tree.isRoot (pubkeyPart leaf) = false →
        tree.isHub (pubkeyPart leaf) = false →
        ((tree.hubs.filter (tree.edge leaf)).map pubkeyPart).dedup.length =
          min (tree.backupCandidates + 1) (tree.hubs.map pubkeyPart).dedup.length := by
  refine ⟨fun hubs redundancy => ⟨HubsSelector.edge_symm _, fun a b hSame => ?_,
    fun selfId peers peer => HubsSelector.mem_selectPreferred _ selfId peer peers,
    fun spoke hSpoke => ?_⟩, fun tree hValid => ?_⟩
  · rw [HubsSelector.edge, if_pos hSame]
  · have hCount := count_firstHubs
      fun hub (hHub : hub ∈ (HubsSelector.fromMode hubs redundancy).hubs) =>
        HubsSelector.spoke_edge_iff hSpoke hHub
    exact hCount.trans (by simp [HubsSelector.fromMode])
  · have hSound := validateTopology_sound hValid
    refine ⟨tree.edge_symm, fun a b hSame => ?_, fun selfId peers hSelf peer hPeer =>
      HubTreeSelector.mem_selectPreferred hSound hSelf hPeer peers,
      fun leaf hLeaf hRoot hNotHub => ?_⟩
    · rw [HubTreeSelector.edge, if_pos hSame]
    · rw [count_firstHubs fun hub hHub => HubTreeSelector.leaf_edge_iff hSound hLeaf
        (by rw [IsId, hSound.key hub hHub, hSound.key hub hHub]) hRoot hNotHub,
        HubTreeSelector.map_pubkeyPart hSound, hSound.nodup.dedup, HubTreeSelector.candidateLimit]
      omega

end Candidates

def sampleEdgeTree : HubTreeSelector := ⟨"r", ["h", "i"], 0⟩

/-- A leaf of the tree has one hub, and both ends see the edge. -/
theorem topology_edges_consistent_leaf :
    let _ : DeviceKeys := ⟨fun _ => true⟩
    let _ : Rendezvous := ⟨String.length⟩
    validateTopology sampleEdgeTree = .ok () ∧
    ((sampleEdgeTree.hubs.filter (sampleEdgeTree.edge "a-12345")).map pubkeyPart).dedup.length = 1 ∧
      sampleEdgeTree.edge "a-12345" "h" = sampleEdgeTree.edge "h" "a-12345" := by
  let _ : DeviceKeys := ⟨fun _ => true⟩
  let _ : Rendezvous := ⟨String.length⟩
  have hValid : validateTopology sampleEdgeTree = .ok () := by decide +kernel
  obtain ⟨hSymm, -, -, hCount⟩ := topology_edges_consistent.2 sampleEdgeTree hValid
  refine ⟨hValid, ?_, hSymm _ _⟩
  rw [hCount "a-12345" (show _ = _ by decide +kernel) (by decide +kernel) (by decide +kernel)]
  decide +kernel

end MyOwnMesh.Topology
