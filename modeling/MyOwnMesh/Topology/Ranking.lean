import Mathlib.Data.Prod.Lex
import Mathlib.Data.Finset.Max
import MyOwnMesh.Foundation.SortedBy
import MyOwnMesh.Topology.Selector

/-!
# The best hub of a leaf

Every node ranks hubs by the same order, so two nodes that rank the hubs for the
same leaf agree on its best one as long as both are connected to it. The scans of
the selectors all put the best candidate they see first.
-/

namespace MyOwnMesh.Topology

open Foundation

/-! ## Public keys -/

/-- A public key: no dash, so no display suffix. -/
def IsKey (key : String) : Prop := '-' ∉ key.toList

theorem rsplitOnce_eq_none {sep : Char} {l : List Char} (h : sep ∉ l) :
    rsplitOnce sep l = none := by
  induction l with
  | nil => rfl
  | cons c rest ih =>
    rw [List.mem_cons, not_or] at h
    simp [rsplitOnce, ih h.2, Ne.symm h.1]

@[simp] theorem pubkeyPart_of_isKey {key : String} (h : IsKey key) : pubkeyPart key = key := by
  unfold pubkeyPart
  rw [rsplitOnce_eq_none h]

/-! ## Spellings -/

/-- A spelling of a key is one of the connected ids. -/
theorem pubkeyPart_of_connectedSpelling {key peer : String} {connected : List String}
    (h : HubTreeSelector.connectedSpelling key connected = some peer) : pubkeyPart peer = key := by
  have hMem := List.min?_mem h
  simpa using (List.mem_filter.mp hMem).2

theorem connectedSpelling_eq_none {key : String} {connected : List String} :
    HubTreeSelector.connectedSpelling key connected = none ↔
      ¬∃ peer ∈ connected, pubkeyPart peer = key := by
  unfold HubTreeSelector.connectedSpelling
  simp [List.min?_eq_none_iff, List.filter_eq_nil_iff]

/-! ## The rank of a hub -/

/-- Where a hub stands for a leaf: by falling score, then by key. -/
def rankFor [Rendezvous] (leaf key : String) : Natᵒᵈ ×ₗ String :=
  toLex (OrderDual.toDual (rendezvousScore leaf key), key)

def RankedHub.rank (hub : RankedHub) : Natᵒᵈ ×ₗ String :=
  toLex (OrderDual.toDual hub.score, hub.key)

theorem rankedOrder_eq_lt (left right : RankedHub) :
    rankedOrder left right = .lt ↔ left.rank < right.rank := by
  unfold rankedOrder RankedHub.rank
  rw [Ordering.then_eq_lt, compare_lt_iff_lt, compare_eq_iff_eq, compare_lt_iff_lt,
    Prod.Lex.toLex_lt_toLex]
  simp only [OrderDual.toDual_lt_toDual, OrderDual.toDual_inj, eq_comm]

section Ranks

variable [Rendezvous]

variable {best dest key leaf : String}

theorem rankFor_inj {other : String} (h : rankFor leaf key = rankFor leaf other) : key = other := by
  have hPair := toLex_inj.mp h
  exact (Prod.mk.inj hPair).2

theorem rankFor_injective (leaf : String) : Function.Injective (rankFor leaf) :=
  fun _ _ h => rankFor_inj h

variable {seen : List (Natᵒᵈ ×ₗ String)}

/-- An entry whose rank a leaf gave is fixed by its key. -/
theorem rank_eq_of_key {hub : RankedHub} (hSeen : ∀ b ∈ seen, ∃ key, b = rankFor leaf key)
    (hHub : hub.rank ∈ seen) : hub.rank = rankFor leaf hub.key := by
  obtain ⟨key, hRank⟩ := hSeen _ hHub
  have hKey : hub.key = key := (Prod.mk.inj (toLex_inj.mp hRank)).2
  rw [hRank, hKey]

variable {limit : Nat}

theorem ranked_retain {ranked : List RankedHub} (hLimit : 1 ≤ limit)
    (hSeen : ∀ b ∈ seen, ∃ key, b = rankFor leaf key)
    (h : TopRanked RankedHub.rank limit seen ranked) :
    TopRanked RankedHub.rank limit (seen ++ [rankFor leaf key])
      (HubTreeSelector.retainRanked ranked ⟨rendezvousScore leaf key, key⟩ limit) := by
  unfold HubTreeSelector.retainRanked
  split
  · next hKnown =>
      obtain ⟨hub, hHub, hKey⟩ := List.any_eq_true.mp hKnown
      simp only [beq_iff_eq] at hKey
      refine h.skip ⟨rendezvousScore leaf key, key⟩ hHub ?_
      rw [rank_eq_of_key hSeen (h.drawn hub hHub), hKey]
      rfl
  · next hNew =>
      refine h.insert rankedOrder ⟨rendezvousScore leaf key, key⟩ rankedOrder_eq_lt hLimit
        fun hub hHub hRank => ?_
      have hKey : hub.key = key := (Prod.mk.inj (toLex_inj.mp hRank)).2
      exact hNew (List.any_eq_true.mpr ⟨hub, hHub, by simp [hKey]⟩)

/-- The scan of a list of hubs, of which some are skipped. -/
theorem ranked_scan (leaf : String) (hLimit : 1 ≤ limit) (skips : String → Bool)
    (hubs : List String) :
    TopRanked RankedHub.rank limit
      (hubs.flatMap fun hub => if skips hub then [] else [rankFor leaf (pubkeyPart hub)])
      (hubs.foldl (fun ranked configured =>
        if skips configured then ranked
        else HubTreeSelector.retainRanked ranked
          ⟨rendezvousScore leaf (pubkeyPart configured), pubkeyPart configured⟩ limit) []) := by
  refine foldl_seen (fun b => ∃ key, b = rankFor leaf key) ?_ hubs (TopRanked.nil _ _) ?_
  · intro hub b hb
    split at hb
    · cases hb
    · exact ⟨_, List.mem_singleton.mp hb⟩
  · intro hub _ seen ranked hSeen h
    cases skips hub with
    | true => simpa using h
    | false => exact ranked_retain hLimit hSeen h

/-- **A scan keeps the first hubs of the order.** -/
theorem scan_keys (leaf : String) (limit : Nat) (skips : String → Bool) (hubs : List String) :
    (hubs.foldl (fun ranked configured =>
        if skips configured then ranked
        else HubTreeSelector.retainRanked ranked
          ⟨rendezvousScore leaf (pubkeyPart configured), pubkeyPart configured⟩ limit) []).map
      RankedHub.key =
    (sortedBy (rankFor leaf) ((hubs.filter fun hub => !skips hub).map pubkeyPart)).take limit := by
  cases limit with
  | zero =>
    have hNone (l : List String) : l.foldl (fun ranked configured =>
        if skips configured then ranked
        else HubTreeSelector.retainRanked ranked
          ⟨rendezvousScore leaf (pubkeyPart configured), pubkeyPart configured⟩ 0) [] = [] := by
      induction l with
      | nil => rfl
      | cons hub rest ih => simp [HubTreeSelector.retainRanked, insertBounded]
    rw [hNone, List.take_zero, List.map_nil]
  | succ limit =>
    have hSeen (l : List String) : (l.flatMap fun hub =>
        if skips hub then [] else [rankFor leaf (pubkeyPart hub)]) =
          ((l.filter fun hub => !skips hub).map pubkeyPart).map (rankFor leaf) := by
      induction l with
      | nil => rfl
      | cons hub rest ih => cases hSkip : skips hub <;> simp [hSkip, ih]
    have hScan := ranked_scan leaf (Nat.succ_pos limit) skips hubs
    rw [hSeen] at hScan
    refine hScan.map_key (rankFor_injective leaf) fun hub hHub => ?_
    refine rank_eq_of_key (fun b hb => ?_) (hScan.drawn hub hHub)
    obtain ⟨key, -, rfl⟩ := List.mem_map.mp hb
    exact ⟨key, rfl⟩

/-- The hub every scan for the leaf puts first. -/
structure IsBest (leaf : String) (hubs : List String) (best : String) : Prop where
  mem : best ∈ hubs.map pubkeyPart
  le : ∀ hub ∈ hubs, rankFor leaf best ≤ rankFor leaf (pubkeyPart hub)

theorem exists_isBest (leaf : String) {hubs : List String} (h : hubs ≠ []) :
    ∃ best, IsBest leaf hubs best := by
  obtain ⟨hub, hHub⟩ := List.exists_mem_of_ne_nil hubs h
  obtain ⟨best, hBest, hLe⟩ := (hubs.map pubkeyPart).toFinset.exists_min_image (rankFor leaf)
    ⟨pubkeyPart hub, List.mem_toFinset.mpr (List.mem_map_of_mem hHub)⟩
  exact ⟨best, List.mem_toFinset.mp hBest, fun other hOther =>
    hLe _ (List.mem_toFinset.mpr (List.mem_map_of_mem hOther))⟩

/-- A scan that does not skip the best hub puts it first. -/
theorem IsBest.head_scan {hubs : List String} (h : IsBest leaf hubs best) (hLimit : 1 ≤ limit)
    (skips : String → Bool) (hKept : ∀ hub ∈ hubs, pubkeyPart hub = best → skips hub = false) :
    ∃ entry ∈ (hubs.foldl (fun ranked configured =>
        if skips configured then ranked
        else HubTreeSelector.retainRanked ranked
          ⟨rendezvousScore leaf (pubkeyPart configured), pubkeyPart configured⟩ limit) []).head?,
      entry.key = best := by
  obtain ⟨own, hOwn, hKey⟩ := List.mem_map.mp h.mem
  have hSeen : rankFor leaf best ∈
      hubs.flatMap fun hub => if skips hub then [] else [rankFor leaf (pubkeyPart hub)] :=
    List.mem_flatMap.mpr ⟨own, hOwn, by simp [hKept own hOwn hKey, hKey]⟩
  obtain ⟨entry, hHead, hRank⟩ := (ranked_scan leaf hLimit skips hubs).head hSeen fun c hc => by
    obtain ⟨hub, hHub, hc⟩ := List.mem_flatMap.mp hc
    split at hc
    · cases hc
    · rw [List.mem_singleton.mp hc]
      exact h.le hub hHub
  exact ⟨entry, hHead, (Prod.mk.inj (toLex_inj.mp hRank)).2⟩

variable {self : HubsSelector}

/-- A spoke selects its best hub. -/
theorem spokeSelectsHub_best {spoke : String} (hSpoke : IsKey spoke) (hKey : IsKey best)
    (h : IsBest spoke self.hubs best) : self.spokeSelectsHub spoke best = true := by
  obtain ⟨entry, hHead, hEntry⟩ := h.head_scan (le_max_right self.spokeRedundancy 1)
    (fun _ => false) fun _ _ _ => rfl
  unfold HubsSelector.spokeSelectsHub HubsSelector.rankedHubsPrefix
  rw [List.any_eq_true, pubkeyPart_of_isKey hSpoke, pubkeyPart_of_isKey hKey]
  exact ⟨entry, List.mem_of_mem_head? hHead, by simp [hEntry]⟩

/-! ## The next hops of the hub tier -/

/-- The rank of a hop: the destination first. -/
def RankedCandidate.rank (hop : RankedCandidate) : Boolᵒᵈ ×ₗ (Natᵒᵈ ×ₗ String) :=
  toLex (OrderDual.toDual hop.direct, toLex (OrderDual.toDual hop.score, hop.key))

/-- The rank of a hub as a hop to a destination. -/
def hopRank (self : HubsSelector) (dest key : String) : Boolᵒᵈ ×ₗ (Natᵒᵈ ×ₗ String) :=
  toLex (OrderDual.toDual (self.isHub dest && key == dest), rankFor dest key)

omit [Rendezvous] in
theorem routeCandidateOrder_eq_lt (left right : RankedCandidate) :
    HubsSelector.routeCandidateOrder left right = .lt ↔ left.rank < right.rank := by
  unfold HubsSelector.routeCandidateOrder RankedCandidate.rank
  rw [Ordering.then_eq_lt, Ordering.then_eq_lt, compare_lt_iff_lt, compare_eq_iff_eq,
    compare_lt_iff_lt, compare_eq_iff_eq, compare_lt_iff_lt, Prod.Lex.toLex_lt_toLex,
    Prod.Lex.toLex_lt_toLex]
  simp only [OrderDual.toDual_lt_toDual, OrderDual.toDual_inj, eq_comm]

theorem hop_key (self : HubsSelector) (dest : String) {hop : RankedCandidate}
    (h : hop.rank = hopRank self dest key) : hop.key = key :=
  (Prod.mk.inj (toLex_inj.mp (Prod.mk.inj (toLex_inj.mp h)).2)).2

variable {target : Nat} {hops : List RankedCandidate}

/-- One connected hub of the scan. -/
theorem ranked_addCandidate {peer : String} {seen : List (Boolᵒᵈ ×ₗ (Natᵒᵈ ×ₗ String))}
    (hTarget : 1 ≤ target) (hSeen : ∀ b ∈ seen, ∃ key, b = hopRank self dest key)
    (h : TopRanked RankedCandidate.rank target seen hops) :
    TopRanked RankedCandidate.rank target (seen ++ [hopRank self dest key])
      (HubsSelector.addCandidate target hops
        ⟨self.isHub dest && key == dest, rendezvousScore dest key, key, peer⟩) := by
  unfold HubsSelector.addCandidate
  split
  · next hKnown =>
      obtain ⟨hop, hHop, hKey⟩ := List.any_eq_true.mp hKnown
      simp only [beq_iff_eq] at hKey
      obtain ⟨other, hRank⟩ := hSeen _ (h.drawn hop hHop)
      have hSkip := h.skip ⟨self.isHub dest && key == dest, rendezvousScore dest key, key, peer⟩
        hHop (by rw [hRank, ← hop_key self dest hRank, hKey]; rfl)
      apply hSkip.congr
      rw [List.map_map]
      apply List.map_congr_left
      intro hop _
      dsimp only [Function.comp]
      split <;> rfl
  · next hNew =>
      refine h.insert HubsSelector.routeCandidateOrder
        ⟨self.isHub dest && key == dest, rendezvousScore dest key, key, peer⟩
        routeCandidateOrder_eq_lt hTarget fun hop hHop hRank => ?_
      have hKey : hop.key = key := hop_key self dest hRank
      exact hNew (List.any_eq_true.mpr ⟨hop, hHop, by simp [hKey]⟩)

omit [Rendezvous] in
/-- A hop is spelled by one of the connected ids of its key. -/
theorem addCandidate_spelled {hop : RankedCandidate} (hHops : ∀ x ∈ hops, pubkeyPart x.peer = x.key)
    (hHop : pubkeyPart hop.peer = hop.key) :
    ∀ x ∈ HubsSelector.addCandidate target hops hop, pubkeyPart x.peer = x.key := by
  intro x hx
  unfold HubsSelector.addCandidate at hx
  split at hx
  · obtain ⟨y, hy, rfl⟩ := List.mem_map.mp hx
    split
    · next hSame => rw [hHop, hSame.1]
    · exact hHops y hy
  · rcases mem_insertBounded hx with hx | rfl
    · exact hHops x hx
    · exact hHop

/-- A best hub is the best hop among hubs that are not the destination. -/
theorem IsBest.hopRank_le {hub : String} (h : IsBest dest self.hubs best) (hBest : best ≠ dest)
    (hHub : hub ∈ self.hubs.map pubkeyPart) (hNe : hub ≠ dest) :
    hopRank self dest best ≤ hopRank self dest hub := by
  obtain ⟨configured, hConfigured, rfl⟩ := List.mem_map.mp hHub
  unfold hopRank
  rw [beq_eq_false_iff_ne.mpr hBest, beq_eq_false_iff_ne.mpr hNe, Prod.Lex.toLex_le_toLex]
  exact .inr ⟨rfl, h.le configured hConfigured⟩

/-- The connected hubs a node may hop to. -/
def hopRanks (self : HubsSelector) (source dest peer : String) :
    List (Boolᵒᵈ ×ₗ (Natᵒᵈ ×ₗ String)) :=
  if pubkeyPart peer = source ∨ self.isHub (pubkeyPart peer) = false then []
  else [hopRank self dest (pubkeyPart peer)]

/-- One connected peer of the scan for next hops. -/
def hopStep (self : HubsSelector) (source dest : String) (target : Nat)
    (hops : List RankedCandidate) (peer : String) : List RankedCandidate :=
  if pubkeyPart peer = source ∨ self.isHub (pubkeyPart peer) = false then hops
  else
    HubsSelector.addCandidate target hops
      ⟨self.isHub dest && pubkeyPart peer == dest, rendezvousScore dest (pubkeyPart peer),
        pubkeyPart peer, peer⟩

theorem nextHops_eq {source : String} {connected : List String}
    (hSource : pubkeyPart source = source) (hDest : pubkeyPart dest = dest)
    (hKeys : ∀ peer ∈ connected, pubkeyPart (pubkeyPart peer) = pubkeyPart peer)
    (hTarget : 1 ≤ min limit self.spokeRedundancy) :
    self.nextHops source dest connected limit =
      (connected.foldl (hopStep self source dest (min limit self.spokeRedundancy)) []).map
        RankedCandidate.peer := by
  unfold HubsSelector.nextHops
  dsimp only
  rw [if_neg (by omega), hSource, hDest]
  congr 1
  apply List.foldl_ext
  intro hops peer hPeer
  have hKey := hKeys peer hPeer
  unfold hopStep
  by_cases hSelf : pubkeyPart peer = source
  · rw [if_pos hSelf, if_pos (.inl hSelf)]
  · have hScore : self.configuredHubScore dest (pubkeyPart peer) =
        if self.isHub (pubkeyPart peer) then some (rendezvousScore dest (pubkeyPart peer))
        else none := by
      unfold HubsSelector.configuredHubScore HubsSelector.isHub
      rw [hKey]
    rw [if_neg hSelf, hScore]
    cases hHub : self.isHub (pubkeyPart peer) with
    | true => simp [hSelf]
    | false => simp

/-- The scan keeps the best connected hubs, each under one of its spellings. -/
theorem hopStep_ranked (self : HubsSelector) (source dest : String) (hTarget : 1 ≤ target)
    (connected : List String) :
    TopRanked RankedCandidate.rank target (connected.flatMap (hopRanks self source dest))
        (connected.foldl (hopStep self source dest target) []) := by
  refine foldl_seen (fun b => ∃ key, b = hopRank self dest key) ?_ connected (TopRanked.nil _ _) ?_
  · intro peer b hb
    unfold hopRanks at hb
    split at hb
    · cases hb
    · exact ⟨_, List.mem_singleton.mp hb⟩
  · intro peer _ seen hops hSeen h
    unfold hopRanks hopStep
    by_cases hSkip : pubkeyPart peer = source ∨ self.isHub (pubkeyPart peer) = false
    · rw [if_pos hSkip, if_pos hSkip, List.append_nil]
      exact h
    · rw [if_neg hSkip, if_neg hSkip]
      exact ranked_addCandidate hTarget hSeen h

theorem hopStep_spelled (self : HubsSelector) (source dest : String) (target : Nat)
    (connected : List String) :
    ∀ hop ∈ connected.foldl (hopStep self source dest target) [],
      pubkeyPart hop.peer = hop.key := by
  apply List.foldlRecOn
    (motive := fun hops : List RankedCandidate => ∀ hop ∈ hops, pubkeyPart hop.peer = hop.key)
  · simp
  · intro hops hHops peer _
    unfold hopStep
    split
    · exact hHops
    · exact addCandidate_spelled hHops rfl

end Ranks

end MyOwnMesh.Topology
