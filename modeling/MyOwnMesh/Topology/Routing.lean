import MyOwnMesh.Topology.Ranking

/-!
# Static routing delivers

A network whose nodes are connected exactly along the edges of a selector. A node
hands a frame to the destination when it is connected to it, and otherwise to the
first next hop. For the star, the hub tier and the hub tree the frame arrives after
at most four sends and visits no node twice: the hop of each role is the best hub
of the leaf in question, or the root, or the destination.
-/

namespace MyOwnMesh.Topology

open Foundation

variable [Rendezvous]

/-! ## Networks and routes -/

/-- The selectors that route along configured hubs. -/
inductive Selector where
  | star (selector : StarSelector)
  | hubs (selector : HubsSelector)
  | hubTree (selector : HubTreeSelector)

namespace Selector

def edge (selector : Selector) (a b : String) : Bool :=
  match selector with
  | .star selector => selector.edge a b
  | .hubs selector => selector.edge a b
  | .hubTree selector => selector.edge a b

def nextHops (selector : Selector) (selfId dest : String) (connected : List String)
    (limit : Nat) : List String :=
  match selector with
  | .star selector => selector.nextHops selfId dest connected limit
  | .hubs selector => selector.nextHops selfId dest connected limit
  | .hubTree selector => selector.nextHops selfId dest connected limit

/-- An edge is between keys, however they are spelled. -/
theorem edge_pubkeyPart (selector : Selector) (a b : String) (ha : IsKey (pubkeyPart a))
    (hb : IsKey (pubkeyPart b)) :
    selector.edge a b = selector.edge (pubkeyPart a) (pubkeyPart b) := by
  cases selector with
  | star selector => simp [edge, StarSelector.edge, ha, hb]
  | hubs selector =>
    simp [edge, HubsSelector.edge, HubsSelector.isHub, HubsSelector.spokeSelectsHub,
      HubsSelector.rankedHubsPrefix, ha, hb]
  | hubTree selector => simp [edge, HubTreeSelector.edge, ha, hb]

/-- A next hop is chosen by the keys, however they are spelled. -/
theorem nextHops_pubkeyPart (selector : Selector) (selfId dest : String) (connected : List String)
    (limit : Nat) (hSelf : IsKey (pubkeyPart selfId)) (hDest : IsKey (pubkeyPart dest)) :
    selector.nextHops selfId dest connected limit =
      selector.nextHops (pubkeyPart selfId) (pubkeyPart dest) connected limit := by
  cases selector with
  | star selector => simp [nextHops, StarSelector.nextHops, hSelf]
  | hubs selector => simp [nextHops, HubsSelector.nextHops, hSelf, hDest]
  | hubTree selector => simp [nextHops, HubTreeSelector.nextHops, hSelf, hDest]

def configured : Selector → List String
  | .star selector => [selector.hub]
  | .hubs selector => selector.hubs
  | .hubTree selector => selector.root :: selector.hubs

/-- What the configuration check asks of the selector. -/
def Validated : Selector → Prop
  | .star _ => True
  | .hubs selector => selector.hubs ≠ [] ∧ 1 ≤ selector.spokeRedundancy
  | .hubTree selector => selector.hubs ≠ [] ∧
      ∀ hub ∈ selector.hubs, pubkeyPart hub ≠ pubkeyPart selector.root

end Selector

/-- Members, known by their public keys, connected exactly to their neighbours under
any spelling. The configured ids are members. -/
structure Network (selector : Selector) where
  member : String → Prop
  isKey : ∀ a, member a → IsKey a
  configured : ∀ id ∈ selector.configured, member (pubkeyPart id)
  selfId : String → String
  selfId_key : ∀ a, member a → pubkeyPart (selfId a) = a
  connected : String → List String
  links : ∀ a, member a → ∀ b, (∃ peer ∈ connected a, pubkeyPart peer = b) ↔
    member b ∧ b ≠ a ∧ selector.edge (selfId a) (selfId b) = true

namespace Network

variable {selector : Selector} (network : Network selector)

def Linked (a b : String) : Prop := ∃ peer ∈ network.connected a, pubkeyPart peer = b

/-- The links are the edges between the keys. -/
theorem linked_iff {network : Network selector} {a b : String} (ha : network.member a)
    (hb : network.member b) : network.Linked a b ↔ b ≠ a ∧ selector.edge a b = true := by
  have hEdge := selector.edge_pubkeyPart (network.selfId a) (network.selfId b)
  rw [network.selfId_key a ha, network.selfId_key b hb] at hEdge
  unfold Linked
  rw [network.links a ha b, hEdge (network.isKey a ha) (network.isKey b hb)]
  exact ⟨fun h => h.2, fun h => ⟨hb, h⟩⟩

/-- Where a node sends a frame: the destination, or the first next hop. -/
def forward (limit : String → Nat) (dest self : String) : Option String :=
  if (network.connected self).any fun peer => pubkeyPart peer == pubkeyPart dest then
    some (pubkeyPart dest)
  else
    (selector.nextHops (network.selfId self) dest (network.connected self)
      (limit self)).head?.map pubkeyPart

/-- The nodes a frame visits with at most the given number of sends. -/
def route (limit : String → Nat) (dest : String) : Nat → String → List String
  | 0, self => [self]
  | sends + 1, self =>
    if self = pubkeyPart dest then [self]
    else
      match network.forward limit dest self with
      | some next => self :: route limit dest sends next
      | none => [self]

section Routes

variable {network} {limit : String → Nat} {dest self next : String} {sends : Nat}

theorem forward_linked (h : network.Linked self (pubkeyPart dest)) :
    network.forward limit dest self = some (pubkeyPart dest) := by
  obtain ⟨peer, hPeer, hKey⟩ := h
  unfold forward
  rw [if_pos (List.any_eq_true.mpr ⟨peer, hPeer, by simp [hKey]⟩)]

/-- Without a link the first next hop decides. -/
theorem forward_hop (hSelf : network.member self) (hDest : network.member (pubkeyPart dest))
    (h : ¬network.Linked self (pubkeyPart dest)) :
    network.forward limit dest self = (selector.nextHops self (pubkeyPart dest)
      (network.connected self) (limit self)).head?.map pubkeyPart := by
  have hHops := selector.nextHops_pubkeyPart (network.selfId self) dest
    (network.connected self) (limit self)
  rw [network.selfId_key self hSelf] at hHops
  unfold forward
  rw [if_neg, hHops (network.isKey self hSelf) (network.isKey _ hDest)]
  intro hAny
  obtain ⟨peer, hPeer, hKey⟩ := List.any_eq_true.mp hAny
  exact h ⟨peer, hPeer, by simpa using hKey⟩

@[simp] theorem route_dest (sends : Nat) :
    network.route limit dest sends (pubkeyPart dest) = [pubkeyPart dest] := by
  cases sends with
  | zero => rfl
  | succ sends => simp [route]

theorem route_step (hSelf : self ≠ pubkeyPart dest)
    (h : network.forward limit dest self = some next) :
    network.route limit dest (sends + 1) self = self :: network.route limit dest sends next := by
  rw [route, if_neg hSelf, h]

end Routes

end Network

/-! ## The hub tree -/

namespace HubTreeSelector

variable {self : HubTreeSelector} {leaf best : String}

omit [Rendezvous] in
theorem one_le_candidateLimit (h : self.hubs ≠ []) : 1 ≤ self.candidateLimit := by
  have hLength := List.length_pos_iff.mpr h
  unfold candidateLimit
  omega

/-- A hub that no other beats is a candidate. -/
theorem candidateContains_best (hHubs : self.hubs ≠ []) (hLeaf : IsKey leaf) (hKey : IsKey best)
    (hRoot : self.isRoot best = false) (h : IsBest leaf self.hubs best) :
    self.candidateContains leaf best = true := by
  have hGo (hubs : List String) (hSub : ∀ hub ∈ hubs, hub ∈ self.hubs) (found : Bool) :
      candidateContains.go self leaf best hubs 0 found =
        (found || hubs.any fun hub => pubkeyPart hub == best) := by
    induction hubs generalizing found with
    | nil => simp [candidateContains.go]
    | cons hub rest ih =>
      have hRest := ih fun other hOther => hSub other (List.mem_cons_of_mem hub hOther)
      have hLe := h.le hub (hSub hub List.mem_cons_self)
      -- no hub is better than the best
      have hNot : ¬(rendezvousScore leaf best < rendezvousScore leaf (pubkeyPart hub) ∨
          (rendezvousScore leaf (pubkeyPart hub) = rendezvousScore leaf best ∧
            pubkeyPart hub < best)) := by
        intro hBetter
        apply not_lt_of_ge hLe
        unfold rankFor
        rw [Prod.Lex.toLex_lt_toLex]
        simpa using hBetter
      unfold candidateContains.go
      simp only [pubkeyPart_of_isKey hLeaf, pubkeyPart_of_isKey hKey, if_neg hNot, hRest,
        List.any_cons]
      by_cases hSame : pubkeyPart hub = best
      · simp [hSame, hRoot]
      · simp [hSame, beq_eq_false_iff_ne.mpr hSame]
  unfold candidateContains
  have hLimit := one_le_candidateLimit hHubs
  rw [if_neg (by omega), hGo self.hubs (fun _ hHub => hHub), Bool.false_or, List.any_eq_true]
  obtain ⟨hub, hHub, hSame⟩ := List.mem_map.mp h.mem
  exact ⟨hub, hHub, by simp [hSame]⟩

/-- The first ranked connected hub is the best one, if it is connected. -/
theorem head_ranked_best {connected : List String} {limit : Nat} (hHubs : self.hubs ≠ [])
    (hLeaf : IsKey leaf) (hRoot : self.isRoot best = false) (h : IsBest leaf self.hubs best)
    (hConnected : ∃ peer ∈ connected, pubkeyPart peer = best) (hLimit : 1 ≤ limit) :
    ∃ peer ∈ (appendRankedConnected (self.rankedConnectedCandidates leaf connected
      (min self.candidateLimit limit)) connected limit).head?, pubkeyPart peer = best := by
  have hBound : 1 ≤ min self.candidateLimit limit :=
    le_min (one_le_candidateLimit hHubs) hLimit
  obtain ⟨entry, hHead, hEntry⟩ := h.head_scan hBound
    (fun hub => self.isRoot (pubkeyPart hub) ∨
      (connectedSpelling (pubkeyPart hub) connected).isNone) fun hub _ hSame => by
    simp [hSame, hRoot, Option.isNone_iff_eq_none, connectedSpelling_eq_none, hConnected]
  have hRanked : entry ∈ (self.rankedConnectedCandidates leaf connected
      (min self.candidateLimit limit)).head? := by
    unfold rankedConnectedCandidates
    rw [pubkeyPart_of_isKey hLeaf]
    simpa only [decide_eq_true_eq] using hHead
  obtain ⟨peer, hPeer⟩ : ∃ peer, connectedSpelling entry.key connected = some peer := by
    apply Option.ne_none_iff_exists'.mp
    rw [Ne, connectedSpelling_eq_none, hEntry, not_not]
    exact hConnected
  refine ⟨peer, ?_, (pubkeyPart_of_connectedSpelling hPeer).trans hEntry⟩
  obtain ⟨rest, hCandidates⟩ := List.head?_eq_some_iff.mp hRanked
  obtain ⟨room, rfl⟩ := Nat.exists_eq_add_of_le' hLimit
  unfold appendRankedConnected
  rw [hCandidates, List.take_succ_cons, List.filterMap_cons]
  simp [hPeer]

end HubTreeSelector

omit [Rendezvous] in
/-- Nodes are different when one has a role that the other has not. -/
theorem ne_of_role {role : String → Bool} {a b : String} (ha : role a = true)
    (hb : role b = false) : a ≠ b := by
  rintro rfl
  rw [ha] at hb
  cases hb

namespace HubTreeSelector

variable {self : HubTreeSelector} {a b : String}

omit [Rendezvous] in
theorem isRoot_root (h : IsKey (pubkeyPart self.root)) : self.isRoot (pubkeyPart self.root) = true := by
  simp [isRoot, h]

omit [Rendezvous] in
theorem eq_root_of_isRoot (ha : IsKey a) (h : self.isRoot a = true) : a = pubkeyPart self.root := by
  simpa [isRoot, ha] using h

omit [Rendezvous] in
theorem isRoot_of_isHub (ha : IsKey a) (h : self.isHub a = true) : self.isRoot a = false := by
  simp only [isHub, pubkeyPart_of_isKey ha, Bool.and_eq_true, Bool.not_eq_true'] at h
  exact h.1

theorem edge_root_hub (ha : IsKey a) (hb : IsKey b) (hRoot : self.isRoot a = true)
    (hHub : self.isHub b = true) : self.edge a b = true ∧ self.edge b a = true := by
  have hbRoot := isRoot_of_isHub hb hHub
  have haHub : self.isHub a = false := by simp [isHub, ha, hRoot]
  have hNe : a ≠ b := ne_of_role hRoot hbRoot
  simp [edge, ha, hb, hNe, hNe.symm, hRoot, hHub, hbRoot, haHub]

/-- A leaf and a hub are connected if the hub is a candidate of the leaf. -/
theorem edge_leaf_hub (ha : IsKey a) (hb : IsKey b) (hRoot : self.isRoot a = false)
    (hLeaf : self.isHub a = false) (hHub : self.isHub b = true) :
    self.edge a b = self.candidateContains a b ∧ self.edge b a = self.candidateContains a b := by
  have hbRoot := isRoot_of_isHub hb hHub
  have hNe : a ≠ b := (ne_of_role hHub hLeaf).symm
  simp [edge, ha, hb, hNe, hNe.symm, hRoot, hHub, hbRoot, hLeaf]

end HubTreeSelector

section HubTree

variable {tree : HubTreeSelector} {network : Network (.hubTree tree)} {limit : String → Nat}
  {a best dest : String}

theorem tree_root_member (network : Network (.hubTree tree)) :
    network.member (pubkeyPart tree.root) :=
  network.configured _ List.mem_cons_self

theorem tree_best (network : Network (.hubTree tree)) (hValid : (Selector.hubTree tree).Validated)
    (h : IsBest a tree.hubs best) : network.member best ∧ tree.isHub best = true := by
  obtain ⟨hub, hHub, hKey⟩ := List.mem_map.mp h.mem
  have hMember : network.member best := by
    rw [← hKey]
    exact network.configured _ (List.mem_cons_of_mem _ hHub)
  have hRoot := hValid.2 hub hHub
  have hBest := network.isKey best hMember
  refine ⟨hMember, ?_⟩
  rw [hKey] at hRoot
  simp only [HubTreeSelector.isHub, HubTreeSelector.isRoot, pubkeyPart_of_isKey hBest,
    Bool.and_eq_true, Bool.not_eq_true', beq_eq_false_iff_ne]
  exact ⟨hRoot, List.any_eq_true.mpr ⟨hub, hHub, by simp [hKey]⟩⟩

/-- A leaf is connected to its best hub, and the hub to the leaf. -/
theorem tree_linked_best (hValid : (Selector.hubTree tree).Validated) (ha : network.member a)
    (hRoot : tree.isRoot a = false) (hLeaf : tree.isHub a = false)
    (h : IsBest a tree.hubs best) : network.Linked a best ∧ network.Linked best a := by
  obtain ⟨hMember, hHub⟩ := tree_best network hValid h
  have hKey := network.isKey a ha
  have hBestKey := network.isKey best hMember
  have hNe : best ≠ a := ne_of_role hHub hLeaf
  have hContains := HubTreeSelector.candidateContains_best hValid.1 hKey hBestKey
    (HubTreeSelector.isRoot_of_isHub hBestKey hHub) h
  obtain ⟨hDown, hUp⟩ := HubTreeSelector.edge_leaf_hub hKey hBestKey hRoot hLeaf hHub
  rw [Network.linked_iff ha hMember, Network.linked_iff hMember ha]
  exact ⟨⟨hNe, hDown.trans hContains⟩, ⟨hNe.symm, hUp.trans hContains⟩⟩

theorem tree_linked_root (ha : network.member a) (hHub : tree.isHub a = true) :
    network.Linked a (pubkeyPart tree.root) ∧ network.Linked (pubkeyPart tree.root) a := by
  have hMember := tree_root_member network
  have hKey := network.isKey a ha
  have hRootKey := network.isKey _ hMember
  have hRoot := HubTreeSelector.isRoot_root hRootKey
  have hNe : pubkeyPart tree.root ≠ a :=
    ne_of_role hRoot (HubTreeSelector.isRoot_of_isHub hKey hHub)
  obtain ⟨hDown, hUp⟩ := HubTreeSelector.edge_root_hub hRootKey hKey hRoot hHub
  rw [Network.linked_iff ha hMember, Network.linked_iff hMember ha]
  exact ⟨⟨hNe, hUp⟩, ⟨hNe.symm, hDown⟩⟩

theorem tree_leaf_forward (hValid : (Selector.hubTree tree).Validated)
    (hLimit : ∀ x, 1 ≤ limit x) (ha : network.member a)
    (hDest : network.member (pubkeyPart dest)) (hNe : a ≠ pubkeyPart dest)
    (hRoot : tree.isRoot a = false) (hLeaf : tree.isHub a = false)
    (hNot : ¬network.Linked a (pubkeyPart dest)) (h : IsBest a tree.hubs best) :
    network.forward limit dest a = some best := by
  have hKey := network.isKey a ha
  have hDestKey := network.isKey _ hDest
  have hPositive : limit a ≠ 0 := Nat.ne_of_gt (hLimit a)
  -- a candidate hub would be connected
  have hOther : (tree.isHub (pubkeyPart dest) && tree.candidateContains a (pubkeyPart dest)) =
      false := by
    by_contra hBoth
    simp only [Bool.not_eq_false, Bool.and_eq_true] at hBoth
    apply hNot
    rw [Network.linked_iff ha hDest]
    obtain ⟨hDown, -⟩ := HubTreeSelector.edge_leaf_hub hKey hDestKey hRoot hLeaf hBoth.1
    exact ⟨hNe.symm, hDown.trans hBoth.2⟩
  obtain ⟨hBestMember, hBestHub⟩ := tree_best network hValid h
  have hBestRoot := HubTreeSelector.isRoot_of_isHub (network.isKey best hBestMember) hBestHub
  obtain ⟨peer, hHead, hPeer⟩ := HubTreeSelector.head_ranked_best hValid.1 hKey hBestRoot h
    (tree_linked_best hValid ha hRoot hLeaf h).1 (hLimit a)
  rw [Network.forward_hop ha hDest hNot]
  simp only [Selector.nextHops, HubTreeSelector.nextHops, pubkeyPart_of_isKey hKey,
    pubkeyPart_of_isKey hDestKey, if_neg hPositive, if_neg hNe, hRoot, hLeaf, hOther,
    Bool.false_eq_true, if_false]
  rw [hHead, Option.map_some, hPeer]

theorem tree_hub_forward (hLimit : ∀ x, 1 ≤ limit x) (ha : network.member a)
    (hDest : network.member (pubkeyPart dest)) (hNe : a ≠ pubkeyPart dest)
    (hHub : tree.isHub a = true) (hNot : ¬network.Linked a (pubkeyPart dest)) :
    network.forward limit dest a = some (pubkeyPart tree.root) := by
  have hKey := network.isKey a ha
  have hDestKey := network.isKey _ hDest
  have hRoot := HubTreeSelector.isRoot_of_isHub hKey hHub
  have hPositive : limit a ≠ 0 := Nat.ne_of_gt (hLimit a)
  have hLinked := (tree_linked_root ha hHub).1
  have hDestRoot : tree.isRoot (pubkeyPart dest) = false := by
    by_contra hIsRoot
    rw [Bool.not_eq_false] at hIsRoot
    rw [HubTreeSelector.eq_root_of_isRoot hDestKey hIsRoot] at hNot
    exact hNot hLinked
  -- a leaf that ranks this hub would be connected
  have hOther : (!tree.isHub (pubkeyPart dest) && tree.candidateContains (pubkeyPart dest) a) =
      false := by
    by_contra hBoth
    simp only [Bool.not_eq_false, Bool.and_eq_true, Bool.not_eq_true'] at hBoth
    apply hNot
    rw [Network.linked_iff ha hDest]
    obtain ⟨-, hUp⟩ := HubTreeSelector.edge_leaf_hub hDestKey hKey hDestRoot hBoth.1 hHub
    exact ⟨hNe.symm, hUp.trans hBoth.2⟩
  obtain ⟨peer, hPeer⟩ : ∃ peer, HubTreeSelector.connectedSpelling (pubkeyPart tree.root)
      (network.connected a) = some peer := by
    apply Option.ne_none_iff_exists'.mp
    rw [Ne, connectedSpelling_eq_none, not_not]
    exact hLinked
  rw [Network.forward_hop ha hDest hNot]
  simp only [Selector.nextHops, HubTreeSelector.nextHops, pubkeyPart_of_isKey hKey,
    pubkeyPart_of_isKey hDestKey, if_neg hPositive, if_neg hNe, hRoot, hHub, hDestRoot, hOther,
    HubTreeSelector.rootOrConnectedHubs, hPeer, Bool.false_eq_true, if_false, if_true]
  rw [List.head?_cons, Option.map_some, pubkeyPart_of_connectedSpelling hPeer]

/-- A member that the root is not connected to is a leaf. -/
theorem tree_leaf_of_not_linked (ha : network.member a) (hNe : a ≠ pubkeyPart tree.root)
    (hNot : ¬network.Linked (pubkeyPart tree.root) a) :
    tree.isRoot a = false ∧ tree.isHub a = false := by
  constructor
  · by_contra hRoot
    rw [Bool.not_eq_false] at hRoot
    exact hNe (HubTreeSelector.eq_root_of_isRoot (network.isKey a ha) hRoot)
  · by_contra hHub
    rw [Bool.not_eq_false] at hHub
    exact hNot (tree_linked_root ha hHub).2

/-- The root sends to the best hub of the destination. -/
theorem tree_root_forward (hValid : (Selector.hubTree tree).Validated)
    (hLimit : ∀ x, 1 ≤ limit x) (hDest : network.member (pubkeyPart dest))
    (hNe : pubkeyPart tree.root ≠ pubkeyPart dest)
    (hNot : ¬network.Linked (pubkeyPart tree.root) (pubkeyPart dest))
    (h : IsBest (pubkeyPart dest) tree.hubs best) :
    network.forward limit dest (pubkeyPart tree.root) = some best := by
  have hMember := tree_root_member network
  have hKey := network.isKey _ hMember
  have hDestKey := network.isKey _ hDest
  have hRoot := HubTreeSelector.isRoot_root hKey
  obtain ⟨hDestRoot, hDestHub⟩ := tree_leaf_of_not_linked hDest hNe.symm hNot
  have hPositive : limit (pubkeyPart tree.root) ≠ 0 := Nat.ne_of_gt (hLimit (pubkeyPart tree.root))
  obtain ⟨hBestMember, hBestHub⟩ := tree_best network hValid h
  have hBestRoot := HubTreeSelector.isRoot_of_isHub (network.isKey best hBestMember) hBestHub
  obtain ⟨peer, hHead, hPeer⟩ := HubTreeSelector.head_ranked_best hValid.1 hDestKey hBestRoot h
    (tree_linked_root hBestMember hBestHub).2 (hLimit (pubkeyPart tree.root))
  rw [Network.forward_hop hMember hDest hNot]
  simp only [Selector.nextHops, HubTreeSelector.nextHops, pubkeyPart_of_isKey hKey,
    pubkeyPart_of_isKey hDestKey, if_neg hPositive, if_neg hNe, hRoot, hDestRoot, hDestHub,
    Bool.false_eq_true, if_false, if_true]
  rw [hHead, Option.map_some, hPeer]

/-- A route from the root goes to the destination, or there over its best hub. -/
theorem tree_route_root (hValid : (Selector.hubTree tree).Validated)
    (hLimit : ∀ x, 1 ≤ limit x) (hDest : network.member (pubkeyPart dest))
    (hNe : pubkeyPart tree.root ≠ pubkeyPart dest) (sends : Nat) :
    network.route limit dest (sends + 2) (pubkeyPart tree.root) =
        [pubkeyPart tree.root, pubkeyPart dest] ∨
      ∃ best, tree.isHub best = true ∧ network.member best ∧ best ≠ pubkeyPart dest ∧
        network.Linked best (pubkeyPart dest) ∧
        network.route limit dest (sends + 2) (pubkeyPart tree.root) =
          [pubkeyPart tree.root, best, pubkeyPart dest] := by
  by_cases hLinked : network.Linked (pubkeyPart tree.root) (pubkeyPart dest)
  · rw [Network.route_step hNe (Network.forward_linked hLinked), Network.route_dest]
    exact .inl rfl
  · obtain ⟨best, hBest⟩ := exists_isBest (pubkeyPart dest) hValid.1
    obtain ⟨hRoot, hLeaf⟩ := tree_leaf_of_not_linked hDest hNe.symm hLinked
    obtain ⟨hMember, hHub⟩ := tree_best network hValid hBest
    have hUp := (tree_linked_best hValid hDest hRoot hLeaf hBest).2
    have hBestNe : best ≠ pubkeyPart dest := ne_of_role hHub hLeaf
    refine .inr ⟨best, hHub, hMember, hBestNe, hUp, ?_⟩
    rw [Network.route_step hNe (tree_root_forward hValid hLimit hDest hNe hLinked hBest),
      Network.route_step hBestNe (Network.forward_linked hUp), Network.route_dest]

/-- A route from a hub arrives over the root; on the way it meets only hubs and the
root. -/
theorem tree_route_hub (hValid : (Selector.hubTree tree).Validated)
    (hLimit : ∀ x, 1 ≤ limit x) (ha : network.member a) (hHub : tree.isHub a = true)
    (hDest : network.member (pubkeyPart dest)) (hNe : a ≠ pubkeyPart dest) (sends : Nat) :
    (network.route limit dest (sends + 3) a).getLast? = some (pubkeyPart dest) ∧
      (network.route limit dest (sends + 3) a).Nodup ∧
      ∀ x ∈ network.route limit dest (sends + 3) a,
        x = pubkeyPart dest ∨ tree.isHub x = true ∨ tree.isRoot x = true := by
  have hRootKey := network.isKey _ (tree_root_member network)
  have hRoot := HubTreeSelector.isRoot_root hRootKey
  have hOff (hub : String) (hMember : network.member hub) (h : tree.isHub hub = true) :
      hub ≠ pubkeyPart tree.root :=
    (ne_of_role hRoot (HubTreeSelector.isRoot_of_isHub (network.isKey hub hMember) h)).symm
  by_cases hLinked : network.Linked a (pubkeyPart dest)
  · rw [Network.route_step hNe (Network.forward_linked hLinked), Network.route_dest]
    simp [hNe, hHub]
  · have hDestNe : pubkeyPart tree.root ≠ pubkeyPart dest := by
      intro hSame
      rw [← hSame] at hLinked
      exact hLinked (tree_linked_root ha hHub).1
    have haNe := hOff a ha hHub
    rw [Network.route_step hNe (tree_hub_forward hLimit ha hDest hNe hHub hLinked)]
    rcases tree_route_root hValid hLimit hDest hDestNe sends with
      hRoute | ⟨best, hBestHub, hMember, hBestNe, hUp, hRoute⟩
    · rw [hRoute]
      simp [hNe, hHub, hRoot, haNe, hDestNe]
    · have haBest : a ≠ best := by
        rintro rfl
        exact hLinked hUp
      rw [hRoute]
      simp [hNe, hHub, hRoot, haNe, hDestNe, hBestHub, hBestNe, haBest,
        (hOff best hMember hBestHub).symm]

/-- From a leaf up to its hub, over the root and down again. -/
theorem tree_delivers (hValid : (Selector.hubTree tree).Validated) (hLimit : ∀ x, 1 ≤ limit x)
    (ha : network.member a) (hDest : network.member (pubkeyPart dest))
    (hNe : a ≠ pubkeyPart dest) (hLinked : ¬network.Linked a (pubkeyPart dest)) :
    (network.route limit dest 4 a).getLast? = some (pubkeyPart dest) ∧
      (network.route limit dest 4 a).Nodup := by
  have hKey := network.isKey a ha
  have hRootKey := network.isKey _ (tree_root_member network)
  cases hRoot : tree.isRoot a with
  | true =>
    obtain rfl := HubTreeSelector.eq_root_of_isRoot hKey hRoot
    rcases tree_route_root hValid hLimit hDest hNe 2 with
      hRoute | ⟨best, hBestHub, hMember, hBestNe, -, hRoute⟩
    · rw [hRoute]
      simp [hNe]
    · have hBest : pubkeyPart tree.root ≠ best :=
        ne_of_role hRoot (HubTreeSelector.isRoot_of_isHub (network.isKey best hMember) hBestHub)
      rw [hRoute]
      simp [hNe, hBestNe, hBest]
  | false =>
    cases hHub : tree.isHub a with
    | true =>
      obtain ⟨hLast, hNodup, -⟩ := tree_route_hub hValid hLimit ha hHub hDest hNe 1
      exact ⟨hLast, hNodup⟩
    | false =>
      obtain ⟨best, hBest⟩ := exists_isBest a hValid.1
      obtain ⟨hMember, hBestHub⟩ := tree_best network hValid hBest
      have hDown := (tree_linked_best hValid ha hRoot hHub hBest).1
      have hBestNe : best ≠ pubkeyPart dest := by
        rintro rfl
        exact hLinked hDown
      obtain ⟨hLast, hNodup, hRoles⟩ :=
        tree_route_hub hValid hLimit hMember hBestHub hDest hBestNe 0
      rw [Network.route_step hNe
        (tree_leaf_forward hValid hLimit ha hDest hNe hRoot hHub hLinked hBest)]
      refine ⟨?_, List.nodup_cons.mpr ⟨fun hMem => ?_, hNodup⟩⟩
      · rw [List.getLast?_cons, hLast]
        rfl
      · rcases hRoles a hMem with hSame | hIs | hIs
        · exact hNe hSame
        · rw [hHub] at hIs
          cases hIs
        · rw [hRoot] at hIs
          cases hIs

end HubTree

/-! ## The star -/

section Star

variable {star : StarSelector} {network : Network (.star star)} {limit : String → Nat}
  {a dest : String}

omit [Rendezvous] in
/-- The smallest of some spellings is one of them, and there is one if any id spells
the hub. -/
theorem star_scan (star : StarSelector) (selfId : String)
    (hSelf : pubkeyPart selfId ≠ pubkeyPart star.hub) (connected : List String) :
    ∀ selected : Option String, (∀ peer ∈ selected, pubkeyPart peer = pubkeyPart star.hub) →
      (selected.isSome ∨ ∃ peer ∈ connected, pubkeyPart peer = pubkeyPart star.hub) →
      ∃ peer ∈ connected.foldl (fun selected peer =>
        if pubkeyPart peer ≠ pubkeyPart star.hub ∨ pubkeyPart peer = pubkeyPart selfId then selected
        else if selected.all fun current => peer < current then some peer
        else selected) selected, pubkeyPart peer = pubkeyPart star.hub := by
  induction connected with
  | nil =>
    intro selected hKey hSome
    obtain ⟨peer, hPeer⟩ := Option.isSome_iff_exists.mp (hSome.resolve_right (by simp))
    exact ⟨peer, hPeer, hKey peer hPeer⟩
  | cons peer rest ih =>
    intro selected hKey hSome
    rw [List.foldl_cons]
    by_cases hHub : pubkeyPart peer = pubkeyPart star.hub
    · have hOther : ¬(pubkeyPart peer ≠ pubkeyPart star.hub ∨
          pubkeyPart peer = pubkeyPart selfId) := by
        rintro (hNe | hSame)
        · exact hNe hHub
        · exact hSelf (hSame.symm.trans hHub)
      rw [if_neg hOther]
      split
      · exact ih _ (fun other hOther => Option.some.inj hOther ▸ hHub) (.inl rfl)
      · next hAll =>
          refine ih _ hKey (.inl ?_)
          cases selected with
          | none => simp at hAll
          | some current => rfl
    · rw [if_pos (.inl hHub)]
      refine ih _ hKey ?_
      rcases hSome with hSome | ⟨other, hOther, hOtherKey⟩
      · exact .inl hSome
      · rcases List.mem_cons.mp hOther with rfl | hOther
        · exact absurd hOtherKey hHub
        · exact .inr ⟨other, hOther, hOtherKey⟩

/-- Over the hub. -/
theorem star_delivers (hLimit : ∀ x, 1 ≤ limit x) (ha : network.member a)
    (hDest : network.member (pubkeyPart dest)) (hNe : a ≠ pubkeyPart dest)
    (hLinked : ¬network.Linked a (pubkeyPart dest)) :
    (network.route limit dest 4 a).getLast? = some (pubkeyPart dest) ∧
      (network.route limit dest 4 a).Nodup := by
  have hHub : network.member (pubkeyPart star.hub) := network.configured _ List.mem_cons_self
  have hHubKey := network.isKey _ hHub
  have hKey := network.isKey a ha
  have hEdge (x y : String) (hx : network.member x) (hy : network.member y) (hNe : y ≠ x)
      (h : x = pubkeyPart star.hub ∨ y = pubkeyPart star.hub) : network.Linked x y := by
    rw [Network.linked_iff hx hy]
    refine ⟨hNe, ?_⟩
    simpa [Selector.edge, StarSelector.edge, network.isKey x hx, network.isKey y hy] using h
  have haHub : a ≠ pubkeyPart star.hub := by
    rintro rfl
    exact hLinked (hEdge _ _ ha hDest hNe.symm (.inl rfl))
  have hDestHub : pubkeyPart star.hub ≠ pubkeyPart dest := by
    intro hSame
    exact hLinked (hEdge _ _ ha hDest hNe.symm (.inr hSame.symm))
  have hSelf : pubkeyPart a ≠ pubkeyPart star.hub := by
    rw [pubkeyPart_of_isKey hKey]
    exact haHub
  have hPositive : limit a ≠ 0 := Nat.ne_of_gt (hLimit a)
  obtain ⟨peer, hPeer, hPeerKey⟩ := star_scan star a hSelf (network.connected a) none (by simp)
    (.inr (hEdge _ _ ha hHub haHub.symm (.inr rfl)))
  have hForward : network.forward limit dest a = some (pubkeyPart star.hub) := by
    rw [Network.forward_hop ha hDest hLinked]
    simp only [Selector.nextHops, StarSelector.nextHops, if_neg hPositive, if_neg hSelf]
    rw [hPeer, Option.toList_some, List.head?_cons, Option.map_some, hPeerKey]
  rw [Network.route_step hNe hForward, Network.route_step hDestHub
    (Network.forward_linked (hEdge _ _ hHub hDest hDestHub.symm (.inl rfl))),
    Network.route_dest]
  simp [hNe, haHub, hDestHub]

end Star

/-! ## The hub tier -/

section Hubs

variable {hubs : HubsSelector} {network : Network (.hubs hubs)} {limit : String → Nat}
  {a b best dest : String}

omit [Rendezvous] in
theorem isHub_iff (ha : IsKey a) : hubs.isHub a = true ↔ a ∈ hubs.hubs.map pubkeyPart := by
  simp [HubsSelector.isHub, ha]

theorem hubs_linked (ha : network.member a) (hb : network.member b) (hNe : b ≠ a)
    (haHub : hubs.isHub a = true) (hbHub : hubs.isHub b = true) : network.Linked a b := by
  rw [Network.linked_iff ha hb]
  refine ⟨hNe, ?_⟩
  simp [Selector.edge, HubsSelector.edge, network.isKey a ha, network.isKey b hb, hNe.symm,
    haHub, hbHub]

theorem hubs_best (network : Network (.hubs hubs)) (h : IsBest a hubs.hubs best) :
    network.member best ∧ hubs.isHub best = true := by
  obtain ⟨hub, hHub, hKey⟩ := List.mem_map.mp h.mem
  have hMember : network.member best := by
    rw [← hKey]
    exact network.configured _ hHub
  exact ⟨hMember, (isHub_iff (network.isKey best hMember)).mpr h.mem⟩

/-- A spoke is connected to its best hub, and the hub to the spoke. -/
theorem hubs_linked_best (ha : network.member a) (hSpoke : hubs.isHub a = false)
    (h : IsBest a hubs.hubs best) : network.Linked a best ∧ network.Linked best a := by
  obtain ⟨hMember, hHub⟩ := hubs_best network h
  have hKey := network.isKey a ha
  have hBestKey := network.isKey best hMember
  have hSelects := spokeSelectsHub_best hKey hBestKey h
  have hNe : best ≠ a := ne_of_role hHub hSpoke
  rw [Network.linked_iff ha hMember, Network.linked_iff hMember ha]
  constructor
  · refine ⟨hNe, ?_⟩
    simp [Selector.edge, HubsSelector.edge, hKey, hBestKey, hNe.symm, hSpoke, hHub, hSelects]
  · refine ⟨hNe.symm, ?_⟩
    simp [Selector.edge, HubsSelector.edge, hKey, hBestKey, hNe, hSpoke, hHub, hSelects]

/-- The hop of a node that is connected to some other hub: such a hub, and the best
one for the destination if that is connected. -/
theorem hubs_forward (best : String) (hValid : (Selector.hubs hubs).Validated) (hLimit : ∀ x, 1 ≤ limit x)
    (ha : network.member a) (hDest : network.member (pubkeyPart dest))
    (hNot : ¬network.Linked a (pubkeyPart dest))
    (hHubs : ∃ hub, hub ≠ a ∧ hubs.isHub hub = true ∧ network.Linked a hub) :
    ∃ hub, network.forward limit dest a = some hub ∧ hub ≠ a ∧ hubs.isHub hub = true ∧
      network.Linked a hub ∧
      (IsBest (pubkeyPart dest) hubs.hubs best → best ≠ a → network.Linked a best →
        hub = best) := by
  have hKey := network.isKey a ha
  have hDestKey := network.isKey _ hDest
  have hKeys (peer : String) (hPeer : peer ∈ network.connected a) : IsKey (pubkeyPart peer) :=
    network.isKey _ ((network.links a ha (pubkeyPart peer)).mp ⟨peer, hPeer, rfl⟩).1
  have hTarget : 1 ≤ min (limit a) hubs.spokeRedundancy := le_min (hLimit a) hValid.2
  have hRanked := hopStep_ranked hubs a (pubkeyPart dest) hTarget (network.connected a)
  have hSeen (hub : String) (hNe : hub ≠ a) (hHub : hubs.isHub hub = true)
      (hLinked : network.Linked a hub) : hopRank hubs (pubkeyPart dest) hub ∈
        (network.connected a).flatMap (hopRanks hubs a (pubkeyPart dest)) := by
    obtain ⟨peer, hPeer, rfl⟩ := hLinked
    exact List.mem_flatMap.mpr ⟨peer, hPeer, by simp [hopRanks, hNe, hHub]⟩
  -- every rank the scan has seen is that of a connected hub
  have hDrawn (rank : Boolᵒᵈ ×ₗ (Natᵒᵈ ×ₗ String))
      (hRank : rank ∈ (network.connected a).flatMap (hopRanks hubs a (pubkeyPart dest))) :
      ∃ hub, rank = hopRank hubs (pubkeyPart dest) hub ∧ hub ≠ a ∧ hubs.isHub hub = true ∧
        network.Linked a hub := by
    obtain ⟨peer, hPeer, hRank⟩ := List.mem_flatMap.mp hRank
    unfold hopRanks at hRank
    split at hRank
    · cases hRank
    · next hKept =>
        rw [not_or, Bool.not_eq_false] at hKept
        exact ⟨pubkeyPart peer, List.mem_singleton.mp hRank, hKept.1, hKept.2, peer, hPeer, rfl⟩
  have hOff (hub : String) (hLinked : network.Linked a hub) : hub ≠ pubkeyPart dest := by
    rintro rfl
    exact hNot hLinked
  obtain ⟨other, hOtherNe, hOtherHub, hOtherLinked⟩ := hHubs
  obtain ⟨hop, hHead, -⟩ := hRanked.best _ (hSeen other hOtherNe hOtherHub hOtherLinked)
  have hMem := List.mem_of_mem_head? hHead
  obtain ⟨hub, hRank, hNe, hHub, hLinked⟩ := hDrawn _ (hRanked.drawn hop hMem)
  have hHopKey : hop.key = hub := hop_key hubs _ hRank
  refine ⟨hub, ?_, hNe, hHub, hLinked, fun hBest hBestNe hBestLinked => ?_⟩
  · rw [Network.forward_hop ha hDest hNot, Selector.nextHops,
      nextHops_eq (pubkeyPart_of_isKey hKey) (pubkeyPart_of_isKey hDestKey)
        (fun peer hPeer => pubkeyPart_of_isKey (hKeys peer hPeer)) hTarget, List.head?_map, hHead]
    simp only [Option.map_some]
    rw [hopStep_spelled hubs a (pubkeyPart dest) _ _ hop hMem, hHopKey]
  · have hBestMem := hSeen best hBestNe (hubs_best network hBest).2 hBestLinked
    obtain ⟨first, hFirst, hFirstRank⟩ := hRanked.head hBestMem fun rank hSeenRank => by
      obtain ⟨hub, rfl, -, hHub, hLinked⟩ := hDrawn rank hSeenRank
      obtain ⟨peer, hPeer, rfl⟩ := hLinked
      exact hBest.hopRank_le (hOff best hBestLinked) ((isHub_iff (hKeys peer hPeer)).mp hHub)
        (hOff _ ⟨peer, hPeer, rfl⟩)
    rw [hHead] at hFirst
    obtain rfl := Option.some.inj hFirst
    rw [← hHopKey]
    exact hop_key hubs _ hFirstRank

/-- A hub that is not connected to the destination sends to its best hub. -/
theorem hubs_route_hub (hValid : (Selector.hubs hubs).Validated) (hLimit : ∀ x, 1 ≤ limit x)
    (ha : network.member a) (hDest : network.member (pubkeyPart dest))
    (hNe : a ≠ pubkeyPart dest) (hHub : hubs.isHub a = true) (sends : Nat) :
    (network.route limit dest (sends + 2) a).getLast? = some (pubkeyPart dest) ∧
      (network.route limit dest (sends + 2) a).Nodup ∧
      ∀ x ∈ network.route limit dest (sends + 2) a,
        x = pubkeyPart dest ∨ hubs.isHub x = true := by
  by_cases hLinked : network.Linked a (pubkeyPart dest)
  · rw [Network.route_step hNe (Network.forward_linked hLinked), Network.route_dest]
    simp [hNe, hHub]
  · have hSpoke : hubs.isHub (pubkeyPart dest) = false := by
      by_contra hDestHub
      rw [Bool.not_eq_false] at hDestHub
      exact hLinked (hubs_linked ha hDest hNe.symm hHub hDestHub)
    obtain ⟨best, hBest⟩ := exists_isBest (pubkeyPart dest) hValid.1
    obtain ⟨hMember, hBestHub⟩ := hubs_best network hBest
    have hUp := (hubs_linked_best hDest hSpoke hBest).2
    have hBestNe : best ≠ pubkeyPart dest := ne_of_role hBestHub hSpoke
    have haBest : best ≠ a := by
      rintro rfl
      exact hLinked hUp
    have hAcross := hubs_linked ha hMember haBest hHub hBestHub
    obtain ⟨hub, hForward, -, -, -, hSame⟩ := hubs_forward best hValid hLimit ha hDest hLinked
      ⟨best, haBest, hBestHub, hAcross⟩
    rw [hSame hBest haBest hAcross] at hForward
    rw [Network.route_step hNe hForward,
      Network.route_step hBestNe (Network.forward_linked hUp), Network.route_dest]
    simp [hNe, hBestNe, haBest.symm, hHub, hBestHub]

/-- Over one hub or two. -/
theorem hubs_delivers (hValid : (Selector.hubs hubs).Validated) (hLimit : ∀ x, 1 ≤ limit x)
    (ha : network.member a) (hDest : network.member (pubkeyPart dest))
    (hNe : a ≠ pubkeyPart dest) (hLinked : ¬network.Linked a (pubkeyPart dest)) :
    (network.route limit dest 4 a).getLast? = some (pubkeyPart dest) ∧
      (network.route limit dest 4 a).Nodup := by
  cases hHub : hubs.isHub a with
  | true =>
    obtain ⟨hLast, hNodup, -⟩ := hubs_route_hub hValid hLimit ha hDest hNe hHub 2
    exact ⟨hLast, hNodup⟩
  | false =>
    obtain ⟨best, hBest⟩ := exists_isBest a hValid.1
    obtain ⟨hBestMember, hBestHub⟩ := hubs_best network hBest
    have hDown := (hubs_linked_best ha hHub hBest).1
    have hBestNe : best ≠ a := ne_of_role hBestHub hHub
    obtain ⟨hub, hForward, hHubNe, hIsHub, hHubLinked, -⟩ := hubs_forward best hValid
      hLimit ha hDest hLinked ⟨best, hBestNe, hBestHub, hDown⟩
    have hMember := ((network.links a ha hub).mp hHubLinked).1
    have hDestNe : hub ≠ pubkeyPart dest := by
      rintro rfl
      exact hLinked hHubLinked
    obtain ⟨hLast, hNodup, hRoles⟩ :=
      hubs_route_hub hValid hLimit hMember hDest hDestNe hIsHub 1
    rw [Network.route_step hNe hForward]
    refine ⟨?_, List.nodup_cons.mpr ⟨fun hMem => ?_, hNodup⟩⟩
    · rw [List.getLast?_cons, hLast]
      rfl
    · rcases hRoles a hMem with hSame | hIs
      · exact hNe hSame
      · rw [hHub] at hIs
        cases hIs

end Hubs

/-- Static routing delivers: between any two members of a network of any validated
selector the frame arrives after at most four sends, without a node visited twice. -/
theorem static_routing_delivers {selector : Selector} (hValid : selector.Validated)
    (network : Network selector) {limit : String → Nat} (hLimit : ∀ x, 1 ≤ limit x)
    {a dest : String} (ha : network.member a) (hDest : network.member (pubkeyPart dest))
    (hNe : a ≠ pubkeyPart dest) :
    (network.route limit dest 4 a).getLast? = some (pubkeyPart dest) ∧
      (network.route limit dest 4 a).Nodup := by
  by_cases hLinked : network.Linked a (pubkeyPart dest)
  · rw [Network.route_step hNe (Network.forward_linked hLinked), Network.route_dest]
    simp [hNe]
  · cases selector with
    | star star => exact star_delivers hLimit ha hDest hNe hLinked
    | hubs hubs => exact hubs_delivers hValid hLimit ha hDest hNe hLinked
    | hubTree tree => exact tree_delivers hValid hLimit ha hDest hNe hLinked

/-- The network of a list of keys, each spelled as it is. -/
def Network.ofKeys (selector : Selector) (keys : List String) (hKeys : ∀ a ∈ keys, IsKey a)
    (hConfigured : ∀ id ∈ selector.configured, pubkeyPart id ∈ keys) : Network selector where
  member a := a ∈ keys
  isKey := hKeys
  configured := hConfigured
  selfId := id
  selfId_key a ha := pubkeyPart_of_isKey (hKeys a ha)
  connected a := keys.filter fun b => b ≠ a ∧ selector.edge a b = true
  links a _ b := by
    constructor
    · rintro ⟨peer, hPeer, rfl⟩
      obtain ⟨hPeer, hEdge⟩ := List.mem_filter.mp hPeer
      rw [pubkeyPart_of_isKey (hKeys peer hPeer)]
      exact ⟨hPeer, by simpa using hEdge⟩
    · rintro ⟨hb, hEdge⟩
      exact ⟨b, List.mem_filter.mpr ⟨hb, by simpa using hEdge⟩, pubkeyPart_of_isKey (hKeys b hb)⟩

/-- A tree of a root, two hubs and two leaves that rank different hubs first. -/
def sampleTree : HubTreeSelector := ⟨"r", ["h", "i"], 0⟩

/-- Scores under which the leaf "a" ranks "h" first and the leaf "b" ranks "i". -/
@[reducible] def sampleRendezvous : Rendezvous where
  digest text := if text = "a:h" ∨ text = "b:i" then 1 else 0

omit [Rendezvous] in
theorem sample_isKey : ∀ a ∈ ["r", "h", "i", "a", "b"], IsKey a := by
  unfold IsKey
  decide +kernel

omit [Rendezvous] in
theorem static_routing_delivers_leaves :
    let _ : Rendezvous := sampleRendezvous
    ∃ network : Network (.hubTree sampleTree),
      network.route (fun _ => 1) "b" 4 "a" = ["a", "h", "r", "i", "b"] ∧
        (network.route (fun _ => 1) "b" 4 "a").getLast? = some (pubkeyPart "b") := by
  let _ : Rendezvous := sampleRendezvous
  let network := Network.ofKeys (.hubTree sampleTree) ["r", "h", "i", "a", "b"] sample_isKey
    (by decide +kernel)
  refine ⟨network, by decide +kernel, ?_⟩
  have hValid : (Selector.hubTree sampleTree).Validated := ⟨by decide, by decide +kernel⟩
  have hSource : network.member "a" := by
    change "a" ∈ ["r", "h", "i", "a", "b"]
    decide
  have hDest : network.member (pubkeyPart "b") := by
    change pubkeyPart "b" ∈ ["r", "h", "i", "a", "b"]
    decide +kernel
  exact (static_routing_delivers hValid network (fun _ => Nat.le_refl 1) hSource hDest
    (by decide +kernel)).1

end MyOwnMesh.Topology
