import Mathlib.Data.String.Basic
import MyOwnMesh.Foundation.BoundedRank

/-!
# Static topology selectors

The star, the hub tier and the shallow hub tree: between which members a
connection exists (`edge`) and to whom a node hands a frame for a member it is not
connected to (`nextHops`). Every node computes both alone, from the configuration
and a rendezvous hash. Ids are compared by their public key, without the display
suffix.
-/

namespace MyOwnMesh.Topology

open Foundation

/-! ## Device ids -/

/-- `str::rsplit_once`: split at the last separator. -/
def rsplitOnce (sep : Char) : List Char → Option (List Char × List Char)
  | [] => none
  | c :: rest =>
    match rsplitOnce sep rest with
    | some (body, suffix) => some (c :: body, suffix)
    | none => if c = sep then some ([], rest) else none

/-- A device id without its display suffix, a dash and five alphanumerics. -/
def pubkeyPart (deviceId : String) : String :=
  match rsplitOnce '-' deviceId.toList with
  | some (body, suffix) =>
    if suffix.length = 5 ∧ suffix.all Char.isAlphanum then String.ofList body else deviceId
  | none => deviceId

/-! ## Rendezvous ranking -/

/-- The first eight bytes of SHA-256, as a number. -/
class Rendezvous where
  digest : String → Nat

/-- The rendezvous score of a spoke or leaf and a hub. -/
def rendezvousScore [Rendezvous] (spoke hub : String) : Nat :=
  Rendezvous.digest (spoke ++ ":" ++ hub)

/-- A hub with its score. -/
structure RankedHub where
  score : Nat
  key : String
deriving DecidableEq

/-- The larger score first, then the smaller key. -/
def rankedOrder (left right : RankedHub) : Ordering :=
  (compare right.score left.score).then (compare left.key right.key)

/-! ## Star -/

/-- Every spoke connects to one hub. -/
structure StarSelector where
  hub : String
deriving DecidableEq

namespace StarSelector

def edge (self : StarSelector) (a b : String) : Bool :=
  pubkeyPart a == pubkeyPart self.hub || pubkeyPart b == pubkeyPart self.hub

/-- A spoke's only road is the hub, under its smallest spelling. -/
def nextHops (self : StarSelector) (selfId _dest : String) (connected : List String)
    (limit : Nat) : List String :=
  if limit = 0 then []
  else if pubkeyPart selfId = pubkeyPart self.hub then []
  else
    (connected.foldl (fun selected peer =>
      if pubkeyPart peer ≠ pubkeyPart self.hub ∨ pubkeyPart peer = pubkeyPart selfId then selected
      else if selected.all fun current => peer < current then some peer
      else selected) none).toList

end StarSelector

/-! ## Hubs -/

/-- A full mesh of hubs; every spoke connects to its best-ranked ones. -/
structure HubsSelector where
  hubs : List String
  spokeRedundancy : Nat
deriving DecidableEq

/-- `from_mode`: a spoke has two hubs unless the configuration says otherwise, and at
least one. -/
def HubsSelector.fromMode (hubs : List String) (spokeRedundancy : Option Nat) : HubsSelector :=
  { hubs, spokeRedundancy := max (spokeRedundancy.getD 2) 1 }

/-- A next hop with its spelling. -/
structure RankedCandidate where
  direct : Bool
  score : Nat
  key : String
  peer : String
deriving DecidableEq

namespace HubsSelector

def isHub (self : HubsSelector) (id : String) : Bool :=
  self.hubs.any fun hub => pubkeyPart hub == pubkeyPart id

def retainRankedHub (ranked : List RankedHub) (candidate : RankedHub) (limit : Nat) :
    List RankedHub :=
  insertBounded rankedOrder limit ranked candidate

/-- The destination itself first, then by rank. -/
def routeCandidateOrder (left right : RankedCandidate) : Ordering :=
  (compare right.direct left.direct).then
    ((compare right.score left.score).then (compare left.key right.key))

variable [Rendezvous]

/-- The score of a configured hub for a spoke. -/
def configuredHubScore (self : HubsSelector) (spoke hub : String) : Option Nat :=
  let hub := pubkeyPart hub
  if self.hubs.any fun configured => pubkeyPart configured == hub then
    some (rendezvousScore spoke hub)
  else none

/-- The best hubs of a spoke, each key once. -/
def rankedHubsPrefix (self : HubsSelector) (spoke : String) (limit : Nat) : List RankedHub :=
  let spoke := pubkeyPart spoke
  self.hubs.foldl (fun ranked configured =>
    let hub := pubkeyPart configured
    if ranked.any fun previous => previous.key == hub then ranked
    else retainRankedHub ranked ⟨rendezvousScore spoke hub, hub⟩ limit) []

def spokeSelectsHub (self : HubsSelector) (spoke hub : String) : Bool :=
  (self.rankedHubsPrefix spoke (max self.spokeRedundancy 1)).any fun candidate =>
    candidate.key == pubkeyPart hub

def hubsFor (self : HubsSelector) (spoke : String) : List String :=
  (self.rankedHubsPrefix spoke (max self.spokeRedundancy 1)).map RankedHub.key

/-- The peers a hub or a spoke connects to. -/
def selectPreferred (self : HubsSelector) (selfId : String) (peerIds : List String) :
    List String :=
  peerIds.filter fun peer =>
    if pubkeyPart peer = pubkeyPart selfId then false
    else
      match self.isHub selfId, self.isHub peer with
      | true, true => true
      | false, true => (self.hubsFor selfId).any fun hub => hub == pubkeyPart peer
      | true, false => self.spokeSelectsHub peer selfId
      | false, false => false

/-- Hubs form a clique; a spoke has its selected hubs. -/
def edge (self : HubsSelector) (a b : String) : Bool :=
  if pubkeyPart a = pubkeyPart b then false
  else
    match self.isHub a, self.isHub b with
    | true, true => true
    | false, true => self.spokeSelectsHub a b
    | true, false => self.spokeSelectsHub b a
    | false, false => false

/-- Add a connected hub to the hops kept so far; a second spelling of a kept hub
only replaces a larger one. -/
def addCandidate (target : Nat) (candidates : List RankedCandidate)
    (candidate : RankedCandidate) : List RankedCandidate :=
  if candidates.any fun item => item.key == candidate.key then
    candidates.map fun existing =>
      if existing.key = candidate.key ∧ candidate.peer < existing.peer then
        { existing with peer := candidate.peer }
      else existing
  else insertBounded routeCandidateOrder target candidates candidate

/-- The connected hubs, best ranked for the destination first. -/
def nextHops (self : HubsSelector) (selfId dest : String) (connected : List String)
    (limit : Nat) : List String :=
  let destKey := pubkeyPart dest
  let sourceKey := pubkeyPart selfId
  let target := min limit self.spokeRedundancy
  if target = 0 then []
  else
    let destinationIsHub := self.isHub destKey
    (connected.foldl (fun candidates peer =>
      let key := pubkeyPart peer
      if key = sourceKey then candidates
      else
        match self.configuredHubScore destKey key with
        | none => candidates
        | some score =>
          addCandidate target candidates
            { direct := destinationIsHub && key == destKey, score, key, peer }) []).map
      RankedCandidate.peer

end HubsSelector

/-! ## Hub tree -/

/-- A root over hubs; every leaf connects to its best-ranked hubs, every hub to the
root. -/
structure HubTreeSelector where
  root : String
  hubs : List String
  backupCandidates : Nat
deriving DecidableEq

namespace HubTreeSelector

def isRoot (self : HubTreeSelector) (id : String) : Bool := pubkeyPart id == pubkeyPart self.root

def isHub (self : HubTreeSelector) (id : String) : Bool :=
  let key := pubkeyPart id
  !self.isRoot key && self.hubs.any fun hub => pubkeyPart hub == key

def candidateLimit (self : HubTreeSelector) : Nat := min (self.backupCandidates + 1) self.hubs.length

def retainRanked (ranked : List RankedHub) (candidate : RankedHub) (limit : Nat) :
    List RankedHub :=
  if ranked.any fun entry => entry.key == candidate.key then ranked
  else insertBounded rankedOrder limit ranked candidate

/-- The smallest spelling of a key among the connected peers. -/
def connectedSpelling (key : String) (connected : List String) : Option String :=
  (connected.filter fun peer => pubkeyPart peer == key).min?

/-- The connected peers of the keys, each key once. -/
def appendConnected (keys connected : List String) (limit : Nat) : List String :=
  go keys []
where
  go : List String → List String → List String
    | [], result => result
    | key :: rest, result =>
      if result.length = limit then result
      else if result.any fun peer => pubkeyPart peer == pubkeyPart key then go rest result
      else
        match connectedSpelling (pubkeyPart key) connected with
        | some peer => go rest (result ++ [peer])
        | none => go rest result

def appendRankedConnected (candidates : List RankedHub) (connected : List String) (limit : Nat) :
    List String :=
  (candidates.take limit).filterMap fun candidate => connectedSpelling candidate.key connected

variable [Rendezvous]

/-- The best hubs of a leaf, without the root. -/
def rankedCandidates (self : HubTreeSelector) (leaf : String) (limit : Nat) : List RankedHub :=
  let leaf := pubkeyPart leaf
  self.hubs.foldl (fun ranked configured =>
    let key := pubkeyPart configured
    if self.isRoot key then ranked
    else retainRanked ranked ⟨rendezvousScore leaf key, key⟩ limit) []

/-- The best connected hubs of a leaf, without the root. -/
def rankedConnectedCandidates (self : HubTreeSelector) (leaf : String) (connected : List String)
    (limit : Nat) : List RankedHub :=
  let leaf := pubkeyPart leaf
  self.hubs.foldl (fun ranked configured =>
    let key := pubkeyPart configured
    if self.isRoot key ∨ (connectedSpelling key connected).isNone then ranked
    else retainRanked ranked ⟨rendezvousScore leaf key, key⟩ limit) []

/-- The root if it is connected, otherwise other connected hubs. -/
def rootOrConnectedHubs (self : HubTreeSelector) (selfKey : String) (connected : List String)
    (limit : Nat) : List String :=
  match connectedSpelling (pubkeyPart self.root) connected with
  | some root => [root]
  | none => go (self.rankedConnectedCandidates selfKey connected
      (min self.candidateLimit (limit + 1))) []
where
  go : List RankedHub → List String → List String
    | [], result => result
    | candidate :: rest, result =>
      if candidate.key = pubkeyPart selfKey then go rest result
      else
        match connectedSpelling candidate.key connected with
        | some peer =>
          if (result ++ [peer]).length = limit then result ++ [peer]
          else go rest (result ++ [peer])
        | none => go rest result

/-- Whether a hub is among the candidates of a leaf, by counting the better ones. -/
def candidateContains (self : HubTreeSelector) (leaf hub : String) : Bool :=
  if self.candidateLimit = 0 then false else go self.hubs 0 false
where
  go : List String → Nat → Bool → Bool
    | [], _, found => found
    | configured :: rest, rank, found =>
      let candidate := pubkeyPart configured
      let target := rendezvousScore (pubkeyPart leaf) (pubkeyPart hub)
      let score := rendezvousScore (pubkeyPart leaf) candidate
      if self.isRoot candidate then go rest rank found
      else if candidate = pubkeyPart hub then go rest rank true
      else if target < score ∨ (score = target ∧ candidate < pubkeyPart hub) then
        if self.candidateLimit ≤ rank + 1 then false else go rest (rank + 1) found
      else go rest rank found

/-- The peers a node of the tree connects to. -/
def selectPreferred (self : HubTreeSelector) (selfId : String) (peerIds : List String) :
    List String :=
  let selfKey := pubkeyPart selfId
  if self.isRoot selfKey then
    peerIds.filter fun peer => pubkeyPart peer ≠ selfKey && self.isHub peer
  else if self.isHub selfKey then
    peerIds.filter fun peer =>
      let key := pubkeyPart peer
      key ≠ selfKey &&
        (self.isRoot key || (!self.isHub key && self.candidateContains key selfKey))
  else
    let candidates := self.rankedCandidates selfKey self.candidateLimit
    peerIds.filter fun peer =>
      let key := pubkeyPart peer
      key ≠ selfKey && candidates.any fun candidate => candidate.key == key

/-- Root and hub, or a hub and a leaf that ranks it. -/
def edge (self : HubTreeSelector) (a b : String) : Bool :=
  let aKey := pubkeyPart a
  let bKey := pubkeyPart b
  if aKey = bKey then false
  else
    match self.isRoot aKey, self.isRoot bKey, self.isHub aKey, self.isHub bKey with
    | true, false, false, true => true
    | false, true, true, false => true
    | false, false, true, false => self.candidateContains bKey aKey
    | false, false, false, true => self.candidateContains aKey bKey
    | _, _, _, _ => false

/-- Up to the root or down over a ranked hub, in the order of preference. -/
def nextHops (self : HubTreeSelector) (selfId dest : String) (connected : List String)
    (limit : Nat) : List String :=
  let selfKey := pubkeyPart selfId
  let destKey := pubkeyPart dest
  let ranked (leaf : String) : List String :=
    appendRankedConnected
      (self.rankedConnectedCandidates leaf connected (min self.candidateLimit limit)) connected limit
  if limit = 0 then []
  else if selfKey = destKey then []
  else if self.isRoot selfKey then
    if self.isRoot destKey then []
    else if self.isHub destKey then appendConnected [destKey] connected limit
    else ranked destKey
  else if self.isHub selfKey then
    if self.isRoot destKey then self.rootOrConnectedHubs selfKey connected limit
    else
      match (if !self.isHub destKey && self.candidateContains destKey selfKey then
        connectedSpelling destKey connected else none) with
      | some peer => [peer]
      | none => self.rootOrConnectedHubs selfKey connected limit
  else
    match (if self.isHub destKey && self.candidateContains selfKey destKey then
      connectedSpelling destKey connected else none) with
    | some peer => [peer]
    | none => ranked selfKey

end HubTreeSelector

end MyOwnMesh.Topology
