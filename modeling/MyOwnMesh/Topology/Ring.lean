import Mathlib.Data.Finset.Sort
import Mathlib.Logic.Relation
import MyOwnMesh.Topology.Selector

/-!
# The ring

Members sorted by id form a ring. Each one prefers its two neighbours and, walking
outward from its own place, further members up to a capacity; an edge exists where
either side prefers the other. The neighbours are always preferred, so the edges
close the ring.
-/

namespace MyOwnMesh.Topology

/-! ## Selection -/

/-- A ring with a number of preferred neighbours. -/
structure RingSelector where
  nPreferred : Nat

/-- The member at a place, counted around the ring. -/
def ringAt (ring : List String) (selfPubkey : String) (place : Nat) : String :=
  ring.getD (place % ring.length) selfPubkey

/-- Prefer a member, unless it is the node itself. -/
def prefer (selfPubkey : String) (preferred : Finset String) (peer : String) : Finset String :=
  if peer ≠ selfPubkey ∧ peer ∉ preferred then insert peer preferred else preferred

/-- The walk outward: one member on each side per distance, while there is capacity. -/
def walkOutward (ring : List String) (selfPubkey : String) (myIdx n : Nat) :
    List Nat → Finset String → Finset String
  | [], preferred => preferred
  | dist :: rest, preferred =>
    if preferred.card < n then
      let grown := prefer selfPubkey preferred (ringAt ring selfPubkey (myIdx + dist))
      -- only an insertion can reach the capacity here
      if n ≤ grown.card then grown
      else
        walkOutward ring selfPubkey myIdx n rest
          (prefer selfPubkey grown (ringAt ring selfPubkey (myIdx + ring.length - dist)))
    else preferred

/-- Both ring neighbours, then outward until `n` are chosen. -/
def selectRingNeighbors (selfPubkey : String) (peerPubkeys : List String) (n : Nat) :
    Finset String :=
  if peerPubkeys = [] then ∅
  else if peerPubkeys.length ≤ n then peerPubkeys.toFinset
  else
    let ring := (insert selfPubkey peerPubkeys.toFinset).sort
    let myIdx := ring.idxOf selfPubkey
    let preferred : Finset String :=
      if 1 < ring.length then
        {ringAt ring selfPubkey (myIdx + 1), ringAt ring selfPubkey (myIdx + ring.length - 1)}
      else ∅
    walkOutward ring selfPubkey myIdx n (List.range' 2 (ring.length - 2)) preferred

/-- The membership without a node; both ends of the edge belong to it. -/
def ringOthers (a b : String) (all : List String) (me : String) : List String :=
  [a, b].foldl (fun v extra => if extra ≠ me ∧ extra ∉ v then v ++ [extra] else v)
    (all.filter (· ≠ me))

def RingSelector.edge (self : RingSelector) (a b : String) (all : List String) : Bool :=
  decide (b ∈ selectRingNeighbors a (ringOthers a b all a) self.nPreferred) ||
    decide (a ∈ selectRingNeighbors b (ringOthers a b all b) self.nPreferred)

/-! ## Places around a ring -/

section Places

variable {ring : List String} {me x : String} {myIdx d : Nat}

theorem ringAt_getElem? (hRing : ring ≠ []) (me : String) (place : Nat) :
    ring[place % ring.length]? = some (ringAt ring me place) := by
  have hLt : place % ring.length < ring.length := Nat.mod_lt _ (List.length_pos_iff.mpr hRing)
  rw [ringAt, List.getD_eq_getElem?_getD, List.getElem?_eq_getElem hLt, Option.getD_some]

theorem ringAt_mem (hMe : ring[myIdx]? = some me) (place : Nat) : ringAt ring me place ∈ ring := by
  have hRing : ring ≠ [] := fun hNil => by simp [hNil] at hMe
  exact List.mem_of_getElem? (ringAt_getElem? hRing me place)

theorem place_eq (hNodup : ring.Nodup) (hMe : ring[myIdx]? = some me) {i j : Nat}
    (h : ringAt ring me i = ringAt ring me j) : i % ring.length = j % ring.length := by
  have hRing : ring ≠ [] := fun hNil => by simp [hNil] at hMe
  have hi := ringAt_getElem? hRing me i
  rw [h, ← ringAt_getElem? hRing me j] at hi
  exact (List.getElem?_inj (Nat.mod_lt _ (List.length_pos_iff.mpr hRing)) hNodup).mp hi

theorem ringAt_self (hMe : ring[myIdx]? = some me) : ringAt ring me myIdx = me := by
  obtain ⟨hLt, hEq⟩ := List.getElem?_eq_some_iff.mp hMe
  rw [ringAt, Nat.mod_eq_of_lt hLt, List.getD_eq_getElem?_getD, hMe, Option.getD_some]

theorem ringAt_ne (hNodup : ring.Nodup) (hMe : ring[myIdx]? = some me) (hPos : 1 ≤ d)
    (hd : d < ring.length) : ringAt ring me (myIdx + d) ≠ me := by
  intro hSame
  have hPlace := place_eq hNodup hMe (hSame.trans (ringAt_self hMe).symm)
  obtain ⟨hLt, -⟩ := List.getElem?_eq_some_iff.mp hMe
  rw [Nat.mod_eq_of_lt hLt] at hPlace
  by_cases hWrap : myIdx + d < ring.length
  · rw [Nat.mod_eq_of_lt hWrap] at hPlace
    omega
  · rw [Nat.mod_eq_sub_mod (by omega), Nat.mod_eq_of_lt (by omega)] at hPlace
    omega

/-- Every other member stands at some distance. -/
theorem exists_distance (hMe : ring[myIdx]? = some me) (hx : x ∈ ring) (hNe : x ≠ me) :
    ∃ d, 1 ≤ d ∧ d < ring.length ∧ ringAt ring me (myIdx + d) = x := by
  obtain ⟨hLt, hEq⟩ := List.getElem?_eq_some_iff.mp hMe
  obtain ⟨j, hj, rfl⟩ := List.mem_iff_getElem.mp hx
  have hOther : j ≠ myIdx := fun hSame => hNe (by subst hSame; exact hEq)
  have hAt (place : Nat) (hPlace : place % ring.length = j) : ringAt ring me place = ring[j] := by
    rw [ringAt, hPlace, List.getD_eq_getElem?_getD, List.getElem?_eq_getElem hj, Option.getD_some]
  by_cases hAfter : myIdx < j
  · refine ⟨j - myIdx, by omega, by omega, hAt _ ?_⟩
    rw [Nat.add_sub_cancel' hAfter.le, Nat.mod_eq_of_lt hj]
  · refine ⟨j + ring.length - myIdx, by omega, by omega, hAt _ ?_⟩
    rw [show myIdx + (j + ring.length - myIdx) = j + ring.length by omega, Nat.add_mod_right,
      Nat.mod_eq_of_lt hj]

end Places

/-! ## The walk -/

section Walk

variable {ring : List String} {me : String} {myIdx n : Nat}

theorem subset_prefer (me : String) (preferred : Finset String) (peer : String) :
    preferred ⊆ prefer me preferred peer := by
  unfold prefer
  split
  · exact Finset.subset_insert _ _
  · exact subset_rfl

theorem mem_prefer {preferred : Finset String} {peer x : String}
    (hx : x ∈ prefer me preferred peer) : x ∈ preferred ∨ x = peer ∧ x ≠ me := by
  unfold prefer at hx
  split at hx
  · next hNew =>
    rcases Finset.mem_insert.mp hx with rfl | hx
    · exact .inr ⟨rfl, hNew.1⟩
    · exact .inl hx
  · exact .inl hx

theorem preferred_of_ne {preferred : Finset String} {peer : String} (h : peer ≠ me) :
    peer ∈ prefer me preferred peer := by
  unfold prefer
  split
  · exact Finset.mem_insert_self _ _
  · next hOld => simpa [h] using hOld

theorem card_prefer_le (me : String) (preferred : Finset String) (peer : String) :
    (prefer me preferred peer).card ≤ preferred.card + 1 := by
  unfold prefer
  split
  · exact Finset.card_insert_le _ _
  · omega

/-- What the walk adds, and that it stops only at the capacity. -/
theorem walkOutward_spec (hMe : ring[myIdx]? = some me) (dists : List Nat) :
    ∀ preferred : Finset String,
      preferred ⊆ walkOutward ring me myIdx n dists preferred ∧
      (∀ x ∈ walkOutward ring me myIdx n dists preferred, x ∈ preferred ∨ x ∈ ring ∧ x ≠ me) ∧
      (walkOutward ring me myIdx n dists preferred).card ≤ max n preferred.card ∧
      (n ≤ (walkOutward ring me myIdx n dists preferred).card ∨ ∀ d ∈ dists,
        ringAt ring me (myIdx + d) ≠ me →
          ringAt ring me (myIdx + d) ∈ walkOutward ring me myIdx n dists preferred) := by
  induction dists with
  | nil =>
    intro preferred
    exact ⟨subset_rfl, fun x hx => .inl hx, by simp [walkOutward], .inr (by simp)⟩
  | cons dist rest ih =>
    intro preferred
    have hAdded {before : Finset String} {place : Nat} (x : String)
        (hx : x ∈ prefer me before (ringAt ring me place)) : x ∈ before ∨ x ∈ ring ∧ x ≠ me := by
      rcases mem_prefer hx with hx | ⟨rfl, hNe⟩
      · exact .inl hx
      · exact .inr ⟨ringAt_mem hMe place, hNe⟩
    rw [walkOutward]
    by_cases hRoom : preferred.card < n
    · rw [if_pos hRoom]
      dsimp only
      have hGrown := card_prefer_le me preferred (ringAt ring me (myIdx + dist))
      split
      · next hFull =>
        exact ⟨subset_prefer me _ _, hAdded, by omega, .inl hFull⟩
      · next hLeft =>
        have hTwice := card_prefer_le me
          (prefer me preferred (ringAt ring me (myIdx + dist)))
          (ringAt ring me (myIdx + ring.length - dist))
        obtain ⟨hSub, hMem, hCard, hAll⟩ := ih (prefer me
          (prefer me preferred (ringAt ring me (myIdx + dist)))
          (ringAt ring me (myIdx + ring.length - dist)))
        have hFirst := (subset_prefer me _ _).trans hSub
        refine ⟨(subset_prefer me _ _).trans hFirst, fun x hx => ?_, by omega, hAll.imp_right
          fun hRest d hd hNe => ?_⟩
        · rcases hMem x hx with hx | hx
          · rcases hAdded x hx with hx | hx
            · exact hAdded x hx
            · exact .inr hx
          · exact .inr hx
        · rcases List.mem_cons.mp hd with rfl | hd
          · exact hFirst (preferred_of_ne hNe)
          · exact hRest d hd hNe
    · rw [if_neg hRoom]
      exact ⟨subset_rfl, fun x hx => .inl hx, by omega, .inl (by omega)⟩

end Walk

/-! ## The neighbours are preferred -/

/-- One member comes after another in the sorted cyclic order. -/
def Follows (members : Finset String) (a b : String) : Prop :=
  ∃ i < members.card, members.sort[i]? = some a ∧ members.sort[(i + 1) % members.card]? = some b

section Selected

variable {me b : String} {others : List String} {n : Nat}

/-- A neighbour stands at distance one on one of the two sides. -/
theorem neighbour_place {members : Finset String} {myIdx : Nat}
    (hMe : members.sort[myIdx]? = some me) (h : Follows members me b ∨ Follows members b me) :
    b = ringAt members.sort me (myIdx + 1) ∨
      b = ringAt members.sort me (myIdx + members.sort.length - 1) := by
  have hNodup : members.sort.Nodup := Finset.sort_nodup _ _
  have hLength : members.sort.length = members.card := Finset.length_sort _
  obtain ⟨hLt, -⟩ := List.getElem?_eq_some_iff.mp hMe
  have hRing : members.sort ≠ [] := List.ne_nil_of_length_pos (by omega)
  rcases h with ⟨i, hi, hFirst, hNext⟩ | ⟨i, hi, hFirst, hNext⟩
  · left
    obtain rfl : i = myIdx := (List.getElem?_inj (by omega) hNodup).mp (hFirst.trans hMe.symm)
    rw [← hLength, ringAt_getElem? hRing me] at hNext
    exact (Option.some.inj hNext).symm
  · right
    have hPlace : (i + 1) % members.card = myIdx :=
      (List.getElem?_inj (by rw [hLength]; exact Nat.mod_lt _ (by omega)) hNodup).mp
        (hNext.trans hMe.symm)
    have hBack : (myIdx + members.sort.length - 1) % members.sort.length = i := by
      rw [hLength, ← hPlace]
      by_cases hWrap : i + 1 < members.card
      · rw [Nat.mod_eq_of_lt hWrap, show i + 1 + members.card - 1 = i + members.card by omega,
          Nat.add_mod_right, Nat.mod_eq_of_lt hi]
      · rw [show i + 1 = members.card by omega, Nat.mod_self, Nat.mod_eq_of_lt (by omega)]
        omega
    have hAt := ringAt_getElem? hRing me (myIdx + members.sort.length - 1)
    rw [hBack, hFirst] at hAt
    exact Option.some.inj hAt

/-- **What a member selects.** -/
theorem selectRingNeighbors_spec (hNodup : others.Nodup) (hMe : me ∉ others) (n : Nat) :
    selectRingNeighbors me others n ⊆ others.toFinset ∧
    (selectRingNeighbors me others n).card = min (max n 2) others.length ∧
    ∀ b, b ≠ me → Follows (insert me others.toFinset) me b ∨
      Follows (insert me others.toFinset) b me → b ∈ selectRingNeighbors me others n := by
  have hCard : others.toFinset.card = others.length := List.toFinset_card_of_nodup hNodup
  have hOther (b : String) (hNe : b ≠ me) (hb : Follows (insert me others.toFinset) me b ∨
      Follows (insert me others.toFinset) b me) : b ∈ others.toFinset := by
    have hMem : b ∈ insert me others.toFinset := by
      rcases hb with ⟨i, -, -, hb⟩ | ⟨i, -, hb, -⟩
      · exact (Finset.mem_sort _).mp (List.mem_of_getElem? hb)
      · exact (Finset.mem_sort _).mp (List.mem_of_getElem? hb)
    exact (Finset.mem_insert.mp hMem).resolve_left hNe
  unfold selectRingNeighbors
  by_cases hNil : others = []
  · subst hNil
    simpa using hOther
  by_cases hFew : others.length ≤ n
  · rw [if_neg hNil, if_pos hFew]
    exact ⟨subset_rfl, by omega, hOther⟩
  rw [if_neg hNil, if_neg hFew]
  dsimp only
  have hPos := List.length_pos_iff.mpr hNil
  have hLength : (insert me others.toFinset).sort.length = others.length + 1 := by
    rw [Finset.length_sort, Finset.card_insert_of_notMem (by simpa using hMe), hCard]
  have hRingNodup : (insert me others.toFinset).sort.Nodup := Finset.sort_nodup _ _
  have hMem : me ∈ (insert me others.toFinset).sort := by simp
  have hIdx : (insert me others.toFinset).sort[(insert me others.toFinset).sort.idxOf me]? =
      some me := List.getElem?_idxOf hMem
  have hInRing (x : String) : x ∈ (insert me others.toFinset).sort ∧ x ≠ me ↔
      x ∈ others.toFinset := by
    rw [Finset.mem_sort, Finset.mem_insert]
    constructor
    · rintro ⟨hx, hNe⟩
      exact hx.resolve_left hNe
    · intro hx
      exact ⟨.inr hx, fun hSame => hMe (List.mem_toFinset.mp (hSame ▸ hx))⟩
  have hPlace (b : String) := neighbour_place (b := b) hIdx
  generalize (insert me others.toFinset).sort = ring at *
  generalize ring.idxOf me = myIdx at *
  rw [if_pos (by omega)]
  have hNear : ∀ x ∈ ({ringAt ring me (myIdx + 1), ringAt ring me (myIdx + ring.length - 1)} :
      Finset String), x ∈ others.toFinset := by
    intro x hx
    rw [Finset.mem_insert, Finset.mem_singleton] at hx
    rcases hx with rfl | rfl
    · exact (hInRing _).mp ⟨ringAt_mem hIdx _, ringAt_ne hRingNodup hIdx le_rfl (by omega)⟩
    · rw [show myIdx + ring.length - 1 = myIdx + (ring.length - 1) by omega]
      exact (hInRing _).mp
        ⟨ringAt_mem hIdx _, ringAt_ne hRingNodup hIdx (by omega) (by omega)⟩
  have hNearCard : ({ringAt ring me (myIdx + 1), ringAt ring me (myIdx + ring.length - 1)} :
      Finset String).card = min 2 others.length := by
    by_cases hTwo : others.length = 1
    · rw [show myIdx + ring.length - 1 = myIdx + 1 by omega, Finset.pair_eq_singleton,
        Finset.card_singleton, hTwo]
      rfl
    · rw [Finset.card_pair, Nat.min_eq_left (by omega)]
      intro hSame
      obtain ⟨hLt, -⟩ := List.getElem?_eq_some_iff.mp hIdx
      have hMod := place_eq hRingNodup hIdx hSame
      by_cases hFirst : myIdx = 0
      · subst hFirst
        rw [Nat.mod_eq_of_lt (by omega), Nat.mod_eq_of_lt (by omega)] at hMod
        omega
      · rw [show myIdx + ring.length - 1 = (myIdx - 1) + ring.length by omega,
          Nat.add_mod_right, Nat.mod_eq_of_lt (show myIdx - 1 < ring.length by omega)] at hMod
        by_cases hEnd : myIdx + 1 < ring.length
        · rw [Nat.mod_eq_of_lt hEnd] at hMod
          omega
        · rw [show myIdx + 1 = ring.length by omega, Nat.mod_self] at hMod
          omega
  obtain ⟨hSub, hAdded, hBound, hAll⟩ := walkOutward_spec (n := n) hIdx
    (List.range' 2 (ring.length - 2))
    {ringAt ring me (myIdx + 1), ringAt ring me (myIdx + ring.length - 1)}
  have hOthers : walkOutward ring me myIdx n (List.range' 2 (ring.length - 2))
      {ringAt ring me (myIdx + 1), ringAt ring me (myIdx + ring.length - 1)} ⊆
        others.toFinset := by
    intro x hx
    rcases hAdded x hx with hx | hx
    · exact hNear x hx
    · exact (hInRing x).mp hx
  refine ⟨hOthers, ?_, fun b hNe hb => hSub ?_⟩
  · have hLeast := Finset.card_le_card hSub
    rw [hNearCard] at hLeast hBound
    have hMost := Finset.card_le_card hOthers
    rcases hAll with hFull | hEvery
    · omega
    · -- a walk that never filled up has seen everybody
      have hWhole : others.toFinset ⊆ walkOutward ring me myIdx n
          (List.range' 2 (ring.length - 2))
          {ringAt ring me (myIdx + 1), ringAt ring me (myIdx + ring.length - 1)} := by
        intro x hx
        obtain ⟨hRing, hNe⟩ := (hInRing x).mpr hx
        obtain ⟨d, hd, hLt, rfl⟩ := exists_distance hIdx hRing hNe
        by_cases hOne : d = 1
        · subst hOne
          exact hSub (Finset.mem_insert_self _ _)
        · exact hEvery d (List.mem_range'_1.mpr ⟨by omega, by omega⟩) hNe
      have := Finset.card_le_card hWhole
      omega
  · rw [Finset.mem_insert, Finset.mem_singleton]
    exact hPlace b hb

end Selected

/-! ## The edges close the ring -/

section Edges

variable (self : RingSelector) {a b : String} {all : List String}

theorem ringOthers_comm (a b me : String) (all : List String) (h : me = a ∨ me = b) :
    ringOthers a b all me = ringOthers b a all me := by
  rcases h with rfl | rfl <;> simp [ringOthers]

theorem ringEdge_symm (a b : String) (all : List String) :
    self.edge a b all = self.edge b a all := by
  unfold RingSelector.edge
  rw [ringOthers_comm a b a all (.inl rfl), ringOthers_comm a b b all (.inr rfl), Bool.or_comm]

/-- Over the full membership the others are the other members. -/
theorem ringOthers_of_mem (hb : b ∈ all) : ringOthers a b all a = all.filter (· ≠ a) := by
  unfold ringOthers
  by_cases hSame : b = a
  · simp [hSame]
  · simp [hSame, hb]

theorem ringEdge_irrefl (hNodup : all.Nodup) (a : String) : self.edge a a all = false := by
  have hOthers : ringOthers a a all a = all.filter (· ≠ a) := by simp [ringOthers]
  have hSpec := selectRingNeighbors_spec (hNodup.filter fun x => decide (x ≠ a))
    (by simp : a ∉ all.filter fun x => decide (x ≠ a)) self.nPreferred
  have hNot : a ∉ selectRingNeighbors a (all.filter fun x => decide (x ≠ a)) self.nPreferred :=
    fun hMem => by simpa using hSpec.1 hMem
  unfold RingSelector.edge
  rw [hOthers]
  simp only [hNot, decide_false, Bool.or_self]

/-- Neighbours share an edge. -/
theorem ringEdge_of_follows (hNodup : all.Nodup) (hNe : a ≠ b)
    (h : Follows all.toFinset a b) : self.edge a b all = true := by
  obtain ⟨i, -, ha, hb⟩ := id h
  have hMem (x : String) (j : Nat) (hx : all.toFinset.sort[j]? = some x) : x ∈ all :=
    List.mem_toFinset.mp ((Finset.mem_sort _).mp (List.mem_of_getElem? hx))
  have hAll : insert a (all.filter fun x => decide (x ≠ a)).toFinset = all.toFinset := by
    ext x
    by_cases hx : x = a
    · simp [hx, hMem a i ha]
    · simp [hx]
  have hSpec := selectRingNeighbors_spec (hNodup.filter fun x => decide (x ≠ a))
    (by simp : a ∉ all.filter fun x => decide (x ≠ a)) self.nPreferred
  rw [hAll] at hSpec
  unfold RingSelector.edge
  rw [ringOthers_of_mem (hMem b _ hb)]
  simp only [hSpec.2.2 b hNe.symm (.inl h), decide_true, Bool.true_or]

def RingLink (all : List String) (x y : String) : Prop :=
  x ∈ all ∧ y ∈ all ∧ self.edge x y all = true

theorem ringLink_reaches (hNodup : all.Nodup) (i : Nat) : ∀ {x y : String},
    all.toFinset.sort[0]? = some x → all.toFinset.sort[i]? = some y →
    Relation.ReflTransGen (RingLink self all) x y := by
  have hMem (x : String) (j : Nat) (hx : all.toFinset.sort[j]? = some x) : x ∈ all :=
    List.mem_toFinset.mp ((Finset.mem_sort _).mp (List.mem_of_getElem? hx))
  induction i with
  | zero =>
    intro x y hx hy
    obtain rfl := Option.some.inj (hx.symm.trans hy)
    exact .refl
  | succ i ih =>
    intro x y hx hy
    obtain ⟨hLt, -⟩ := List.getElem?_eq_some_iff.mp hy
    have hLength : all.toFinset.sort.length = all.toFinset.card := Finset.length_sort _
    have hBefore := List.getElem?_eq_getElem (show i < all.toFinset.sort.length by omega)
    refine (ih hx hBefore).tail ⟨hMem _ i hBefore, hMem y _ hy, ?_⟩
    refine ringEdge_of_follows self hNodup (fun hSame => ?_)
      ⟨i, by omega, hBefore, by rw [Nat.mod_eq_of_lt (by omega)]; exact hy⟩
    have hPlace := (List.getElem?_inj (by omega) (Finset.sort_nodup all.toFinset (· ≤ ·))).mp
      (hBefore.trans ((congrArg some hSame).trans hy.symm))
    omega

theorem ringLink_connected (hNodup : all.Nodup) (ha : a ∈ all) (hb : b ∈ all) :
    Relation.ReflTransGen (RingLink self all) a b := by
  have : Std.Symm (RingLink self all) :=
    ⟨fun x y h => ⟨h.2.1, h.1, (ringEdge_symm self y x all).trans h.2.2⟩⟩
  have hPlace (x : String) (hx : x ∈ all) : ∃ i, all.toFinset.sort[i]? = some x :=
    List.mem_iff_getElem?.mp ((Finset.mem_sort _).mpr (List.mem_toFinset.mpr hx))
  obtain ⟨i, hi⟩ := hPlace a ha
  obtain ⟨j, hj⟩ := hPlace b hb
  obtain ⟨hLt, -⟩ := List.getElem?_eq_some_iff.mp hi
  have hFirst := List.getElem?_eq_getElem (show 0 < all.toFinset.sort.length by omega)
  exact (Relation.ReflTransGen.stdSymm.symm _ _ (ringLink_reaches self hNodup i hFirst hi)).trans
    (ringLink_reaches self hNodup j hFirst hj)

end Edges

/-- **The ring stays connected.** -/
theorem ring_stays_connected (members : List String) (hNodup : members.Nodup) (n : Nat) :
    (∀ a ∈ members, ∀ others : List String, others.Perm (members.erase a) →
      (∀ b, b ≠ a → Follows members.toFinset a b ∨ Follows members.toFinset b a →
        b ∈ selectRingNeighbors a others n) ∧
      (selectRingNeighbors a others n).card = min (max n 2) others.length ∧
      a ∉ selectRingNeighbors a others n ∧
      selectRingNeighbors a others n = selectRingNeighbors a (members.erase a) n) ∧
    (∀ a b, RingSelector.edge ⟨n⟩ a b members = RingSelector.edge ⟨n⟩ b a members) ∧
    (∀ a, RingSelector.edge ⟨n⟩ a a members = false) ∧
    (∀ a b, a ≠ b → Follows members.toFinset a b → RingSelector.edge ⟨n⟩ a b members = true) ∧
    ∀ a ∈ members, ∀ b ∈ members, Relation.ReflTransGen (RingLink ⟨n⟩ members) a b := by
  refine ⟨fun a ha others hPerm => ?_, fun a b => ringEdge_symm ⟨n⟩ a b members,
    ringEdge_irrefl ⟨n⟩ hNodup, fun a b => ringEdge_of_follows ⟨n⟩ hNodup,
    fun a ha b hb => ringLink_connected ⟨n⟩ hNodup ha hb⟩
  have hOthers : others.Nodup := hPerm.nodup_iff.mpr (hNodup.erase a)
  have hSelf : a ∉ others := fun hMem => by
    have := hPerm.mem_iff.mp hMem
    exact hNodup.not_mem_erase this
  have hMembers : insert a others.toFinset = members.toFinset := by
    ext x
    by_cases hx : x = a
    · simp [hx, ha]
    · simp [hx, hPerm.mem_iff, List.mem_erase_of_ne hx]
  obtain ⟨hSub, hCard, hNear⟩ := selectRingNeighbors_spec hOthers hSelf n
  rw [hMembers] at hNear
  refine ⟨hNear, hCard, fun hMem => hSelf (List.mem_toFinset.mp (hSub hMem)), ?_⟩
  have hEmpty : others = [] ↔ members.erase a = [] := by
    rw [← List.length_eq_zero_iff, hPerm.length_eq, List.length_eq_zero_iff]
  unfold selectRingNeighbors
  simp only [List.toFinset_eq_of_perm _ _ hPerm, hPerm.length_eq, hEmpty]

/-- Three members: each prefers both others whatever its capacity. -/
theorem ring_stays_connected_three :
    (selectRingNeighbors "a" ["c", "b"] 0).card = 2 ∧
      Relation.ReflTransGen (RingLink ⟨0⟩ ["a", "b", "c"]) "a" "c" := by
  have hRing := ring_stays_connected ["a", "b", "c"] (by decide) 0
  exact ⟨(hRing.1 "a" (by decide) ["c", "b"] (by decide)).2.1,
    hRing.2.2.2.2 "a" (by decide) "c" (by decide)⟩

end MyOwnMesh.Topology
