import MyOwnMesh.Foundation.Collections
import Mathlib.Algebra.BigOperators.Group.Finset.Basic
import Mathlib.Algebra.Order.BigOperators.Group.Finset

/-!
# Sums over ordered maps

The byte ledger of the program adds up the entries of its indexes. `mapSum` is
such a total; it is compared and updated entry by entry.
-/

namespace MyOwnMesh.Foundation

section MapSum

variable {κ β γ : Type} [Ord κ] [Std.TransOrd κ] [Std.LawfulEqOrd κ]

/-- The sum of a weight over all entries. -/
def mapSum (weight : β → Nat) (m : OrdMap κ β) : Nat :=
  (m.toList.map fun entry => weight entry.2).sum

def entryWeight (weight : β → Nat) (entry : Option β) : Nat := entry.elim 0 weight

variable [DecidableEq κ] (weight : β → Nat)

private theorem mapSum_eq_sum_keys (m : OrdMap κ β) :
    mapSum weight m = ∑ k ∈ m.keys.toFinset, entryWeight weight m[k]? := by
  rw [List.sum_toFinset _ Std.ExtTreeMap.nodup_keys]
  unfold mapSum
  rw [← Std.ExtTreeMap.map_fst_toList_eq_keys, List.map_map]
  congr 1
  refine List.map_congr_left fun entry hEntry => ?_
  obtain ⟨k, v⟩ := entry
  rw [Function.comp_apply, Std.ExtTreeMap.mem_toList_iff_getElem?_eq_some.mp hEntry]
  rfl

/-- A sum over the keys may run over any larger set. -/
private theorem mapSum_eq_sum (m : OrdMap κ β) (s : Finset κ) (h : ∀ k, k ∈ m → k ∈ s) :
    mapSum weight m = ∑ k ∈ s, entryWeight weight m[k]? := by
  rw [mapSum_eq_sum_keys]
  refine Finset.sum_subset (fun k hk => ?_) fun k _ hk => ?_
  · rw [List.mem_toFinset, Std.ExtTreeMap.mem_keys] at hk
    exact h k hk
  · rw [List.mem_toFinset, Std.ExtTreeMap.mem_keys] at hk
    rw [Std.ExtTreeMap.getElem?_eq_none hk]
    rfl

theorem mapSum_le {weight' : γ → Nat} {m : OrdMap κ β} {m' : OrdMap κ γ}
    (h : ∀ k : κ, entryWeight weight m[k]? ≤ entryWeight weight' m'[k]?) :
    mapSum weight m ≤ mapSum weight' m' := by
  have hLeft := mapSum_eq_sum weight m (m.keys.toFinset ∪ m'.keys.toFinset) fun k hk => by
    rw [Finset.mem_union, List.mem_toFinset, Std.ExtTreeMap.mem_keys]
    exact .inl hk
  have hRight := mapSum_eq_sum weight' m' (m.keys.toFinset ∪ m'.keys.toFinset) fun k hk => by
    rw [Finset.mem_union, List.mem_toFinset, List.mem_toFinset, Std.ExtTreeMap.mem_keys,
      Std.ExtTreeMap.mem_keys]
    exact .inr hk
  rw [hLeft, hRight]
  exact Finset.sum_le_sum fun k _ => h k

/-- Two maps that differ in one entry differ in its weight. -/
theorem mapSum_update (m m' : OrdMap κ β) (key : κ)
    (h : ∀ k : κ, k ≠ key → m'[k]? = m[k]?) :
    mapSum weight m' + entryWeight weight m[key]? =
      mapSum weight m + entryWeight weight m'[key]? := by
  let s := insert key (m.keys.toFinset ∪ m'.keys.toFinset)
  have hLeft := mapSum_eq_sum weight m s fun k hk => by simp [s, hk]
  have hRight := mapSum_eq_sum weight m' s fun k hk => by simp [s, hk]
  have hKey : key ∈ s := Finset.mem_insert_self key _
  rw [hLeft, hRight, ← Finset.add_sum_erase s _ hKey, ← Finset.add_sum_erase s _ hKey]
  have hRest : ∑ k ∈ s.erase key, entryWeight weight m'[k]? =
      ∑ k ∈ s.erase key, entryWeight weight m[k]? :=
    Finset.sum_congr rfl fun k hk => by rw [h k (Finset.ne_of_mem_erase hk)]
  rw [hRest]
  omega

theorem mapSum_insert (m : OrdMap κ β) (key : κ) (value : β) :
    mapSum weight (m.insert key value) + entryWeight weight m[key]? =
      mapSum weight m + weight value := by
  have h := mapSum_update weight m (m.insert key value) key fun k hk => by
    rw [getElem?_insert_eq, if_neg (Ne.symm hk)]
  rw [h, getElem?_insert_eq, if_pos rfl]
  rfl

/-- A union replaces the entries of its right side. -/
theorem mapSum_union (m changes : OrdMap κ β) :
    mapSum weight (m ∪ changes) + (changes.toList.map fun entry =>
        entryWeight weight m[entry.1]?).sum = mapSum weight m + mapSum weight changes := by
  let s := m.keys.toFinset ∪ changes.keys.toFinset
  have hM := mapSum_eq_sum weight m s fun k hk => by simp [s, hk]
  have hC := mapSum_eq_sum weight changes s fun k hk => by simp [s, hk]
  have hU := mapSum_eq_sum weight (m ∪ changes) s fun k hk => by
    rw [Std.ExtTreeMap.mem_union_iff] at hk
    simpa [s] using hk
  have hReplaced : (changes.toList.map fun entry => entryWeight weight m[entry.1]?).sum =
      ∑ k ∈ s, if k ∈ changes then entryWeight weight m[k]? else 0 := by
    have hKeys : (changes.toList.map fun entry => entryWeight weight m[entry.1]?).sum =
        ∑ k ∈ changes.keys.toFinset, entryWeight weight m[k]? := by
      rw [List.sum_toFinset _ Std.ExtTreeMap.nodup_keys, ← Std.ExtTreeMap.map_fst_toList_eq_keys,
        List.map_map]
      rfl
    have hIf : ∑ k ∈ changes.keys.toFinset, entryWeight weight m[k]? =
        ∑ k ∈ changes.keys.toFinset, if k ∈ changes then entryWeight weight m[k]? else 0 := by
      refine Finset.sum_congr rfl fun k hk => ?_
      rw [List.mem_toFinset, Std.ExtTreeMap.mem_keys] at hk
      rw [if_pos hk]
    rw [hKeys, hIf]
    refine Finset.sum_subset Finset.subset_union_right fun k _ hk => ?_
    rw [List.mem_toFinset, Std.ExtTreeMap.mem_keys] at hk
    rw [if_neg hk]
  rw [hU, hReplaced, hM, hC, ← Finset.sum_add_distrib, ← Finset.sum_add_distrib]
  refine Finset.sum_congr rfl fun k _ => ?_
  rw [Std.ExtTreeMap.getElem?_union]
  cases hGet : changes[k]? with
  | none =>
    rw [if_neg (fun h => by rw [mem_iff_exists, hGet] at h; simp at h)]
    rfl
  | some value =>
    rw [if_pos (mem_iff_exists.mpr ⟨value, hGet⟩), Option.some_or]
    exact Nat.add_comm _ _

/-- A loop that updates each listed entry once, from its own previous value,
changes the sum by what the entries gain and lose. -/
theorem mapSum_foldl (step : OrdMap κ β → κ → OrdMap κ β) (update : κ → Option β → Option β)
    (hGet : ∀ (m : OrdMap κ β) (k a : κ),
      (step m k)[a]? = if k = a then update k m[k]? else m[a]?) (added removed : κ → Nat) :
    ∀ (keys : List κ) (m : OrdMap κ β), keys.Nodup →
      (∀ k ∈ keys, entryWeight weight (update k m[k]?) + removed k =
        entryWeight weight m[k]? + added k) →
      mapSum weight (keys.foldl step m) + (keys.map removed).sum =
        mapSum weight m + (keys.map added).sum := by
  intro keys
  induction keys with
  | nil =>
    intro m _ _
    rfl
  | cons key keys ih =>
    intro m hNodup hEntries
    obtain ⟨hKey, hRest⟩ := List.nodup_cons.mp hNodup
    obtain ⟨hEntry, hLater⟩ := List.forall_mem_cons.mp hEntries
    have hStep := mapSum_update weight m (step m key) key fun k hk => by
      rw [hGet, if_neg (Ne.symm hk)]
    rw [hGet, if_pos rfl] at hStep
    have hTail := ih (step m key) hRest fun k hk => by
      -- the later keys are untouched by the first step
      have hNe : key ≠ k := by
        rintro rfl
        exact hKey hk
      rw [hGet, if_neg hNe]
      exact hLater k hk
    rw [List.foldl_cons, List.map_cons, List.map_cons, List.sum_cons, List.sum_cons]
    omega

omit [DecidableEq κ] [Std.LawfulEqOrd κ] in
theorem mapSum_empty : mapSum weight (∅ : OrdMap κ β) = 0 := rfl

end MapSum

section Size

variable {κ β γ : Type} [Ord κ] [Std.TransOrd κ] [Std.LawfulEqOrd κ] [DecidableEq κ]

omit [Std.LawfulEqOrd κ] in
theorem map_size_eq_card (m : OrdMap κ β) : m.size = m.keys.toFinset.card := by
  rw [List.toFinset_card_of_nodup Std.ExtTreeMap.nodup_keys, Std.ExtTreeMap.length_keys]

theorem map_size_le {m : OrdMap κ β} {m' : OrdMap κ γ} (h : ∀ k : κ, k ∈ m → k ∈ m') :
    m.size ≤ m'.size := by
  rw [map_size_eq_card, map_size_eq_card]
  refine Finset.card_le_card fun k hk => ?_
  rw [List.mem_toFinset, Std.ExtTreeMap.mem_keys] at hk ⊢
  exact h k hk

omit [Std.LawfulEqOrd κ] [DecidableEq κ] in
theorem size_keepMembers (keep : κ → Bool) (s : OrdSet κ) :
    (keepMembers keep s).size = (s.toList.filter keep).length := by
  unfold keepMembers
  refine Std.ExtTreeSet.size_ofList ?_
  exact Std.ExtTreeSet.distinct_toList.filter _

omit [Std.LawfulEqOrd κ] [DecidableEq κ] in
theorem size_insert_of_not_mem {s : OrdSet κ} {a : κ} (h : a ∉ s) :
    (s.insert a).size = s.size + 1 := by
  rw [Std.ExtTreeSet.size_insert, if_neg fun hMem => h (Std.ExtTreeSet.contains_iff_mem.mp hMem)]

/-- A union with distinct members adds those that are new. -/
theorem size_union (s : OrdSet κ) (t : OrdSet κ) :
    (s ∪ t).size = s.size + (t.toList.filter fun a => !s.contains a).length := by
  have hToFinset : ∀ u : OrdSet κ, u.size = u.toList.toFinset.card := fun u => by
    rw [List.toFinset_card_of_nodup (toList_nodup u), Std.ExtTreeSet.length_toList]
  have hFilter : (t.toList.filter fun a => !s.contains a).length =
      (t.toList.filter fun a => !s.contains a).toFinset.card :=
    (List.toFinset_card_of_nodup ((toList_nodup t).filter _)).symm
  rw [hToFinset (s ∪ t), hToFinset s, hFilter, ← Finset.card_union_of_disjoint]
  · congr 1
    ext a
    by_cases ha : a ∈ s
    · simp [ha]
    · have hContains : s.contains a = false :=
        Bool.eq_false_iff.mpr fun h => ha (Std.ExtTreeSet.contains_iff_mem.mp h)
      simp [ha, hContains]
  · rw [Finset.disjoint_left]
    intro a ha hb
    simp only [List.mem_toFinset, Std.ExtTreeSet.mem_toList, List.mem_filter,
      Bool.not_eq_true', ← Bool.not_eq_true, Std.ExtTreeSet.contains_iff_mem] at ha hb
    exact hb.2 ha

end Size

end MyOwnMesh.Foundation
