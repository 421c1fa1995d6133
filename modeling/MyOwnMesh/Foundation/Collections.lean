import Mathlib.Algebra.Order.Ring.Nat
import Mathlib.Data.Finset.Basic
import Mathlib.Data.List.Sort
import Mathlib.Logic.Relation

/-!
# Ordered maps and sets

The program keeps its state in ordered maps and ordered sets. Both are taken
from the standard library as extensional search trees: two maps with the same
lookups are equal, and iteration is by ascending key. This module fixes the
two abbreviations, adds the few operations the standard library has no name
for (a map of sets, a sorted duplicate-free list), and restates lookups with
equality of keys in place of comparisons.
-/

namespace MyOwnMesh.Foundation

/-- An ordered map: iteration is by ascending key, equality is extensional. -/
abbrev OrdMap (κ : Type) (β : Type) [Ord κ] := Std.ExtTreeMap κ β compare

/-- An ordered set: iteration is ascending, equality is extensional. -/
abbrev OrdSet (κ : Type) [Ord κ] := Std.ExtTreeSet κ compare

section Tests

variable {α : Type} {p q : α → Bool} {values : List α}

end Tests

section Keys

variable {κ : Type} [Ord κ]

/-- A comparison pulled back along a numbering is transitive and oriented. -/
theorem transOrd_of_rank (rank : κ → Nat)
    (hRank : ∀ a b : κ, compare a b = compare (rank a) (rank b)) :
    Std.TransOrd κ where
  eq_swap := by
    intro a b
    rw [hRank, hRank b a]
    exact Std.OrientedOrd.eq_swap
  isLE_trans := by
    intro a b c
    rw [hRank a b, hRank b c, hRank a c]
    exact Std.TransCmp.isLE_trans

/-- Along an injective numbering it also decides equality. -/
theorem lawfulEqOrd_of_rank [Std.TransOrd κ] (rank : κ → Nat)
    (hRank : ∀ a b : κ, compare a b = compare (rank a) (rank b))
    (hInj : Function.Injective rank) : Std.LawfulEqOrd κ where
  eq_of_compare := by
    intro a b h
    rw [hRank] at h
    exact hInj (Std.compare_eq_iff_eq.mp h)

end Keys

section Maps

variable {κ : Type} [Ord κ] [Std.TransOrd κ] {β : Type}

variable {m : OrdMap κ β} {k a : κ}

theorem mem_iff_exists : k ∈ m ↔ ∃ v, m[k]? = some v := by
  rw [← Std.ExtTreeMap.isSome_getElem?_iff_mem, Option.isSome_iff_exists]

theorem contains_iff_exists : m.contains k = true ↔ ∃ v, m[k]? = some v := by
  rw [Std.ExtTreeMap.contains_iff_mem, mem_iff_exists]

variable [Std.LawfulEqOrd κ]

theorem getElem?_insert_eq [DecidableEq κ] (m : OrdMap κ β) (k a : κ) (v : β) :
    (m.insert k v)[a]? = if k = a then some v else m[a]? := by
  rw [Std.ExtTreeMap.getElem?_insert]
  simp only [Std.compare_eq_iff_eq]

theorem getElem?_erase_eq [DecidableEq κ] (m : OrdMap κ β) (k a : κ) :
    (m.erase k)[a]? = if k = a then none else m[a]? := by
  rw [Std.ExtTreeMap.getElem?_erase]
  simp only [Std.compare_eq_iff_eq]

theorem getElem?_insert_of_ne {v : β} (h : k ≠ a) : (m.insert k v)[a]? = m[a]? := by
  classical
  rw [getElem?_insert_eq, if_neg h]

theorem getElem?_erase_of_ne (h : k ≠ a) : (m.erase k)[a]? = m[a]? := by
  classical
  rw [getElem?_erase_eq, if_neg h]

omit [Std.LawfulEqOrd κ] in
/-- A fold that changes only the entries of its keys. -/
theorem getElem?_foldl_of_notMem {step : OrdMap κ β → κ → OrdMap κ β}
    (hStep : ∀ (m : OrdMap κ β) (key : κ), key ≠ a → (step m key)[a]? = m[a]?) {keys : List κ}
    (ha : a ∉ keys) : (keys.foldl step m)[a]? = m[a]? :=
  List.foldlRecOn (motive := fun current => current[a]? = m[a]?) keys step rfl
    fun current h key hKey => (hStep current key fun hEq => ha (hEq ▸ hKey)).trans h

theorem mem_map_insert_iff {v : β} : a ∈ m.insert k v ↔ k = a ∨ a ∈ m := by
  rw [Std.ExtTreeMap.mem_insert, Std.compare_eq_iff_eq]

theorem mem_map_erase_iff : a ∈ m.erase k ↔ k ≠ a ∧ a ∈ m := by
  rw [Std.ExtTreeMap.mem_erase]
  simp only [ne_eq, Std.compare_eq_iff_eq]

end Maps

section Sets

variable {κ : Type} [Ord κ] [Std.TransOrd κ] [Std.LawfulEqOrd κ]

theorem mem_insert_iff {s : OrdSet κ} {k a : κ} : a ∈ s.insert k ↔ k = a ∨ a ∈ s := by
  rw [Std.ExtTreeSet.mem_insert]
  simp only [Std.compare_eq_iff_eq]

theorem mem_erase_iff {s : OrdSet κ} {k a : κ} : a ∈ s.erase k ↔ k ≠ a ∧ a ∈ s := by
  rw [Std.ExtTreeSet.mem_erase]
  simp only [ne_eq, Std.compare_eq_iff_eq]

end Sets

/-! ## Maps of sets, and sorted duplicate-free lists -/

section Operations

variable {κ : Type} [Ord κ] [Std.TransOrd κ] {α : Type} [Ord α] [Std.TransOrd α]

/-- `entry(k).or_default().insert(a)` on a map of sets. -/
def addTo (m : OrdMap κ (OrdSet α)) (k : κ) (a : α) : OrdMap κ (OrdSet α) :=
  m.insert k ((m.getD k ∅).insert a)

/-- `map.retain(..)`, by inserting what is kept into an empty map. -/
def keepEntries {β : Type} (keep : κ → β → Bool) (m : OrdMap κ β) : OrdMap κ β :=
  .ofList (m.toList.filter fun entry => keep entry.1 entry.2) compare

/-- `map.iter().filter_map(..).collect()` with unchanged keys. -/
def mapEntries {β γ : Type} (f : κ → β → Option γ) (m : OrdMap κ β) : OrdMap κ γ :=
  .ofList (m.toList.filterMap fun entry => (f entry.1 entry.2).map (Prod.mk entry.1)) compare

/-- `set.retain(..)`. -/
def keepMembers (keep : α → Bool) (s : OrdSet α) : OrdSet α :=
  .ofList (s.toList.filter keep) compare

/-- `values.sort(); values.dedup()`. -/
def sortDedup (values : List α) : List α :=
  (Std.ExtTreeSet.ofList values compare).toList

/-- `values.windows(2).all(|pair| pair[0] < pair[1])`. -/
def strictlyAscending : List α → Bool
  | [] => true
  | [_] => true
  | a :: b :: rest => compare a b == .lt && strictlyAscending (b :: rest)

end Operations

/-! ## Lookups of the operations -/

section Lookups

variable {κ : Type} [Ord κ] [Std.TransOrd κ] [Std.LawfulEqOrd κ] {β γ : Type}

/-- A map built from entries with distinct keys holds exactly those entries. -/
theorem getElem?_ofList_iff {entries : List (κ × β)}
    (hDistinct : entries.Pairwise fun a b => ¬ compare a.1 b.1 = .eq) {k : κ} {v : β} :
    (Std.ExtTreeMap.ofList entries compare : OrdMap κ β)[k]? = some v ↔ (k, v) ∈ entries := by
  classical
  constructor
  · intro h
    by_cases hKey : (entries.map Prod.fst).contains k = true
    · obtain ⟨⟨a, w⟩, hMem, rfl⟩ := List.mem_map.mp (List.contains_iff_mem.mp hKey)
      rw [Std.ExtTreeMap.getElem?_ofList_of_mem Std.ReflOrd.compare_self hDistinct hMem] at h
      rwa [← Option.some.inj h]
    · rw [Std.ExtTreeMap.getElem?_ofList_of_contains_eq_false (Bool.eq_false_iff.mpr hKey)] at h
      cases h
  · exact Std.ExtTreeMap.getElem?_ofList_of_mem Std.ReflOrd.compare_self hDistinct

theorem getElem?_keepEntries (keep : κ → β → Bool) (m : OrdMap κ β) (k : κ) :
    (keepEntries keep m)[k]? = (m[k]?).filter (keep k) := by
  refine Option.ext fun v => ?_
  unfold keepEntries
  rw [getElem?_ofList_iff (Std.ExtTreeMap.distinct_keys_toList.filter _), List.mem_filter,
    Std.ExtTreeMap.mem_toList_iff_getElem?_eq_some, Option.filter_eq_some_iff]

theorem getElem?_mapEntries (f : κ → β → Option γ) (m : OrdMap κ β) (k : κ) :
    (mapEntries f m)[k]? = (m[k]?).bind (f k) := by
  refine Option.ext fun v => ?_
  unfold mapEntries
  have hDistinct : (m.toList.filterMap fun entry =>
      (f entry.1 entry.2).map (Prod.mk entry.1)).Pairwise
        fun a b => ¬ compare a.1 b.1 = .eq := by
    refine List.Pairwise.filterMap _ ?_ Std.ExtTreeMap.distinct_keys_toList
    intro a b hab a' ha' b' hb'
    obtain ⟨_, _, rfl⟩ := Option.map_eq_some_iff.mp ha'
    obtain ⟨_, _, rfl⟩ := Option.map_eq_some_iff.mp hb'
    exact hab
  rw [getElem?_ofList_iff hDistinct, List.mem_filterMap, Option.bind_eq_some_iff]
  constructor
  · rintro ⟨⟨a, w⟩, hMem, hMap⟩
    obtain ⟨x, hx, hPair⟩ := Option.map_eq_some_iff.mp hMap
    cases hPair
    exact ⟨w, Std.ExtTreeMap.mem_toList_iff_getElem?_eq_some.mp hMem, hx⟩
  · rintro ⟨w, hGet, hf⟩
    exact ⟨(k, w), Std.ExtTreeMap.mem_toList_iff_getElem?_eq_some.mpr hGet, by simp [hf]⟩

variable {values : List κ}

theorem mem_setOfList {a : κ} :
    a ∈ (Std.ExtTreeSet.ofList values compare : OrdSet κ) ↔ a ∈ values := by
  classical
  rw [Std.ExtTreeSet.mem_ofList, List.contains_iff_mem]

theorem mem_keepMembers {keep : κ → Bool} {s : OrdSet κ} {a : κ} :
    a ∈ keepMembers keep s ↔ a ∈ s ∧ keep a = true := by
  unfold keepMembers
  rw [mem_setOfList, List.mem_filter, Std.ExtTreeSet.mem_toList]

theorem set_ext {s t : OrdSet κ} (h : ∀ a : κ, a ∈ s ↔ a ∈ t) : s = t :=
  Std.ExtTreeSet.ext_mem fun {a} => h a

@[simp] theorem mem_sortDedup {a : κ} : a ∈ sortDedup values ↔ a ∈ values := by
  unfold sortDedup
  rw [Std.ExtTreeSet.mem_toList, mem_setOfList]

theorem toList_nodup (s : OrdSet κ) : s.toList.Nodup := by
  refine List.Pairwise.imp ?_ Std.ExtTreeSet.distinct_toList
  rintro a b h rfl
  exact h Std.ReflOrd.compare_self

theorem sortDedup_nodup (values : List κ) : (sortDedup values).Nodup := toList_nodup _

omit [Std.LawfulEqOrd κ] in
theorem sortDedup_ordered (values : List κ) :
    (sortDedup values).Pairwise fun a b => compare a b = .lt :=
  Std.ExtTreeSet.ordered_toList

theorem sortDedup_of_ordered (h : values.Pairwise fun a b => compare a b = .lt) :
    sortDedup values = values := by
  have hNodup : values.Nodup := by
    refine h.imp ?_
    rintro a b hLt rfl
    rw [Std.ReflOrd.compare_self] at hLt
    cases hLt
  refine ((List.perm_ext_iff_of_nodup (sortDedup_nodup values) hNodup).mpr
    fun a => mem_sortDedup).eq_of_pairwise ?_ (sortDedup_ordered values) h
  intro a b _ _ hab hba
  have hSwap : compare b a = (compare a b).swap := Std.OrientedCmp.eq_swap
  rw [hSwap, hab] at hba
  cases hba

omit [Std.TransOrd κ] [Std.LawfulEqOrd κ] in
theorem strictlyAscending_of_pairwise (h : values.Pairwise fun a b => compare a b = .lt) :
    strictlyAscending values = true := by
  induction values with
  | nil => rfl
  | cons a rest ih =>
    rw [List.pairwise_cons] at h
    cases rest with
    | nil => rfl
    | cons b rest => simp [strictlyAscending, h.1 b (by simp), ih h.2]

theorem exists_mem_of_not_isEmpty {m : OrdMap κ β} (h : ¬ m.isEmpty = true) : ∃ k, k ∈ m := by
  rw [← Std.ExtTreeMap.isEmpty_keys, List.isEmpty_iff] at h
  obtain ⟨k, hk⟩ := List.exists_mem_of_ne_nil _ h
  exact ⟨k, Std.ExtTreeMap.mem_keys.mp hk⟩

omit [Std.LawfulEqOrd κ] in
theorem getD_eq_getElem?_getD (m : OrdMap κ β) (k : κ) (fallback : β) :
    m.getD k fallback = (m[k]?).getD fallback :=
  Std.ExtTreeMap.getD_eq_getD_getElem?

end Lookups

section Entries

variable {κ : Type} [Ord κ] [Std.TransOrd κ] [Std.LawfulEqOrd κ]
variable {α : Type} [Ord α] [Std.TransOrd α] [Std.LawfulEqOrd α]

omit [Std.LawfulEqOrd α] in
theorem getElem?_addTo (m : OrdMap κ (OrdSet α)) (k a : κ) (x : α) [DecidableEq κ] :
    (addTo m k x)[a]? = if k = a then some ((m.getD k ∅).insert x) else m[a]? :=
  getElem?_insert_eq m k a _

theorem mem_addTo {m : OrdMap κ (OrdSet α)} {k a : κ} {x y : α} :
    y ∈ (addTo m k x).getD a ∅ ↔ (k = a ∧ x = y) ∨ y ∈ m.getD a ∅ := by
  classical
  rw [getD_eq_getElem?_getD, getElem?_addTo]
  by_cases h : k = a
  · subst h
    simp
  · simp [h, getD_eq_getElem?_getD]

omit [Std.LawfulEqOrd α] in

/-- A map of sets that holds exactly the pairs of a relation, and no empty set. -/
structure IndexOf (m : OrdMap κ (OrdSet α)) (member : κ → α → Prop) : Prop where
  mem_iff : ∀ (k : κ) (a : α), a ∈ m.getD k ∅ ↔ member k a
  nonempty : ∀ (k : κ) (s : OrdSet α), m[k]? = some s → ∃ a, a ∈ s

namespace IndexOf

variable {m m' : OrdMap κ (OrdSet α)} {member member' : κ → α → Prop}

omit [Std.LawfulEqOrd κ] [Std.LawfulEqOrd α] in
theorem congr (h : IndexOf m member) (hMember : ∀ k a, member k a ↔ member' k a) :
    IndexOf m member' where
  mem_iff k a := (h.mem_iff k a).trans (hMember k a)
  nonempty := h.nonempty

omit [Std.LawfulEqOrd κ] [Std.LawfulEqOrd α] in
/-- A key is present exactly when it has a pair. -/
theorem mem_key_iff (h : IndexOf m member) (k : κ) : k ∈ m ↔ ∃ a, member k a := by
  rw [mem_iff_exists]
  constructor
  · rintro ⟨s, hGet⟩
    obtain ⟨a, ha⟩ := h.nonempty k s hGet
    refine ⟨a, (h.mem_iff k a).mp ?_⟩
    rwa [getD_eq_getElem?_getD, hGet]
  · rintro ⟨a, ha⟩
    have hMem := (h.mem_iff k a).mpr ha
    rw [getD_eq_getElem?_getD] at hMem
    cases hGet : m[k]? with
    | none =>
      rw [hGet] at hMem
      exact absurd hMem Std.ExtTreeSet.not_mem_empty
    | some s => exact ⟨s, rfl⟩

omit [Std.LawfulEqOrd κ] in
theorem getElem?_eq (h : IndexOf m member) (h' : IndexOf m' member') {k : κ}
    (hMember : ∀ a, member k a ↔ member' k a) : m[k]? = m'[k]? := by
  have hSets : m.getD k ∅ = m'.getD k ∅ :=
    set_ext fun a => (h.mem_iff k a).trans ((hMember a).trans (h'.mem_iff k a).symm)
  have hKeys : k ∈ m ↔ k ∈ m' :=
    (h.mem_key_iff k).trans ((exists_congr hMember).trans (h'.mem_key_iff k).symm)
  rw [mem_iff_exists, mem_iff_exists] at hKeys
  rw [getD_eq_getElem?_getD, getD_eq_getElem?_getD] at hSets
  cases hGet : m[k]? with
  | none =>
    cases hGet' : m'[k]? with
    | none => rfl
    | some s =>
      obtain ⟨t, ht⟩ := hKeys.mpr ⟨s, hGet'⟩
      rw [hGet] at ht
      cases ht
  | some s =>
    obtain ⟨t, ht⟩ := hKeys.mp ⟨s, hGet⟩
    rw [hGet, ht] at hSets
    rw [ht]
    exact congrArg some hSets

theorem unique (h : IndexOf m member) (h' : IndexOf m' member) : m = m' :=
  Std.ExtTreeMap.ext_getElem? fun _ => h.getElem?_eq h' fun _ => Iff.rfl

omit [Std.LawfulEqOrd κ] [Std.LawfulEqOrd α] in
theorem empty (h : ∀ k a, ¬ member k a) : IndexOf (∅ : OrdMap κ (OrdSet α)) member where
  mem_iff k a := by simp [h k a]
  nonempty k s hGet := by simp at hGet

theorem addTo (h : IndexOf m member) (k : κ) (x : α) :
    IndexOf (addTo m k x) (fun k' a => (k = k' ∧ x = a) ∨ member k' a) where
  mem_iff k' a := by rw [mem_addTo, h.mem_iff]
  nonempty k' s hGet := by
    classical
    rw [getElem?_addTo] at hGet
    split at hGet
    · refine ⟨x, ?_⟩
      rw [← Option.some.inj hGet, mem_insert_iff]
      exact .inl rfl
    · exact h.nonempty k' s hGet

theorem foldl_addTo (x : α) (keys : List κ) : ∀ {m : OrdMap κ (OrdSet α)}
    {member : κ → α → Prop}, IndexOf m member →
      IndexOf (keys.foldl (fun m k => Foundation.addTo m k x) m)
        (fun k a => (k ∈ keys ∧ x = a) ∨ member k a) := by
  induction keys with
  | nil =>
    intro m member h
    exact h.congr fun k a => by simp
  | cons key keys ih =>
    intro m member h
    refine (ih (h.addTo key x)).congr fun k a => ?_
    rw [List.mem_cons, eq_comm (a := k)]
    tauto

/-- Adding the value of every item of a list under all keys of that item. -/
theorem foldl_items {γ : Type} (keysOf : γ → List κ) (valueOf : γ → α) (items : List γ) :
    ∀ {m : OrdMap κ (OrdSet α)} {member : κ → α → Prop}, IndexOf m member →
      IndexOf (items.foldl (fun m item =>
          (keysOf item).foldl (fun m k => Foundation.addTo m k (valueOf item)) m) m)
        (fun k a => (∃ item ∈ items, k ∈ keysOf item ∧ valueOf item = a) ∨ member k a) := by
  induction items with
  | nil =>
    intro m member h
    exact h.congr fun k a => by simp
  | cons item items ih =>
    intro m member h
    refine (ih (foldl_addTo (valueOf item) (keysOf item) h)).congr fun k a => ?_
    rw [← or_assoc, or_comm (a := ∃ item ∈ items, _)]
    simp only [List.mem_cons, exists_eq_or_imp]

end IndexOf

end Entries

end MyOwnMesh.Foundation
