import MyOwnMesh.Foundation.Patricia

/-!
# Sparse undo logs

A mutation that touches few entries of a map is undone from the previous values
of just those entries. A log maps a touched key to its previous value, or to
`none` when the key was absent; the first capture of a key wins. `Covers` says
that a log holds the base value of each of its keys and that every other key is
unchanged: then restoring the log gives the base map back
(`restoreEntries_of_covers`).
-/

namespace MyOwnMesh.Foundation

section UndoLog

variable {κ β : Type} [Ord κ] [Std.TransOrd κ]

def restoreEntries (m : OrdMap κ β) (log : OrdMap κ (Option β)) : OrdMap κ β :=
  log.toList.foldl (fun m (key, value) => assign m key value) m

def restoreMembers (s : OrdSet κ) (log : OrdMap κ Bool) : OrdSet κ :=
  log.toList.foldl (fun s (key, present) => if present then s.insert key else s.erase key) s

variable [Std.LawfulEqOrd κ]

/-- A log that undoes the change from `base` to `current`. -/
structure Covers (log : OrdMap κ (Option β)) (base current : OrdMap κ β) : Prop where
  captured : ∀ (key : κ) (value : Option β), log[key]? = some value → value = base[key]?
  frame : ∀ key : κ, log[key]? = none → current[key]? = base[key]?

private theorem getElem?_foldl_assign (entries : List (κ × Option β))
    (hNodup : (entries.map Prod.fst).Nodup) : ∀ (m : OrdMap κ β) (a : κ),
      (entries.foldl (fun m (key, value) => assign m key value) m)[a]? =
        ((entries.find? fun entry => compare entry.1 a == .eq).map Prod.snd).getD m[a]? := by
  induction entries with
  | nil => intro m a; rfl
  | cons entry entries ih =>
    intro m a
    obtain ⟨key, value⟩ := entry
    obtain ⟨hKey, hRest⟩ := List.nodup_cons.mp hNodup
    rw [List.foldl_cons, ih hRest, List.find?_cons]
    have hAssign : (assign m key value)[a]? = if compare key a = .eq then value else m[a]? := by
      cases value with
      | none => exact Std.ExtTreeMap.getElem?_erase
      | some value => exact Std.ExtTreeMap.getElem?_insert
    by_cases hEq : compare key a = .eq
    · have hFind : entries.find? (fun entry => compare entry.1 a == .eq) = none := by
        rw [List.find?_eq_none]
        intro other hOther hCmp
        have hOtherKey : other.1 = a :=
          Std.LawfulEqOrd.eq_of_compare (beq_iff_eq.mp hCmp)
        have hKeyA : key = a := Std.LawfulEqOrd.eq_of_compare hEq
        exact hKey (List.mem_map.mpr ⟨other, hOther, hOtherKey.trans hKeyA.symm⟩)
      simp [hFind, hAssign, hEq]
    · have hNe : (compare key a == .eq) = false := beq_eq_false_iff_ne.mpr hEq
      simp [hAssign, hEq, hNe]

/-- Lookups after assigning the values of a function. -/
theorem getElem?_foldl_assign_values (valueOf : κ → Option β) (keys : List κ) [DecidableEq κ] :
    ∀ (m : OrdMap κ β) (a : κ), (keys.foldl (fun m key => assign m key (valueOf key)) m)[a]? =
      if a ∈ keys then valueOf a else m[a]? := by
  induction keys with
  | nil => intro m a; simp
  | cons key keys ih =>
    intro m a
    rw [List.foldl_cons, ih, getElem?_assign]
    by_cases hMem : a ∈ keys
    · rw [if_pos hMem, if_pos (List.mem_cons_of_mem key hMem)]
    · by_cases hEq : key = a
      · rw [if_neg hMem, if_pos hEq, if_pos (hEq ▸ List.mem_cons_self), hEq]
      · rw [if_neg hMem, if_neg hEq, if_neg]
        exact fun h => (List.mem_cons.mp h).elim (fun h => hEq h.symm) hMem

/-- Lookups after a restore: the logged value, or the current one. -/
theorem getElem?_restoreEntries (m : OrdMap κ β) (log : OrdMap κ (Option β)) (a : κ) :
    (restoreEntries m log)[a]? = (log[a]?).getD m[a]? := by
  have hNodup : (log.toList.map Prod.fst).Nodup := by
    rw [Std.ExtTreeMap.map_fst_toList_eq_keys]
    exact Std.ExtTreeMap.nodup_keys
  unfold restoreEntries
  rw [getElem?_foldl_assign _ hNodup]
  congr 1
  cases hFind : log.toList.find? fun entry => compare entry.1 a == .eq with
  | none =>
    have hNone : log[a]? = none := by
      by_contra hSome
      obtain ⟨value, hValue⟩ := Option.ne_none_iff_exists'.mp hSome
      have hMem := Std.ExtTreeMap.mem_toList_iff_getElem?_eq_some.mpr hValue
      have := List.find?_eq_none.mp hFind _ hMem
      exact this (beq_iff_eq.mpr Std.ReflOrd.compare_self)
    rw [hNone]
    rfl
  | some entry =>
    obtain ⟨key, value⟩ := entry
    have hMem := List.mem_of_find?_eq_some hFind
    have hCmp := List.find?_some hFind
    have hKey : key = a := Std.LawfulEqOrd.eq_of_compare (beq_iff_eq.mp hCmp)
    subst hKey
    rw [Std.ExtTreeMap.mem_toList_iff_getElem?_eq_some.mp hMem]
    rfl

/-- Assigning every entry of a map to the empty map gives the map. -/
theorem foldl_assign_toList (m : OrdMap κ β) :
    m.toList.foldl (fun m (entry : κ × β) => assign m entry.1 (some entry.2)) ∅ = m := by
  have hLog : restoreEntries (∅ : OrdMap κ β) (m.map fun _ value => some value) = m := by
    refine Std.ExtTreeMap.ext_getElem? fun a => ?_
    rw [getElem?_restoreEntries, Std.ExtTreeMap.getElem?_map]
    cases m[a]? <;> simp
  unfold restoreEntries at hLog
  rwa [Std.ExtTreeMap.toList_map, List.foldl_map] at hLog

variable {log : OrdMap κ (Option β)} {base current : OrdMap κ β}

/-- **A covering log restores its base.** -/
theorem restoreEntries_of_covers (h : Covers log base current) :
    restoreEntries current log = base := by
  refine Std.ExtTreeMap.ext_getElem? fun a => ?_
  rw [getElem?_restoreEntries]
  cases hLog : log[a]? with
  | none => exact h.frame a hLog
  | some value => exact h.captured a value hLog

/-- Recording the current value of an unrecorded key, which is its base value. -/
theorem Covers.capture (h : Covers log base current) (key : κ) :
    Covers (log.insertIfNew key current[key]?) base current where
  captured a value hGet := by
    rw [Std.ExtTreeMap.getElem?_insertIfNew] at hGet
    split at hGet
    · rename_i hNew
      have hKey : key = a := Std.LawfulEqOrd.eq_of_compare hNew.1
      subst hKey
      rw [← Option.some.inj hGet]
      refine h.frame key ?_
      rw [Std.ExtTreeMap.getElem?_eq_none hNew.2]
    · exact h.captured a value hGet
  frame a hNone := by
    rw [Std.ExtTreeMap.getElem?_insertIfNew] at hNone
    split at hNone
    · cases hNone
    · exact h.frame a hNone

omit [Std.LawfulEqOrd κ] in
/-- A change of recorded keys only. -/
theorem Covers.update {next : OrdMap κ β} (h : Covers log base current)
    (hNext : ∀ key : κ, key ∉ log → next[key]? = current[key]?) :
    Covers log base next where
  captured := h.captured
  frame key hNone := by
    refine (hNext key fun hMem => ?_).trans (h.frame key hNone)
    obtain ⟨value, hValue⟩ := mem_iff_exists.mp hMem
    rw [hNone] at hValue
    cases hValue

omit [Std.LawfulEqOrd κ] in
theorem Covers.refl (base : OrdMap κ β) : Covers (∅ : OrdMap κ (Option β)) base base where
  captured key value hGet := by simp at hGet
  frame _ _ := rfl

theorem mem_insertIfNew_iff {γ : Type} {log : OrdMap κ γ} {key a : κ} {value : γ} :
    a ∈ log.insertIfNew key value ↔ key = a ∨ a ∈ log := by
  rw [Std.ExtTreeMap.mem_insertIfNew, Std.compare_eq_iff_eq]

theorem Covers.foldl_capture (h : Covers log base current) (keys : List κ) :
    Covers (keys.foldl (fun log key => log.insertIfNew key current[key]?) log) base current :=
  List.foldlRecOn (motive := (Covers · base current)) keys _ h fun _ h key _ => h.capture key

theorem mem_foldl_insertIfNew {γ : Type} {valueOf : κ → γ} {a : κ} (keys : List κ) :
    ∀ {log : OrdMap κ γ},
      a ∈ keys.foldl (fun log key => log.insertIfNew key (valueOf key)) log ↔
        a ∈ keys ∨ a ∈ log := by
  induction keys with
  | nil => simp
  | cons key keys ih =>
    intro log
    rw [List.foldl_cons, ih, mem_insertIfNew_iff, List.mem_cons, eq_comm (a := a)]
    tauto

/-! ## Logs of membership -/

/-- A log that undoes the change of a set. -/
structure CoversSet (log : OrdMap κ Bool) (base current : OrdSet κ) : Prop where
  captured : ∀ (key : κ) (present : Bool), log[key]? = some present →
    present = base.contains key
  frame : ∀ key : κ, log[key]? = none → (key ∈ current ↔ key ∈ base)

private theorem mem_foldl_restore (entries : List (κ × Bool))
    (hNodup : (entries.map Prod.fst).Nodup) : ∀ (s : OrdSet κ) (a : κ),
      a ∈ entries.foldl (fun s (entry : κ × Bool) =>
        if entry.2 then s.insert entry.1 else s.erase entry.1) s ↔
      (a, true) ∈ entries ∨ (∀ present, (a, present) ∉ entries) ∧ a ∈ s := by
  induction entries with
  | nil => intro s a; simp
  | cons entry entries ih =>
    intro s a
    obtain ⟨key, present⟩ := entry
    obtain ⟨hKey, hRest⟩ := List.nodup_cons.mp hNodup
    have hFresh : ∀ flag, (key, flag) ∉ entries := fun flag hMem =>
      hKey (List.mem_map.mpr ⟨(key, flag), hMem, rfl⟩)
    rw [List.foldl_cons, ih hRest]
    by_cases hEq : key = a
    · subst hEq
      cases present <;> simp [hFresh]
    · have hNe : ∀ flag flag' : Bool, (a, flag) ≠ (key, flag') := fun flag flag' h =>
        hEq (congrArg Prod.fst h).symm
      cases present <;> simp [hEq, hNe]

variable {log : OrdMap κ Bool} {base current : OrdSet κ}

/-- **A covering log restores its set.** -/
theorem restoreMembers_of_covers (h : CoversSet log base current) :
    restoreMembers current log = base := by
  have hNodup : (log.toList.map Prod.fst).Nodup := by
    rw [Std.ExtTreeMap.map_fst_toList_eq_keys]
    exact Std.ExtTreeMap.nodup_keys
  refine set_ext fun a => ?_
  unfold restoreMembers
  rw [mem_foldl_restore _ hNodup]
  simp only [Std.ExtTreeMap.mem_toList_iff_getElem?_eq_some]
  cases hLog : log[a]? with
  | none =>
    simp only [reduceCtorEq, not_false_eq_true, implies_true, true_and, false_or]
    exact h.frame a hLog
  | some present =>
    have hBase := h.captured a present hLog
    rw [← Std.ExtTreeSet.contains_iff_mem (t := base), ← hBase]
    simp

theorem CoversSet.capture (h : CoversSet log base current) (key : κ) :
    CoversSet (log.insertIfNew key (current.contains key)) base current where
  captured a value hGet := by
    rw [Std.ExtTreeMap.getElem?_insertIfNew] at hGet
    split at hGet
    · rename_i hNew
      have hKey : key = a := Std.LawfulEqOrd.eq_of_compare hNew.1
      subst hKey
      have hFrame := h.frame key (Std.ExtTreeMap.getElem?_eq_none hNew.2)
      rw [← Option.some.inj hGet, Bool.eq_iff_iff, Std.ExtTreeSet.contains_iff_mem,
        Std.ExtTreeSet.contains_iff_mem, hFrame]
    · exact h.captured a value hGet
  frame a hNone := by
    rw [Std.ExtTreeMap.getElem?_insertIfNew] at hNone
    split at hNone
    · cases hNone
    · exact h.frame a hNone

omit [Std.LawfulEqOrd κ] in
theorem CoversSet.update {next : OrdSet κ} (h : CoversSet log base current)
    (hNext : ∀ key : κ, key ∉ log → (key ∈ next ↔ key ∈ current)) :
    CoversSet log base next where
  captured := h.captured
  frame key hNone := by
    refine (hNext key fun hMem => ?_).trans (h.frame key hNone)
    obtain ⟨value, hValue⟩ := mem_iff_exists.mp hMem
    rw [hNone] at hValue
    cases hValue

omit [Std.LawfulEqOrd κ] in
theorem CoversSet.refl (base : OrdSet κ) : CoversSet (∅ : OrdMap κ Bool) base base where
  captured key value hGet := by simp at hGet
  frame _ _ := Iff.rfl

end UndoLog

end MyOwnMesh.Foundation
