import Mathlib.Data.List.Nodup

/-!
# Lists with distinct keys

A map whose order nothing depends on is a list of entries with distinct keys: a lookup is
the first entry with a key, and a removal keeps the entries with other keys.
-/

namespace MyOwnMesh.Foundation

variable {α κ : Type*} [DecidableEq κ] {key : α → κ} {entries : List α} {k : κ} {entry : α}

theorem key_of_find (h : entries.find? (key · = k) = some entry) : key entry = k := by
  simpa using List.find?_some h

/-- The entry with a key and those with other keys are all entries. -/
theorem perm_cons_of_find (hNodup : (entries.map key).Nodup)
    (h : entries.find? (key · = k) = some entry) :
    entries.Perm (entry :: entries.filter (key · ≠ k)) := by
  have hKey := key_of_find h
  obtain ⟨front, back, hSplit⟩ := List.append_of_mem (List.mem_of_find?_eq_some h)
  rw [hSplit, List.map_append, List.map_cons, List.nodup_middle, List.nodup_cons, hKey,
    ← List.map_append] at hNodup
  have hOthers : (front ++ back).filter (key · ≠ k) = front ++ back := by
    rw [List.filter_eq_self]
    intro other hOther
    simpa using fun hSame : key other = k => hNodup.1 (hSame ▸ List.mem_map_of_mem hOther)
  rw [hSplit, List.filter_append, List.filter_cons_of_neg (by simp [hKey]),
    ← List.filter_append, hOthers]
  exact List.perm_middle

theorem find_of_mem (hNodup : (entries.map key).Nodup) (hMem : entry ∈ entries) :
    entries.find? (key · = key entry) = some entry := by
  cases hFind : entries.find? (key · = key entry) with
  | none => exact absurd (List.find?_eq_none.mp hFind entry hMem) (by simp)
  | some found =>
    rw [List.inj_on_of_nodup_map hNodup (List.mem_of_find?_eq_some hFind) hMem (key_of_find hFind)]

end MyOwnMesh.Foundation
