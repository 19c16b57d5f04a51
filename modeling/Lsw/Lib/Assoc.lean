import Mathlib.Tactic.Common

/-!
# Maps as Lists of Entries

A map is a list of keys with their values, read with `List.lookup`.  Inserting replaces what the key
had before; retaining keeps the entries whose key fulfils a condition.
-/

namespace Lsw.Lib

variable {κ ν : Type} [DecidableEq κ]

/-- `BTreeMap::retain`, by the key. -/
def retain (entries : List (κ × ν)) (keep : κ → Bool) : List (κ × ν) :=
  entries.filter fun entry => keep entry.1

/-- `BTreeMap::insert`. -/
def insertEntry (entries : List (κ × ν)) (key : κ) (value : ν) : List (κ × ν) :=
  retain entries (fun other => other ≠ key) ++ [(key, value)]

/-- A lookup in what is retained. -/
theorem lookup_retain (entries : List (κ × ν)) (keep : κ → Bool) (key : κ) :
    (retain entries keep).lookup key = if keep key then entries.lookup key else none := by
  induction entries with
  | nil => simp [retain]
  | cons entry entries ih =>
    obtain ⟨other, value⟩ := entry
    rw [retain, List.filter_cons, List.lookup_cons]
    rw [retain] at ih
    by_cases hkey : key = other
    · subst hkey
      rw [beq_self_eq_true]
      by_cases hkeep : keep key = true
      · rw [if_pos hkeep, if_pos hkeep, List.lookup_cons_self]
      · rw [if_neg hkeep, if_neg hkeep, ih, if_neg hkeep]
    · rw [beq_eq_false_iff_ne.mpr hkey, ← ih]
      by_cases hkeep : keep other = true
      · rw [if_pos hkeep, List.lookup_cons, beq_eq_false_iff_ne.mpr hkey]
      · rw [if_neg hkeep]

theorem lookup_insertEntry (entries : List (κ × ν)) (key other : κ) (value : ν) :
    (insertEntry entries key value).lookup other =
      if other = key then some value else entries.lookup other := by
  rw [insertEntry, List.lookup_append, lookup_retain]
  by_cases h : other = key
  · simp [h]
  · have hne : (other == key) = false := beq_eq_false_iff_ne.mpr h
    simp [h, List.lookup_cons, hne]

theorem mem_insertEntry {entries : List (κ × ν)} {key : κ} {value : ν} {entry : κ × ν}
    (h : entry ∈ insertEntry entries key value) : entry ∈ entries ∨ entry = (key, value) := by
  rcases List.mem_append.mp h with hmem | hmem
  · exact .inl (List.mem_filter.mp hmem).1
  · exact .inr (List.mem_singleton.mp hmem)

/-- What is found is in the list. -/
theorem mem_of_lookup {entries : List (κ × ν)} {key : κ} {value : ν}
    (h : entries.lookup key = some value) : (key, value) ∈ entries := by
  induction entries with
  | nil => simp at h
  | cons entry entries ih =>
    obtain ⟨other, first⟩ := entry
    by_cases hkey : key = other
    · subst hkey
      simp_all
    · have hne : (key == other) = false := beq_eq_false_iff_ne.mpr hkey
      rw [List.lookup_cons, hne] at h
      exact List.mem_cons_of_mem _ (ih h)

end Lsw.Lib
