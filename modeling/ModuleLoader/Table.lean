/-!
# Finite tables

A table holds values under names, in ascending order of the names.  The module gives reading,
writing and listing, the two equations by which reading sees a write, `get?_set_self` and
`get?_set_of_ne`, and what reading sees after several writes.
-/

set_option autoImplicit false

namespace ModuleLoader

/-- Values under names. -/
structure Table (α : Type) where
  entries : List (String × α)
deriving Repr

namespace Table

variable {α β : Type}

/-- The table without entries. -/
def empty : Table α := ⟨[]⟩

instance : Inhabited (Table α) := ⟨empty⟩

/-- The value under a name in a list of entries. -/
def lookup (key : String) : List (String × α) → Option α
  | [] => none
  | (k, v) :: rest => if k = key then some v else lookup key rest

/-- Put a value under a name, in place of the old one or before the first greater name. -/
def update (key : String) (value : α) : List (String × α) → List (String × α)
  | [] => [(key, value)]
  | (k, v) :: rest =>
    if k = key then (key, value) :: rest
    else if key < k then (key, value) :: (k, v) :: rest
    else (k, v) :: update key value rest

/-- The value under a name, if there is one. -/
def get? (t : Table α) (key : String) : Option α := lookup key t.entries

/-- Put a value under a name; the names stay in ascending order. -/
def set (t : Table α) (key : String) (value : α) : Table α := ⟨update key value t.entries⟩

/-- Whether there is a value under a name. -/
def contains (t : Table α) (key : String) : Bool := (t.get? key).isSome

/-- The names, in ascending order. -/
def keys (t : Table α) : List String := t.entries.map (·.1)

/-- The number of entries. -/
def size (t : Table α) : Nat := t.entries.length

/-- Put several values under their names, one after the other. -/
def setAll (t : Table α) (entries : List (String × α)) : Table α :=
  entries.foldl (fun t e => t.set e.1 e.2) t

/-- The table of a list of entries; a later entry replaces an earlier one of its name. -/
def ofList (entries : List (String × α)) : Table α := empty.setAll entries

/-- Change every value; the names stay. -/
def map (f : α → β) (t : Table α) : Table β := ⟨t.entries.map fun e => (e.1, f e.2)⟩

/-- An empty table has no entry. -/
@[simp] theorem get?_empty (key : String) : (empty : Table α).get? key = none := rfl

/-- Under a name stands the value that was put there. -/
@[simp] theorem get?_set_self (t : Table α) (key : String) (value : α) :
    (t.set key value).get? key = some value := by
  show lookup key (update key value t.entries) = some value
  induction t.entries with
  | nil => simp [update, lookup]
  | cons e rest ih =>
    simp only [update]
    split
    · simp [lookup]
    · rename_i hk
      split
      · simp [lookup]
      · simpa [lookup, hk] using ih

/-- Putting a value under a name leaves the other names alone. -/
theorem get?_set_of_ne (t : Table α) {key other : String} (value : α) (h : other ≠ key) :
    (t.set key value).get? other = t.get? other := by
  show lookup other (update key value t.entries) = lookup other t.entries
  induction t.entries with
  | nil => simp [update, lookup, Ne.symm h]
  | cons e rest ih =>
    simp only [update]
    split
    · rename_i hk
      simp [lookup, Ne.symm h, hk]
    · split
      · simp [lookup, Ne.symm h]
      · simp only [lookup, ih]

/-- Reading after a write: the written value under its name, the old value elsewhere. -/
theorem get?_set (t : Table α) (key other : String) (value : α) :
    (t.set key value).get? other = if other = key then some value else t.get? other := by
  split
  · rename_i h
    rw [h, get?_set_self]
  · rename_i h
    exact get?_set_of_ne t value h

/-- Putting values under several names leaves the others alone. -/
theorem get?_setAll_of_not_mem (t : Table α) {entries : List (String × α)} {key : String}
    (h : key ∉ entries.map (·.1)) : (t.setAll entries).get? key = t.get? key := by
  induction entries generalizing t with
  | nil => rfl
  | cons e entries ih =>
    rw [List.map_cons, List.mem_cons, not_or] at h
    exact (ih (t.set e.1 e.2) h.2).trans (t.get?_set_of_ne e.2 h.1)

/-- A name that no entry is for keeps its value. -/
theorem get?_setAll_of_forall_not_mem (t : Table α) {entries : List (String × α)} {key : String}
    (h : ∀ value, (key, value) ∉ entries) : (t.setAll entries).get? key = t.get? key := by
  apply get?_setAll_of_not_mem
  intro hmem
  obtain ⟨entry, hentry, rfl⟩ := List.mem_map.1 hmem
  exact h entry.2 hentry

/-- Where no two entries have one name, each is found again. -/
theorem get?_setAll_of_mem (t : Table α) {entries : List (String × α)}
    (hnodup : (entries.map (·.1)).Nodup) {e : String × α} (he : e ∈ entries) :
    (t.setAll entries).get? e.1 = some e.2 := by
  induction entries generalizing t with
  | nil => cases he
  | cons first entries ih =>
    rw [List.map_cons, List.nodup_cons] at hnodup
    rcases List.mem_cons.1 he with rfl | he
    · exact ((t.set e.1 e.2).get?_setAll_of_not_mem hnodup.1).trans (t.get?_set_self e.1 e.2)
    · exact ih (t.set first.1 first.2) hnodup.2 he

/-- After several values were put under names, there is one where one was or was put. -/
theorem get?_setAll_ne_none (t : Table α) (entries : List (String × α)) (name : String) :
    (t.setAll entries).get? name ≠ none ↔
      t.get? name ≠ none ∨ name ∈ entries.map (·.1) := by
  induction entries generalizing t with
  | nil => simp [setAll]
  | cons e entries ih =>
    show ((t.set e.1 e.2).setAll entries).get? name ≠ none ↔ _
    rw [ih, get?_set, List.map_cons, List.mem_cons, ← or_assoc]
    apply or_congr_left
    by_cases hname : name = e.1
    · simp [hname]
    · simp [hname]

end Table

end ModuleLoader
