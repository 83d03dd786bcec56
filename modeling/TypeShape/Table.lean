/-!
Tables from names to values that keep their order.

A name that is put a second time keeps the place of its first entry and takes
the new value, so a table lists its names in the order in which they were first
put, each once.
-/
namespace TypeShape

variable {α : Type}

/-- Puts a value under a name: in the place of the name's entry if it has one,
else at the end. -/
def putEntry (name : String) (value : α) : List (String × α) → List (String × α)
  | [] => [(name, value)]
  | entry :: rest =>
    if entry.1 = name then (name, value) :: rest
      else entry :: putEntry name value rest

def entryNames (entries : List (String × α)) : List String :=
  entries.map Prod.fst

/-- A second put under a name leaves the list of names as it was; a first one
adds the name at the end. -/
theorem entryNames_putEntry (name : String) (value : α)
    (entries : List (String × α)) :
    entryNames (putEntry name value entries) =
      if name ∈ entryNames entries then entryNames entries
        else entryNames entries ++ [name] := by
  induction entries with
  | nil => simp [putEntry, entryNames]
  | cons entry rest ih =>
    by_cases hname : entry.1 = name
    · simp [putEntry, entryNames, hname]
    · have hne : ¬ name = entry.1 := fun h => hname h.symm
      simp only [entryNames] at ih
      simp only [putEntry, hname, if_false, entryNames, List.map_cons, ih,
        List.mem_cons, hne, false_or]
      split <;> simp [*]

/-- Looking a name up after a put finds the value put there, and at every other
name what was found before. -/
theorem lookup_putEntry (name other : String) (value : α)
    (entries : List (String × α)) :
    (putEntry name value entries).lookup other =
      if other = name then some value else entries.lookup other := by
  induction entries with
  | nil =>
    by_cases hother : other = name
    · simp [putEntry, hother]
    · simp [putEntry, List.lookup_cons, hother, beq_eq_false_iff_ne.2 hother]
  | cons entry rest ih =>
    obtain ⟨key, old⟩ := entry
    by_cases hname : key = name
    · subst hname
      by_cases hother : other = key
      · simp [putEntry, hother]
      · simp [putEntry, List.lookup_cons, hother, beq_eq_false_iff_ne.2 hother]
    · by_cases hkey : other = key
      · subst hkey
        simp [putEntry, hname]
      · simp [putEntry, hname, List.lookup_cons, beq_eq_false_iff_ne.2 hkey, ih]

theorem mem_of_mem_putEntry {name : String} {value : α} {entry : String × α}
    {entries : List (String × α)} (h : entry ∈ putEntry name value entries) :
    entry = (name, value) ∨ entry ∈ entries := by
  induction entries with
  | nil => simpa [putEntry] using h
  | cons first rest ih =>
    unfold putEntry at h
    split at h
    · exact (List.mem_cons.1 h).imp_right (List.mem_cons_of_mem first)
    · rcases List.mem_cons.1 h with rfl | hrest
      · exact Or.inr List.mem_cons_self
      · exact (ih hrest).imp_right (List.mem_cons_of_mem first)

theorem mem_of_lookup {name : String} {value : α} {entries : List (String × α)}
    (h : entries.lookup name = some value) : (name, value) ∈ entries := by
  obtain ⟨before, after, hentries, _⟩ := List.lookup_eq_some_iff.1 h
  rw [hentries]
  exact List.mem_append_right _ List.mem_cons_self

/-- Where each name has one entry, what stands under a name is found. -/
theorem lookup_of_mem {name : String} {value : α} {entries : List (String × α)}
    (hdistinct : (entryNames entries).Nodup) (h : (name, value) ∈ entries) :
    entries.lookup name = some value := by
  induction entries with
  | nil => cases h
  | cons first rest ih =>
    obtain ⟨hnew, hrest⟩ := List.nodup_cons.1 hdistinct
    rcases List.mem_cons.1 h with rfl | hmem
    · simp
    · have hne : name ≠ first.1 := by
        rintro rfl
        exact hnew (List.mem_map.2 ⟨(first.1, value), hmem, rfl⟩)
      rw [List.lookup_cons, beq_eq_false_iff_ne.2 hne]
      exact ih hrest hmem

/-- A table from names to values, each name once, in the order of first
appearance. -/
structure Table (α : Type) where
  entries : List (String × α) := []
  distinct : (entryNames entries).Nodup := by simp [entryNames]

namespace Table

def empty : Table α := {}

def names (table : Table α) : List String :=
  entryNames table.entries

def get? (table : Table α) (name : String) : Option α :=
  table.entries.lookup name

def size (table : Table α) : Nat :=
  table.entries.length

def isEmpty (table : Table α) : Bool :=
  table.entries.isEmpty

/-- Puts a value under a name, which keeps its place if it has one. -/
def put (table : Table α) (name : String) (value : α) : Table α where
  entries := putEntry name value table.entries
  distinct := by
    rw [entryNames_putEntry]
    split
    · exact table.distinct
    · next hnew =>
      refine List.nodup_append.2 ⟨table.distinct, by simp, ?_⟩
      intro a ha b hb
      simp only [List.mem_singleton] at hb
      exact fun h => hnew (hb ▸ h ▸ ha)

/-- Puts entries one after another, so that the last value of a repeated name
stays. -/
def putAll (table : Table α) (entries : List (String × α)) : Table α :=
  entries.foldl (fun table entry => table.put entry.1 entry.2) table

def ofList (entries : List (String × α)) : Table α :=
  empty.putAll entries

theorem mem_entries_of_get? {table : Table α} {name : String} {value : α}
    (h : table.get? name = some value) : (name, value) ∈ table.entries :=
  mem_of_lookup h

@[simp] theorem get?_empty (name : String) :
    (empty : Table α).get? name = none := rfl

theorem get?_put (table : Table α) (name other : String) (value : α) :
    (table.put name value).get? other =
      if other = name then some value else table.get? other :=
  lookup_putEntry name other value table.entries

theorem names_put (table : Table α) (name : String) (value : α) :
    (table.put name value).names =
      if name ∈ table.names then table.names else table.names ++ [name] :=
  entryNames_putEntry name value table.entries

@[simp] theorem putAll_nil (table : Table α) : table.putAll [] = table := rfl

@[simp] theorem putAll_cons (table : Table α) (entry : String × α)
    (rest : List (String × α)) :
    table.putAll (entry :: rest) = (table.put entry.1 entry.2).putAll rest :=
  rfl

theorem putAll_append (table : Table α) (first second : List (String × α)) :
    table.putAll (first ++ second) = (table.putAll first).putAll second :=
  List.foldl_append

theorem get?_putAll (table : Table α) (entries : List (String × α))
    (name : String) :
    (table.putAll entries).get? name =
      (entries.reverse.lookup name).or (table.get? name) := by
  induction entries generalizing table with
  | nil => rfl
  | cons entry rest ih =>
    rw [putAll_cons, ih, get?_put, List.reverse_cons, List.lookup_append,
      List.lookup_cons]
    by_cases hname : name = entry.1
    · simp [hname]
    · simp [hname, beq_eq_false_iff_ne.2 hname]

theorem get?_ofList (entries : List (String × α)) (name : String) :
    (ofList entries).get? name = entries.reverse.lookup name := by
  rw [ofList, get?_putAll, get?_empty, Option.or_none]

end Table

end TypeShape
