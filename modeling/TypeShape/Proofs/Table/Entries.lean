import Mathlib.Data.Finset.Card
import Mathlib.Data.List.Induction
import Mathlib.Data.List.Nodup
import TypeShape.Table

/-!
Tables of entries in which names are repeated.  The names stand in the order in
which they come first, each once, and each has the value of its last entry.  A
table is known by its names and what is found under them, so entries may be put
at once or by way of another table.
-/
namespace TypeShape

/-! ### Names that come first -/

theorem eraseDups_concat (names : List String) (name : String) :
    (names ++ [name]).eraseDups =
      if name ∈ names then names.eraseDups else names.eraseDups ++ [name] := by
  rw [List.eraseDups_append]
  by_cases hmem : name ∈ names <;>
    simp [List.removeAll, List.eraseDups_cons, hmem]

theorem eraseDups_of_nodup {names : List String} (h : names.Nodup) :
    names.eraseDups = names := by
  induction names using List.reverseRecOn with
  | nil => rfl
  | append_singleton names name ih =>
      obtain ⟨hnames, -, hdisjoint⟩ := List.nodup_append.1 h
      have hnew : name ∉ names :=
        fun hmem => hdisjoint name hmem name List.mem_cons_self rfl
      rw [eraseDups_concat, if_neg hnew, ih hnames]

/-- What comes later may be cleared of repetitions before. -/
theorem eraseDups_append_eraseDups (names later : List String) :
    (names ++ later.eraseDups).eraseDups = (names ++ later).eraseDups := by
  induction later using List.reverseRecOn with
  | nil => rfl
  | append_singleton later name ih =>
      rw [eraseDups_concat, ← List.append_assoc, eraseDups_concat, ← ih]
      by_cases hlater : name ∈ later
      · rw [if_pos hlater, if_pos (List.mem_append_right names hlater)]
      · rw [if_neg hlater, ← List.append_assoc, eraseDups_concat]
        simp only [List.mem_append, List.mem_eraseDups]

section Lookup

variable {α : Type} {entries entries' : List (String × α)}

/-- Where each name has one entry, it does not matter how the entries are
ordered. -/
theorem lookup_eq_of_perm (hperm : entries.Perm entries')
    (hdistinct : (entryNames entries).Nodup) (name : String) :
    entries.lookup name = entries'.lookup name := by
  have hdistinct' : (entryNames entries').Nodup :=
    (hperm.map Prod.fst).nodup_iff.1 hdistinct
  ext value
  constructor
  · exact fun h => lookup_of_mem hdistinct' (hperm.mem_iff.1 (mem_of_lookup h))
  · exact fun h => lookup_of_mem hdistinct (hperm.mem_iff.2 (mem_of_lookup h))

theorem mem_entryNames_iff_filter {name : String} :
    name ∈ entryNames entries ↔
      (entries.filter fun entry => entry.1 = name) ≠ [] := by
  simp [entryNames, List.filter_eq_nil_iff]

/-- The entry that is found from the end is the last of its name. -/
theorem lookup_reverse (entries : List (String × α)) (name : String) :
    entries.reverse.lookup name =
      ((entries.filter fun entry => entry.1 = name).getLast?).map Prod.snd := by
  induction entries using List.reverseRecOn with
  | nil => rfl
  | append_singleton entries entry ih =>
      rw [List.reverse_append, List.reverse_singleton, List.singleton_append,
        List.lookup_cons, List.filter_append, ih]
      by_cases hname : entry.1 = name
      · simp [hname]
      · simp [hname, beq_eq_false_iff_ne.2 (Ne.symm hname)]

end Lookup

namespace Table

variable {α : Type}

/-! ### What is put -/

/-- New names come after those of the table, in the order in which they come
first. -/
theorem names_putAll (table : Table α) (entries : List (String × α)) :
    (table.putAll entries).names =
      (table.names ++ entryNames entries).eraseDups := by
  -- the last entry is the one that is put last, so the induction is from the
  -- end
  induction entries using List.reverseRecOn with
  | nil =>
      have hnames : table.names.Nodup := table.distinct
      rw [putAll_nil, entryNames, List.map_nil, List.append_nil,
        eraseDups_of_nodup hnames]
  | append_singleton entries entry ih =>
      have hnames : entryNames (entries ++ [entry]) =
          entryNames entries ++ [entry.1] :=
        List.map_append
      rw [putAll_append, putAll_cons, putAll_nil, names_put, ih, hnames,
        ← List.append_assoc, eraseDups_concat]
      simp only [List.mem_eraseDups]

/-- A table of entries has their names in the order in which they come first. -/
theorem names_ofList (entries : List (String × α)) :
    (ofList entries).names = (entryNames entries).eraseDups :=
  names_putAll empty entries

/-- A name has the value of the last entry that has the name. -/
theorem get?_ofList_of_last {before after : List (String × α)} {name : String}
    {value : α} (hlast : name ∉ entryNames after) :
    (ofList (before ++ (name, value) :: after)).get? name = some value := by
  have hafter : after.reverse.lookup name = none := by
    rw [List.lookup_eq_none_iff]
    intro entry hentry
    apply bne_iff_ne.2
    rintro rfl
    exact hlast (List.mem_map_of_mem (List.mem_reverse.1 hentry))
  rw [get?_ofList, List.reverse_append, List.reverse_cons, List.append_assoc,
    List.lookup_append, hafter]
  simp

/-- A table of entries has as many names as they have different ones. -/
theorem size_ofList (entries : List (String × α)) :
    (ofList entries).size = (entryNames entries).toFinset.card := by
  have hnames : (ofList entries).names.toFinset =
      (entryNames entries).toFinset := by
    ext name
    rw [List.mem_toFinset, List.mem_toFinset, names_ofList, List.mem_eraseDups]
  have hdistinct : (ofList entries).names.Nodup := (ofList entries).distinct
  rw [← hnames, List.toFinset_card_of_nodup hdistinct, names, entryNames,
    List.length_map]
  rfl

/-! ### Tables that are equal -/

theorem map_entries_eq (table : Table α) :
    table.entries.map (fun entry => (entry.1, some entry.2)) =
      table.names.map fun name => (name, table.get? name) := by
  rw [names, entryNames, List.map_map]
  apply List.map_congr_left
  intro entry hentry
  have hfound : table.get? entry.1 = some entry.2 :=
    lookup_of_mem table.distinct hentry
  simp only [Function.comp_apply, hfound]

/-- A table is known by its names and by what is found under them. -/
theorem eq_of_get? {table table' : Table α}
    (hnames : table.names = table'.names)
    (hget : ∀ name, table.get? name = table'.get? name) : table = table' := by
  have hinjective : Function.Injective
      fun entry : String × α => (entry.1, some entry.2) := by
    rintro ⟨name, value⟩ ⟨name', value'⟩ h
    simpa using h
  have hentries : table.entries = table'.entries := by
    apply List.map_injective_iff.2 hinjective
    rw [map_entries_eq, map_entries_eq, hnames, funext hget]
  cases table
  cases table'
  cases hentries
  rfl

/-- In the entries of a table each name stands once, so the last is the
first. -/
theorem get?_putAll_entries (table added : Table α) (name : String) :
    (table.putAll added.entries).get? name =
      (added.get? name).or (table.get? name) := by
  rw [get?_putAll,
    ← lookup_eq_of_perm (List.reverse_perm _).symm added.distinct]
  rfl

theorem ofList_entries (table : Table α) : ofList table.entries = table := by
  apply eq_of_get?
  · rw [names_ofList]
    exact eraseDups_of_nodup table.distinct
  · intro name
    rw [ofList, get?_putAll_entries, get?_empty, Option.or_none]

theorem entries_ofList_of_nodup {entries : List (String × α)}
    (hdistinct : (entryNames entries).Nodup) :
    (ofList entries).entries = entries :=
  congrArg Table.entries (ofList_entries ⟨entries, hdistinct⟩)

/-- Entries may be put by way of a table of their own. -/
theorem putAll_ofList (table : Table α) (entries : List (String × α)) :
    table.putAll (ofList entries).entries = table.putAll entries := by
  apply eq_of_get?
  · rw [names_putAll, names_putAll,
      ← eraseDups_append_eraseDups table.names (entryNames entries),
      ← names_ofList]
    rfl
  · intro name
    rw [get?_putAll_entries, get?_ofList, get?_putAll]

end Table

end TypeShape
