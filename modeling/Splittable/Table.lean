/-!
# Tables

Finite maps from names to values: the entries in increasing order of their names, each name once.
The order is part of the type, so two tables with the same entries are equal.

* `Table.find?`, `insert`, `extend`, `ofList`, `names`   the operations;
* `Table.find?_insert`   a lookup after an insertion;
* `Table.find?_extend`   a lookup after an extension: the last entry with the name counts;
* `Table.find?_eq_some_iff`   a lookup finds what is among the entries;
* `Table.exists_insert`   where a new name is put;
* `Table.ofList_entries`   a table is rebuilt from its entries.
-/

namespace Splittable

universe u

structure Table (α : Type u) where
  entries : List (String × α)
  ordered : entries.Pairwise (fun a b => a.1 < b.1)

namespace Table

variable {α : Type u}

def empty : Table α := ⟨[], .nil⟩

instance : EmptyCollection (Table α) := ⟨empty⟩

instance : Inhabited (Table α) := ⟨empty⟩

theorem ext {s t : Table α} (h : s.entries = t.entries) : s = t := by
  cases s; cases t; cases h; rfl

instance [DecidableEq α] : DecidableEq (Table α) := fun s t =>
  if h : s.entries = t.entries then isTrue (ext h) else isFalse fun e => h (e ▸ rfl)

/-- put an entry at its place in an ordered list, in place of an entry with the same name -/
def place (name : String) (value : α) : List (String × α) → List (String × α)
  | [] => [(name, value)]
  | entry :: rest =>
    if name < entry.1 then (name, value) :: entry :: rest
    else if name = entry.1 then (name, value) :: rest
    else entry :: place name value rest

theorem mem_place {name : String} {value : α} {entries : List (String × α)} {e : String × α}
    (h : e ∈ place name value entries) : e = (name, value) ∨ e ∈ entries := by
  induction entries with
  | nil => left; simpa [place] using h
  | cons entry rest ih =>
    unfold place at h
    split at h
    · simpa using h
    · split at h
      · rcases List.mem_cons.1 h with h | h
        · exact .inl h
        · exact .inr (List.mem_cons_of_mem _ h)
      · rcases List.mem_cons.1 h with h | h
        · exact .inr (h ▸ List.mem_cons_self)
        · exact (ih h).imp_right (List.mem_cons_of_mem _)

theorem place_ordered (name : String) (value : α) {entries : List (String × α)}
    (h : entries.Pairwise (fun a b => a.1 < b.1)) :
    (place name value entries).Pairwise (fun a b => a.1 < b.1) := by
  induction entries with
  | nil => exact List.pairwise_singleton _ _
  | cons entry rest ih =>
    obtain ⟨hall, hrest⟩ := List.pairwise_cons.1 h
    unfold place
    split
    · rename_i hlt
      refine List.pairwise_cons.2 ⟨fun e he => ?_, h⟩
      rcases List.mem_cons.1 he with rfl | he
      · exact hlt
      · exact String.lt_trans hlt (hall e he)
    · split
      · rename_i heq
        exact List.pairwise_cons.2 ⟨fun e he => by rw [heq]; exact hall e he, hrest⟩
      · rename_i hnlt hne
        refine List.pairwise_cons.2 ⟨fun e he => ?_, ih hrest⟩
        rcases mem_place he with rfl | he
        · rcases String.le_total name entry.1 with hle | hle
          · exact absurd (String.le_antisymm hle (String.not_lt.1 hnlt)) hne
          · exact Classical.byContradiction fun hn =>
              hne (String.le_antisymm (String.not_lt.1 hn) hle)
        · exact hall e he

/-- the table in which `name` stands for `value` -/
def insert (t : Table α) (name : String) (value : α) : Table α :=
  ⟨place name value t.entries, place_ordered name value t.ordered⟩

def find? (t : Table α) (name : String) : Option α :=
  (t.entries.find? (·.1 == name)).map (·.2)

def contains (t : Table α) (name : String) : Bool := (t.find? name).isSome

def names (t : Table α) : List String := t.entries.map (·.1)

def isEmpty (t : Table α) : Bool := t.entries.isEmpty

/-- insert entries from the left, so a later one wins -/
def extend (t : Table α) (entries : List (String × α)) : Table α :=
  entries.foldl (fun t e => t.insert e.1 e.2) t

def ofList (entries : List (String × α)) : Table α := empty.extend entries

theorem find?_empty (name : String) : (empty : Table α).find? name = none := rfl

theorem find?_place (name key : String) (value : α) (entries : List (String × α)) :
    ((place name value entries).find? (·.1 == key)).map (·.2) =
      if name = key then some value else (entries.find? (·.1 == key)).map (·.2) := by
  induction entries with
  | nil => by_cases h : name = key <;> simp [place, h]
  | cons entry rest ih =>
    unfold place
    by_cases h : name = key
    · subst h
      rw [if_pos rfl] at ih ⊢
      split
      · simp
      · split
        · simp
        · rename_i hne
          rw [List.find?_cons_of_neg (by simpa using fun e => hne e.symm)]
          exact ih
    · rw [if_neg h] at ih ⊢
      split
      · rw [List.find?_cons_of_neg (by simpa using h)]
      · split
        · rename_i heq
          rw [List.find?_cons_of_neg (by simpa using h),
            List.find?_cons_of_neg (by simpa [← heq] using h)]
        · by_cases he : entry.1 = key
          · rw [List.find?_cons_of_pos (by simpa using he),
              List.find?_cons_of_pos (by simpa using he)]
          · rw [List.find?_cons_of_neg (by simpa using he),
              List.find?_cons_of_neg (by simpa using he)]
            exact ih

/-- A lookup after an insertion finds the value inserted, or what was there. -/
theorem find?_insert (t : Table α) (name key : String) (value : α) :
    (t.insert name value).find? key = if name = key then some value else t.find? key :=
  find?_place name key value t.entries

theorem find?_of_mem {entries : List (String × α)} {name : String} {value : α}
    (h : entries.Pairwise (fun a b => a.1 < b.1)) (hmem : (name, value) ∈ entries) :
    entries.find? (·.1 == name) = some (name, value) := by
  induction entries with
  | nil => cases hmem
  | cons entry rest ih =>
    obtain ⟨hall, hrest⟩ := List.pairwise_cons.1 h
    rcases List.mem_cons.1 hmem with rfl | hmem
    · exact List.find?_cons_of_pos (beq_self_eq_true name)
    · have hne : entry.1 ≠ name := fun e => String.lt_irrefl _ (e ▸ hall _ hmem)
      rw [List.find?_cons_of_neg (by simpa using hne), ih hrest hmem]

/-- A lookup finds what is among the entries. -/
theorem find?_eq_some_iff (t : Table α) (name : String) (value : α) :
    t.find? name = some value ↔ (name, value) ∈ t.entries := by
  constructor
  · intro h
    obtain ⟨⟨key, v⟩, hfind, rfl⟩ := Option.map_eq_some_iff.1 h
    obtain rfl : key = name := by simpa using List.find?_some hfind
    exact List.mem_of_find?_eq_some hfind
  · intro h
    unfold find?
    rw [find?_of_mem t.ordered h]
    rfl

/-- An entry with a new name is put between two of the entries. -/
theorem exists_insert (t : Table α) {name : String} (value : α) (h : t.find? name = none) :
    ∃ before after, t.entries = before ++ after ∧
      (t.insert name value).entries = before ++ (name, value) :: after := by
  have hne : ∀ e ∈ t.entries, e.1 ≠ name := by
    simpa using List.find?_eq_none.1 (Option.map_eq_none_iff.1 h)
  show ∃ before after, t.entries = before ++ after ∧ place name value t.entries = _
  generalize t.entries = entries at hne
  induction entries with
  | nil => exact ⟨[], [], rfl, rfl⟩
  | cons entry rest ih =>
    unfold place
    by_cases hlt : name < entry.1
    · rw [if_pos hlt]
      exact ⟨[], entry :: rest, rfl, rfl⟩
    · rw [if_neg hlt, if_neg fun e => hne entry List.mem_cons_self e.symm]
      obtain ⟨before, after, hrest, hplace⟩ := ih fun e he => hne e (List.mem_cons_of_mem _ he)
      exact ⟨entry :: before, after, by rw [hrest, List.cons_append],
        by rw [hplace, List.cons_append]⟩

/-- An entry whose name comes after all others goes to the end. -/
theorem place_append {name : String} {value : α} {entries : List (String × α)}
    (h : ∀ e ∈ entries, e.1 < name) : place name value entries = entries ++ [(name, value)] := by
  induction entries with
  | nil => rfl
  | cons entry rest ih =>
    have hlt := h entry List.mem_cons_self
    unfold place
    rw [if_neg (String.lt_asymm hlt),
      if_neg (fun e : name = entry.1 => String.lt_irrefl _ (e ▸ hlt)),
      ih (fun e he => h e (List.mem_cons_of_mem _ he)), List.cons_append]

theorem extend_entries (t : Table α) (entries : List (String × α))
    (h : (t.entries ++ entries).Pairwise (fun a b => a.1 < b.1)) :
    (t.extend entries).entries = t.entries ++ entries := by
  induction entries generalizing t with
  | nil => exact (List.append_nil _).symm
  | cons e rest ih =>
    have hall : ∀ x ∈ t.entries, x.1 < e.1 := fun x hx =>
      (List.pairwise_append.1 h).2.2 x hx e List.mem_cons_self
    have hplace : (t.insert e.1 e.2).entries = t.entries ++ [e] := place_append hall
    show ((t.insert e.1 e.2).extend rest).entries = _
    rw [ih _ (by rw [hplace, List.append_assoc]; exact h), hplace, List.append_assoc]
    rfl

/-- **A table is rebuilt from its entries.** -/
theorem ofList_entries (t : Table α) : ofList t.entries = t :=
  ext (extend_entries empty t.entries t.ordered)

theorem find?_insert_eq_or (t : Table α) (name key : String) (value : α) :
    (t.insert name value).find? key = (List.lookup key [(name, value)]).or (t.find? key) := by
  rw [find?_insert, List.lookup_cons]
  by_cases h : name = key
  · rw [if_pos h, beq_iff_eq.2 h.symm]
    rfl
  · rw [if_neg h, beq_eq_false_iff_ne.2 (Ne.symm h)]
    rfl

/-- A lookup after an extension finds the last new entry with that name, or what was there. -/
theorem find?_extend (t : Table α) (entries : List (String × α)) (key : String) :
    (t.extend entries).find? key = (entries.reverse.lookup key).or (t.find? key) := by
  induction entries generalizing t with
  | nil => rfl
  | cons entry rest ih =>
    show ((t.insert entry.1 entry.2).extend rest).find? key = _
    rw [ih, find?_insert_eq_or, List.reverse_cons, List.lookup_append, Option.or_assoc]

theorem find?_ofList (entries : List (String × α)) (key : String) :
    (ofList entries).find? key = entries.reverse.lookup key := by
  unfold ofList
  rw [find?_extend, find?_empty, Option.or_none]

/-- A lookup in a table that another one extends looks there first. -/
theorem find?_extend_entries (t u : Table α) (key : String) :
    (t.extend u.entries).find? key = (u.find? key).or (t.find? key) := by
  rw [find?_extend, ← find?_ofList, ofList_entries]

end Table

end Splittable
