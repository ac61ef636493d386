import Splittable.Proofs.Json.Written
import Mathlib.Data.List.Nodup

/-!
# Fields are read as they were written

A structure is written as an object of those of its fields that are set, and read from the fields of
an object by their names.

* `Json.present`             the fields that are set;
* `Json.members?_present`    they are read back, and the others are absent;
* `Json.Kept`                writing and reading that keep a value, or what is shipped of it;
* `Json.kept_text`, `kept_word`, `kept_bytes`   the values that fields are made of.
-/

namespace Splittable.Json

variable {α β : Type}

/-! ## names -/

/-- the fields that are set -/
def present : List (String × Option Json) → List (String × Json)
  | [] => []
  | (_, none) :: fields => present fields
  | (name, some value) :: fields => (name, value) :: present fields

theorem mem_present {fields : List (String × Option Json)} {field : String × Json}
    (h : field ∈ present fields) : (field.1, some field.2) ∈ fields := by
  induction fields with
  | nil => cases h
  | cons first fields ih =>
    obtain ⟨name, _ | value⟩ := first
    · exact List.mem_cons_of_mem _ (ih h)
    · rw [present, List.mem_cons] at h
      obtain rfl | h := h
      · exact List.mem_cons_self
      · exact List.mem_cons_of_mem _ (ih h)

theorem map_present_sublist (fields : List (String × Option Json)) :
    ((present fields).map (·.1)).Sublist (fields.map (·.1)) := by
  induction fields with
  | nil => exact .slnil
  | cons first fields ih =>
    obtain ⟨name, _ | value⟩ := first
    · exact ih.cons name
    · exact ih.cons_cons name

theorem wellNamed_named {entries : List (String × Json)} (h : (entries.map (·.1)).Nodup)
    (names : List String) : wellNamed names (named entries) = true := by
  have hkeys : ((named entries).map (·.1)).Nodup := by
    have hmap : (named entries).map (·.1) = (entries.map (·.1)).map some := by
      simp [named]
    rw [hmap]
    exact h.map fun _ _ heq => Option.some.inj heq
  have honce (name : String) :
      ((named entries).filter fun field => field.1 == some name).length ≤ 1 := by
    have hcount := List.nodup_iff_count_le_one.1 hkeys (some name)
    rwa [List.count, List.countP_map, List.countP_eq_length_filter] at hcount
  have htexts : ∀ field ∈ named entries, field.1.isSome = true := by
    intro field hfield
    obtain ⟨entry, -, rfl⟩ := List.mem_map.1 hfield
    rfl
  simp only [wellNamed, Bool.and_eq_true, List.all_eq_true, decide_eq_true_eq]
  exact ⟨htexts, fun name _ => honce name⟩

theorem lookup_eq_none {name : String} {entries : List (String × Json)}
    (h : name ∉ entries.map (·.1)) : lookup name (named entries) = none := by
  induction entries with
  | nil => rfl
  | cons entry entries ih =>
    rw [List.map_cons, List.mem_cons, not_or] at h
    have hne : ¬some entry.1 = some name := fun heq => h.1 (Option.some.inj heq).symm
    show (if some entry.1 = some name then _ else _) = none
    rw [if_neg hne]
    exact ih h.2

theorem lookup_present {fields : List (String × Option Json)} (h : (fields.map (·.1)).Nodup)
    {field : String × Option Json} (hfield : field ∈ fields) :
    lookup field.1 (named (present fields)) = field.2 := by
  induction fields with
  | nil => cases hfield
  | cons first fields ih =>
    rw [List.map_cons, List.nodup_cons] at h
    obtain ⟨hfirst, hrest⟩ := h
    obtain rfl | hlater := List.mem_cons.1 hfield
    · obtain ⟨name, _ | value⟩ := field
      · exact lookup_eq_none fun hmem => hfirst ((map_present_sublist fields).mem hmem)
      · show (if some name = some name then _ else _) = some value
        rw [if_pos rfl]
    · have hne : ¬some first.1 = some field.1 := by
        intro heq
        rw [Option.some.inj heq] at hfirst
        exact hfirst (List.mem_map_of_mem hlater)
      obtain ⟨name, _ | value⟩ := first
      · exact ih hrest hlater
      · show (if some name = some field.1 then _ else _) = field.2
        rw [if_neg hne]
        exact ih hrest hlater

/-- **The fields of a structure are read back**, each under its name. -/
theorem members?_present (fields : List (String × Option Json))
    (h : (fields.map (·.1)).Nodup) (required : Nat) :
    (ofFields (present fields)).members? (fields.map (·.1)) required =
      some (fields.map (·.2)) := by
  have hnamed := wellNamed_named ((map_present_sublist fields).nodup h) (fields.map (·.1))
  show (if wellNamed (fields.map (·.1)) (named (present fields)) then _ else none) = _
  rw [if_pos hnamed, List.map_map]
  congr 1
  exact List.map_congr_left fun field hfield => lookup_present h hfield

theorem plain_present {fields : List (String × Option Json)}
    (h : ∀ field ∈ fields, ∀ value, field.2 = some value → Plain value) :
    Plain (ofFields (present fields)) := by
  refine .object fun field hfield => ?_
  exact h _ (mem_present hfield) field.2 rfl

/-! ## values -/

/-- What is written of a value is plain, is not `null`, and is read as what is kept of the value. -/
structure Kept (write : α → Json) (read? : Json → Option β) (kept : α → β) : Prop where
  plain : ∀ a, Plain (write a)
  ne_null : ∀ a, write a ≠ .null
  back : ∀ a, read? (write a) = some (kept a)

theorem kept_text : Kept ofText text? id where
  plain := .text
  ne_null _ h := by cases h
  back _ := rfl

theorem word64?_ofWord64 (n : UInt64) : (ofWord64 n).word64? = some n := by
  have hdigits : ((Numeral.render n).toList.all fun c => (Numeral.digit? c).isSome) = true := by
    rw [Numeral.render, String.toList_ofList, List.all_eq_true]
    intro c hc
    rw [Numeral.digit?_of_isDigit (Numeral.isDigit_of_mem hc)]
    rfl
  show (if _ then (Numeral.read? (Numeral.render n)).toOption else none) = some n
  rw [if_pos hdigits, Numeral.read?_render]
  rfl

theorem kept_word : Kept ofWord64 word64? id where
  plain := .word
  ne_null _ h := by cases h
  back := word64?_ofWord64

theorem byte?_ofByte (b : UInt8) : (ofByte b).byte? = some b := by
  have hlt : b.toUInt64 < 256 := by
    rw [UInt64.lt_iff_toNat_lt]
    simpa using b.toNat_lt
  have hback : b.toUInt64.toUInt8 = b := by simp
  show (do let n ← (ofWord64 b.toUInt64).word64?; if n < 256 then some n.toUInt8 else none) = _
  rw [word64?_ofWord64]
  simp [hlt, hback]

/-- A list is read back item by item. -/
theorem mapM_map {write : α → β} {read? : β → Option α} (h : ∀ a, read? (write a) = some a)
    (items : List α) : (items.map write).mapM read? = some items := by
  induction items with
  | nil => rfl
  | cons item items ih =>
    rw [List.map_cons, List.mapM_cons, h, ih]
    rfl

theorem kept_bytes : Kept ofBytes bytes? id where
  plain bs := by
    refine .array fun item hitem => ?_
    obtain ⟨b, -, rfl⟩ := List.mem_map.1 hitem
    exact .word b.toUInt64
  ne_null _ h := by cases h
  back bs := mapM_map byte?_ofByte bs

end Splittable.Json
