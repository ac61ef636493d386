import Splittable.Proofs.Json.Fields
import Splittable.Source.Basic

/-!
# Sources are read as they were shipped

A source is shipped as JSON, with the payload of its split and without the descriptor behind it.

* `kept_kind`, `kept_tag`, `kept_pairEncoding`   the types and encodings of records;
* `Handle.kept`            a split comes without its descriptor;
* `Source.parse_render`    a source is read as what is shipped of it;
* `Source.same_shipped`    which is the same source.
-/

namespace Splittable

open Json

/-! ## types and encodings -/

theorem kept_kind : Kept RecordKind.toJson RecordKind.ofJson? id where
  plain kind := .text kind.name
  ne_null _ h := by cases h
  back kind := by cases kind <;> rfl

theorem plain_variant {content : Json} (name : String) (h : Plain content) :
    Plain (ofFields [(name, content)]) := by
  refine .object fun field hfield => ?_
  obtain rfl := List.mem_singleton.1 hfield
  exact h

theorem kept_tag : Kept TypeTag.toJson TypeTag.ofJson? id where
  plain tag := by
    cases tag with
    | record kind => exact plain_variant "Record" (kept_kind.plain kind)
    | void => exact .text "Void"
    | custom name => exact plain_variant "Opaque" (.text name)
  ne_null tag h := by
    cases tag with
    | _ => cases h
  back tag := by
    cases tag with
    | record kind =>
      show (RecordKind.ofJson? kind.toJson).map TypeTag.record = _
      rw [kept_kind.back]
      rfl
    | void => rfl
    | custom name => rfl

theorem kept_elementEncoding : Kept ElementEncoding.toJson ElementEncoding.ofJson? id where
  plain e := by
    cases e with
    | record kind => exact plain_variant "Record" (kept_kind.plain kind)
    | void => exact .text "Void"
  ne_null e h := by
    cases e with
    | _ => cases h
  back e := by
    cases e with
    | record kind =>
      show (RecordKind.ofJson? kind.toJson).map ElementEncoding.record = _
      rw [kept_kind.back]
      rfl
    | void => rfl

theorem kept_pairEncoding : Kept PairEncoding.toJson PairEncoding.ofJson? id where
  plain e := by
    refine .object ?_
    simp [kept_elementEncoding.plain]
  ne_null _ h := by cases h
  back e := by
    have hmembers : e.toJson.members? ["key", "value"] 2 =
        some [some e.key.toJson, some e.value.toJson] :=
      members?_present [("key", some e.key.toJson), ("value", some e.value.toJson)] (by simp) 2
    simp [PairEncoding.ofJson?, hmembers, kept_elementEncoding.back]

/-- **A handle is read without the descriptor behind it.** -/
theorem Handle.kept :
    Kept Handle.toJson Handle.ofJson? fun handle => { handle with decoded := none } where
  plain handle := by
    refine .object ?_
    simp [kept_text.plain, kept_word.plain, kept_bytes.plain]
  ne_null _ h := by cases h
  back handle := by
    have hmembers : handle.toJson.members? ["type_tag", "length", "payload"] 3 =
        some [some (ofText handle.tag), some (ofWord64 handle.length),
          some (ofBytes handle.payload)] :=
      members?_present [("type_tag", some (ofText handle.tag)),
        ("length", some (ofWord64 handle.length)), ("payload", some (ofBytes handle.payload))]
        (by simp) 3
    simp [Handle.ofJson?, hmembers, kept_text.back, kept_word.back, kept_bytes.back]

/-! ## sources -/

/-- An optional field is read back, written as `null` where it is not set. -/
theorem Json.Kept.optional {α β : Type} {write : α → Json} {read? : Json → Option β} {kept : α → β}
    (h : Kept write read? kept) (o : Option α) :
    Source.optional? read? (some (Source.optional write o)) = some (o.map kept) := by
  cases o with
  | none => rfl
  | some a =>
    show Source.optional? read? (some (write a)) = some (some (kept a))
    rw [Source.optional?]
    · rw [h.back]
      rfl
    · exact h.ne_null a

/-- An optional field is read back, left out where it is not set. -/
theorem Json.Kept.map {α β : Type} {write : α → Json} {read? : Json → Option β} {kept : α → β}
    (h : Kept write read? kept) (o : Option α) :
    Source.optional? read? (o.map write) = some (o.map kept) := by
  cases o with
  | none => rfl
  | some a => exact h.optional (some a)

theorem Json.Kept.plain_optional {α β : Type} {write : α → Json} {read? : Json → Option β}
    {kept : α → β} (h : Kept write read? kept) (o : Option α) :
    Plain (Source.optional write o) := by
  cases o with
  | none => exact .null
  | some a => exact h.plain a

theorem Json.Kept.plain_map {α β : Type} {write : α → Json} {read? : Json → Option β} {kept : α → β}
    (h : Kept write read? kept) {o : Option α} {value : Json} (hvalue : o.map write = some value) :
    Plain value := by
  obtain ⟨a, -, rfl⟩ := Option.map_eq_some_iff.1 hvalue
  exact h.plain a

namespace Source

/-- the overrides as they are shipped, which are left out where there are none -/
def writtenOverrides (overrides : Overrides) : Option Json :=
  if overrides.isEmpty then none
  else some (.ofFields (overrides.entries.map fun e => (e.1, .ofText e.2)))

theorem overrides?_written (overrides : Overrides) :
    overrides? (writtenOverrides overrides) = some overrides := by
  unfold writtenOverrides
  by_cases hempty : overrides.isEmpty = true
  · rw [if_pos hempty]
    have hentries : overrides.entries = [] := List.isEmpty_iff.1 hempty
    have hoverrides : overrides = {} := Table.ext hentries
    rw [hoverrides]
    rfl
  · rw [if_neg hempty]
    have hread : ((overrides.entries.map fun e => (e.1, ofText e.2)).map
        fun f => (some f.1, f.2)).mapM
        (fun f : Option String × Json => do return (← f.1, ← f.2.text?)) =
          some overrides.entries := by
      rw [List.map_map]
      refine mapM_map ?_ overrides.entries
      intro e
      rfl
    show (do return Table.ofList (← List.mapM _ _)) = some overrides
    rw [hread]
    simp [Table.ofList_entries]

theorem plain_writtenOverrides {overrides : Overrides} {value : Json}
    (h : writtenOverrides overrides = some value) : Plain value := by
  unfold writtenOverrides at h
  split at h
  · cases h
  · cases h
    refine .object fun field hfield => ?_
    obtain ⟨entry, -, rfl⟩ := List.mem_map.1 hfield
    exact .text entry.2

/-- the fields of a source as they are shipped -/
def written (source : Source) : List (String × Option Json) :=
  [("resource", some (optional Json.ofText source.resource)),
    ("format", some (optional Json.ofText source.format)),
    ("key_type", some (optional TypeTag.toJson source.keyType)),
    ("value_type", some (optional TypeTag.toJson source.valueType)),
    ("split", source.split.map Handle.toJson),
    ("output_encoding", source.outputEncoding.map PairEncoding.toJson),
    ("overrides", writtenOverrides source.overrides)]

theorem toJson_eq (source : Source) : source.toJson = ofFields (present source.written) := by
  unfold toJson written writtenOverrides
  cases source.split <;> cases source.outputEncoding <;> cases source.overrides.isEmpty <;> rfl

theorem ofJson?_toJson (source : Source) : ofJson? source.toJson = some source.shipped := by
  have hmembers : source.toJson.members? fieldNames 4 = some (source.written.map (·.2)) := by
    rw [toJson_eq]
    exact members?_present source.written (by simp [written]) 4
  simp [ofJson?, hmembers, written, kept_text.optional, kept_tag.optional, Handle.kept.map,
    kept_pairEncoding.map, overrides?_written, shipped]

theorem plain_toJson (source : Source) : Plain source.toJson := by
  rw [toJson_eq]
  refine plain_present fun field hfield value hvalue => ?_
  simp only [written, List.mem_cons, List.not_mem_nil, or_false] at hfield
  obtain rfl | rfl | rfl | rfl | rfl | rfl | rfl := hfield
  · cases hvalue
    exact kept_text.plain_optional source.resource
  · cases hvalue
    exact kept_text.plain_optional source.format
  · cases hvalue
    exact kept_tag.plain_optional source.keyType
  · cases hvalue
    exact kept_tag.plain_optional source.valueType
  · exact Handle.kept.plain_map hvalue
  · exact kept_pairEncoding.plain_map hvalue
  · exact plain_writtenOverrides hvalue

/-- **A source is read as what is shipped of it.** -/
theorem parse_render (source : Source) : parse source.render = some source.shipped := by
  have hread := Json.parse_render source.plain_toJson
  simp [parse, render, hread, ofJson?_toJson]

/-- What is shipped of a source is the same source. -/
theorem same_shipped (source : Source) : source.shipped.Same source := by
  unfold Same shipped
  cases source.split with
  | none => simp
  | some handle => simp [Handle.Same]

end Source

end Splittable
