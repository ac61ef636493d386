import Splittable.Proofs.Json.Written

/-!
# A written document is one line

Control characters are escaped where a text has them and stand nowhere else, so what is written of
a value has no line break.

* `Json.Uncontrolled`            characters none of which is a control character;
* `Json.uncontrolled_escaped`    what stands for a character in a string is such;
* `Json.Plain.uncontrolled`      and so is what is written of a plain value.
-/

namespace Splittable.Json

/-- none of the characters is one of the first 32 -/
def Uncontrolled (cs : List Char) : Prop := ∀ c ∈ cs, 0x20 ≤ c.toNat

namespace Uncontrolled

theorem nil : Uncontrolled [] := fun _ h => absurd h List.not_mem_nil

theorem cons_iff {c : Char} {cs : List Char} :
    Uncontrolled (c :: cs) ↔ 0x20 ≤ c.toNat ∧ Uncontrolled cs := List.forall_mem_cons

theorem append_iff {as bs : List Char} :
    Uncontrolled (as ++ bs) ↔ Uncontrolled as ∧ Uncontrolled bs := List.forall_mem_append

theorem flatMap {α : Type} {f : α → List Char} {xs : List α} (h : ∀ x ∈ xs, Uncontrolled (f x)) :
    Uncontrolled (xs.flatMap f) := by
  intro c hc
  obtain ⟨x, hx, hmem⟩ := List.mem_flatMap.1 hc
  exact h x hx c hmem

theorem separated {pieces : List (List Char)} (h : ∀ piece ∈ pieces, Uncontrolled piece) :
    Uncontrolled (separated pieces) := by
  induction pieces with
  | nil => exact nil
  | cons piece rest ih =>
    obtain ⟨hpiece, hrest⟩ := List.forall_mem_cons.1 h
    cases rest with
    | nil => exact hpiece
    | cons next rest => exact append_iff.2 ⟨hpiece, cons_iff.2 ⟨by decide, ih hrest⟩⟩

/-- pieces with commas between them, inside brackets -/
theorem bracketed {opening closing : Char} (hopening : 0x20 ≤ opening.toNat)
    (hclosing : 0x20 ≤ closing.toNat) {pieces : List (List Char)}
    (h : ∀ piece ∈ pieces, Uncontrolled piece) :
    Uncontrolled (opening :: Json.separated pieces ++ [closing]) :=
  append_iff.2 ⟨cons_iff.2 ⟨hopening, separated h⟩, cons_iff.2 ⟨hclosing, nil⟩⟩

theorem not_mem {cs : List Char} (h : Uncontrolled cs) {c : Char} (hc : c.toNat < 0x20) :
    c ∉ cs := fun hmem => absurd (h c hmem) (Nat.not_le.2 hc)

end Uncontrolled

theorem uncontrolled_hex : ∀ n < 0x20,
    0x20 ≤ (Nat.digitChar (n / 16)).toNat ∧ 0x20 ≤ (Nat.digitChar (n % 16)).toNat := by
  decide

theorem uncontrolled_escape {c : Char} (h : 0x20 ≤ c.toNat) : Uncontrolled ['\\', c] :=
  Uncontrolled.cons_iff.2 ⟨by decide, Uncontrolled.cons_iff.2 ⟨h, .nil⟩⟩

theorem uncontrolled_escaped (c : Char) : Uncontrolled (escaped c) := by
  unfold escaped
  split
  case h_8 =>
    by_cases hcontrol : c.toNat < 0x20
    · have hcode := controlCode_eq c.toNat hcontrol
      rw [Char.ofNat_toNat] at hcode
      obtain ⟨hhigh, hlow⟩ := uncontrolled_hex c.toNat hcontrol
      rw [if_pos hcontrol, hcode]
      simp [Uncontrolled, hhigh, hlow]
    · rw [if_neg hcontrol, Uncontrolled.cons_iff]
      exact ⟨Nat.not_lt.1 hcontrol, .nil⟩
  all_goals exact uncontrolled_escape (by decide)

theorem uncontrolled_text (s : String) : Uncontrolled (literalChars (some s)) := by
  have hbody : Uncontrolled (s.toList.flatMap escaped) :=
    .flatMap fun c _ => uncontrolled_escaped c
  show Uncontrolled (['"'] ++ s.toList.flatMap escaped ++ ['"'])
  rw [Uncontrolled.append_iff, Uncontrolled.append_iff]
  exact ⟨⟨by simp [Uncontrolled], hbody⟩, by simp [Uncontrolled]⟩

theorem uncontrolled_numeral (n : UInt64) : Uncontrolled (Numeral.render n).toList := by
  intro c hc
  rw [Numeral.render, String.toList_ofList] at hc
  have hdigit := Numeral.isDigit_of_mem hc
  simp only [Char.isDigit, Bool.and_eq_true, decide_eq_true_eq] at hdigit
  have hle : '0'.val.toNat ≤ c.val.toNat := UInt32.le_iff_toNat_le.1 hdigit.1
  exact Nat.le_trans (by decide) hle

theorem itemChars_eq_map (items : List Json) : itemChars items = items.map chars := by
  induction items with
  | nil => rfl
  | cons item items ih => rw [itemChars, ih, List.map_cons]

theorem fieldChars_named (entries : List (String × Json)) : fieldChars (named entries) =
    entries.map fun entry => literalChars (some entry.1) ++ ':' :: chars entry.2 := by
  induction entries with
  | nil => rfl
  | cons entry entries ih =>
    show (literalChars (some entry.1) ++ ':' :: chars entry.2) :: fieldChars (named entries) = _
    rw [ih, List.map_cons]

/-- **What is written of a plain value has no control character.** -/
theorem Plain.uncontrolled {j : Json} (h : Plain j) : Uncontrolled (chars j) := by
  induction h with
  | null =>
    show Uncontrolled ['n', 'u', 'l', 'l']
    simp [Uncontrolled]
  | bool b =>
    cases b with
    | false =>
      show Uncontrolled ['f', 'a', 'l', 's', 'e']
      simp [Uncontrolled]
    | true =>
      show Uncontrolled ['t', 'r', 'u', 'e']
      simp [Uncontrolled]
  | word n => exact uncontrolled_numeral n
  | text s => exact uncontrolled_text s
  | @array items _ ih =>
    show Uncontrolled ('[' :: separated (itemChars items) ++ [']'])
    rw [itemChars_eq_map]
    refine .bracketed (by decide) (by decide) ?_
    rintro piece hpiece
    obtain ⟨item, hitem, rfl⟩ := List.mem_map.1 hpiece
    exact ih item hitem
  | @object entries _ ih =>
    show Uncontrolled ('{' :: separated (fieldChars (named entries)) ++ ['}'])
    rw [fieldChars_named]
    refine .bracketed (by decide) (by decide) ?_
    rintro piece hpiece
    obtain ⟨entry, hentry, rfl⟩ := List.mem_map.1 hpiece
    rw [Uncontrolled.append_iff, Uncontrolled.cons_iff]
    exact ⟨uncontrolled_text entry.1, by decide, ih entry hentry⟩

end Splittable.Json
