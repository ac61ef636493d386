import Splittable.Json.Printer
import Splittable.Json.Reader
import Splittable.Record

/-!
# A written document is read as it was

What is written of a value is read as that value, for the values that sources are written as: texts,
the numerals of machine words, and arrays and objects of such.

* `Json.Plain`               these values;
* `Json.stringBody_escaped`  a string is read back character by character;
* `Json.numeral?_render`     and so is a numeral, up to what follows it;
* `Json.parse_render`        the document of a plain value is read as that value.
-/

namespace Splittable

/-! ## numerals -/

namespace Numeral

theorem digit?_of_isDigit {c : Char} (h : c.isDigit = true) :
    digit? c = some (c.toNat - '0'.toNat) := by
  have hrange : '0' ≤ c ∧ c ≤ '9' := by
    simpa [Char.isDigit, Char.le_def] using h
  rw [digit?, if_pos hrange]

theorem ne_of_isDigit {c d : Char} (hc : c.isDigit = true) (hd : d.isDigit = false) : c ≠ d := by
  intro h
  rw [h, hd] at hc
  cases hc

theorem le_ofDigitChars (value : Nat) (cs : List Char) : value ≤ Nat.ofDigitChars 10 cs value := by
  induction cs generalizing value with
  | nil => exact Nat.le_refl value
  | cons c cs ih =>
    have hle := ih (10 * value + (c.toNat - '0'.toNat))
    show value ≤ Nat.ofDigitChars 10 cs (10 * value + (c.toNat - '0'.toNat))
    omega

/-- Digits that stay below the bound are read as the number they write. -/
theorem digits_eq {cs : List Char} {value : Nat} (hcs : ∀ c ∈ cs, c.isDigit = true)
    (h : Nat.ofDigitChars 10 cs value < bound) :
    digits value cs = .ok (Nat.ofDigitChars 10 cs value) := by
  induction cs generalizing value with
  | nil => rfl
  | cons c cs ih =>
    have hnext : value * 10 + (c.toNat - '0'.toNat) = 10 * value + (c.toNat - '0'.toNat) := by
      omega
    have hle := le_ofDigitChars (10 * value + (c.toNat - '0'.toNat)) cs
    have hlt : 10 * value + (c.toNat - '0'.toNat) < bound := Nat.lt_of_le_of_lt hle h
    unfold digits
    simp only [digit?_of_isDigit (hcs c List.mem_cons_self), hnext, if_pos hlt]
    exact ih (fun c hc => hcs c (List.mem_cons_of_mem _ hc)) h

theorem isDigit_of_mem {n : Nat} {c : Char} (h : c ∈ Nat.toDigits 10 n) : c.isDigit = true :=
  Nat.isDigit_of_mem_toDigits (by omega) (by omega) h

theorem toDigits_eq_cons (n : Nat) : ∃ c cs, Nat.toDigits 10 n = c :: cs ∧ c.isDigit = true := by
  cases h : Nat.toDigits 10 n with
  | nil => exact absurd h Nat.toDigits_ne_nil
  | cons c cs =>
    refine ⟨c, cs, rfl, isDigit_of_mem (n := n) ?_⟩
    rw [h]
    exact List.mem_cons_self

theorem render_eq_cons (n : UInt64) :
    ∃ c cs, (render n).toList = c :: cs ∧ c.isDigit = true := by
  rw [render, String.toList_ofList]
  exact toDigits_eq_cons n.toNat

theorem digitChar_ne_zero : ∀ n < 10, n ≠ 0 → Nat.digitChar n ≠ '0' := by
  decide

/-- Only zero is written with a zero in front. -/
theorem head?_toDigits (n : Nat) (h : n ≠ 0) : (Nat.toDigits 10 n).head? ≠ some '0' := by
  induction n using Nat.strongRecOn with
  | ind n ih =>
    by_cases hlt : n < 10
    · rw [Nat.toDigits_of_lt_base hlt]
      simpa using digitChar_ne_zero n hlt h
    · have hrest := ih (n / 10) (by omega) (by omega)
      obtain ⟨c, cs, hdigits, -⟩ := toDigits_eq_cons (n / 10)
      rw [hdigits] at hrest
      rw [Nat.toDigits_of_base_le (by omega) (by omega), hdigits]
      simpa using hrest

/-- **A word is read back from its numeral.** -/
theorem read?_render (n : UInt64) : read? (render n) = .ok n := by
  have hvalue : Nat.ofDigitChars 10 (Nat.toDigits 10 n.toNat) 0 = n.toNat :=
    Nat.ofDigitChars_toDigits (by omega) (by omega)
  have hdigits : digits 0 (Nat.toDigits 10 n.toNat) = .ok n.toNat := by
    rw [digits_eq (fun c hc => isDigit_of_mem hc) (by rw [hvalue]; exact n.toNat_lt), hvalue]
  obtain ⟨c, cs, hcons, hc⟩ := toDigits_eq_cons n.toNat
  have hplus : c ≠ '+' := ne_of_isDigit hc rfl
  have hread : readChars (c :: cs) = digits 0 (c :: cs) := by
    rw [readChars]
    · intro h
      cases h
    · intro _ _ h
      cases h
      exact hplus rfl
  rw [read?, render, String.toList_ofList, hcons, hread, ← hcons, hdigits]
  simp [Except.map]

end Numeral

namespace Json

/-- a value of texts and words, all field names being texts -/
inductive Plain : Json → Prop
  | null : Plain .null
  | bool (b : Bool) : Plain (.bool b)
  | word (n : UInt64) : Plain (ofWord64 n)
  | text (s : String) : Plain (ofText s)
  | array {items : List Json} : (∀ item ∈ items, Plain item) → Plain (.array items)
  | object {fields : List (String × Json)} : (∀ field ∈ fields, Plain field.2) →
      Plain (ofFields fields)

/-! ## strings -/

theorem controlCode_eq : ∀ n < 0x20,
    controlCode (Char.ofNat n) = ['0', '0', Nat.digitChar (n / 16), Nat.digitChar (n % 16)] := by
  decide

theorem hexCode?_control : ∀ n < 0x20,
    hexCode? '0' '0' (Nat.digitChar (n / 16)) (Nat.digitChar (n % 16)) = some n := by
  decide

theorem stringBody_of_unescaped {c : Char} (hquote : c ≠ '"') (hslash : c ≠ '\\')
    (hcontrol : ¬c.toNat < 0x20) (acc rest : List Char) :
    stringBody none acc true (c :: rest) = stringBody none (c :: acc) true rest := by
  rw [stringBody]
  · simp [hcontrol, hslash]
  · exact hquote
  · exact fun _ _ _ _ _ h _ => hslash h
  · exact fun _ _ h _ => hslash h

/-- A character is read back from what stands for it. -/
theorem stringBody_escaped (c : Char) (acc rest : List Char) :
    stringBody none acc true (escaped c ++ rest) = stringBody none (c :: acc) true rest := by
  unfold escaped
  split
  case h_8 _ hquote hslash _ _ _ _ _ =>
    by_cases hcontrol : c.toNat < 0x20
    · have hcode := controlCode_eq c.toNat hcontrol
      have hread := hexCode?_control c.toNat hcontrol
      rw [Char.ofNat_toNat] at hcode
      rw [if_pos hcontrol, hcode]
      -- the code of a control character is no half of a surrogate pair
      have hlow : ¬(0xD800 ≤ c.toNat ∧ c.toNat ≤ 0xDBFF) := by omega
      have hhigh : ¬(0xDC00 ≤ c.toNat ∧ c.toNat ≤ 0xDFFF) := by omega
      simp [stringBody, hread, hlow, hhigh]
    · rw [if_neg hcontrol]
      exact stringBody_of_unescaped hquote hslash hcontrol acc rest
  all_goals simp [stringBody, escape?]

theorem stringBody_flatMap (cs acc rest : List Char) :
    stringBody none acc true (cs.flatMap escaped ++ '"' :: rest) =
      some (some (String.ofList (acc.reverse ++ cs)), rest) := by
  induction cs generalizing acc with
  | nil => simp [stringBody]
  | cons c cs ih =>
    rw [List.flatMap_cons, List.append_assoc, stringBody_escaped, ih]
    simp

theorem stringBody_text (s : String) (rest : List Char) :
    stringBody none [] true (s.toList.flatMap escaped ++ '"' :: rest) = some (some s, rest) := by
  rw [stringBody_flatMap]
  simp

/-! ## numbers -/

/-- a text that may follow an item or a field -/
def Ended (rest : List Char) : Prop := ∀ c ∈ rest.head?, c = ',' ∨ c = ']' ∨ c = '}'

theorem ended_nil : Ended [] := by
  intro c h
  cases h

theorem ended_cons {c : Char} (h : c = ',' ∨ c = ']' ∨ c = '}') (rest : List Char) :
    Ended (c :: rest) := by
  intro d hd
  cases hd
  exact h

theorem isDigit_of_mem {n : Nat} {c : Char} (h : c ∈ Nat.toDigits 10 n) : isDigit c = true := by
  simpa [isDigit, Char.isDigit, Char.le_def] using Numeral.isDigit_of_mem h

theorem digits?_toDigits (n : Nat) {rest : List Char} (h : Ended rest) :
    digits? (Nat.toDigits 10 n ++ rest) = some (Nat.toDigits 10 n, rest) := by
  have hstop : rest.takeWhile isDigit = [] ∧ rest.dropWhile isDigit = rest := by
    cases rest with
    | nil => exact ⟨rfl, rfl⟩
    | cons c cs =>
      have hc : isDigit c = false := by
        obtain rfl | rfl | rfl := h c rfl
        all_goals decide
      simp [hc]
  have hrun : (Nat.toDigits 10 n ++ rest).takeWhile isDigit = Nat.toDigits 10 n := by
    rw [List.takeWhile_append_of_pos (fun c hc => isDigit_of_mem hc), hstop.1, List.append_nil]
  have hrest : (Nat.toDigits 10 n ++ rest).dropWhile isDigit = rest := by
    rw [List.dropWhile_append_of_pos (fun c hc => isDigit_of_mem hc), hstop.2]
  obtain ⟨c, cs, hdigits, -⟩ := Numeral.toDigits_eq_cons n
  rw [digits?, hrun, hrest, hdigits]

theorem integer?_toDigits (n : Nat) {rest : List Char} (h : Ended rest) :
    integer? (Nat.toDigits 10 n ++ rest) = some (Nat.toDigits 10 n, rest) := by
  have hlead : (Nat.toDigits 10 n).head? = some '0' → (Nat.toDigits 10 n).length = 1 := by
    intro hhead
    by_cases hzero : n = 0
    · subst hzero
      rfl
    · exact absurd hhead (Numeral.head?_toDigits n hzero)
  simpa [integer?, digits?_toDigits n h] using hlead

theorem fraction?_of_ended {rest : List Char} (h : Ended rest) :
    fraction? rest = some ([], rest) := by
  cases rest with
  | nil => rfl
  | cons c cs =>
    obtain rfl | rfl | rfl := h c rfl
    all_goals rfl

theorem exponent?_of_ended {rest : List Char} (h : Ended rest) :
    exponent? rest = some ([], rest) := by
  match rest with
  | [] => rfl
  | [c] =>
    obtain rfl | rfl | rfl := h c rfl
    all_goals rfl
  | c :: d :: cs =>
    obtain rfl | rfl | rfl := h c rfl
    all_goals rfl

/-- A numeral is read up to the end of the item or field that it is. -/
theorem numeral?_render (n : UInt64) {rest : List Char} (h : Ended rest) :
    numeral? ((Numeral.render n).toList ++ rest) = some ((Numeral.render n).toList, rest) := by
  rw [Numeral.render, String.toList_ofList]
  have hunsigned : unsigned? (Nat.toDigits 10 n.toNat ++ rest) =
      some (Nat.toDigits 10 n.toNat, rest) := by
    simp [unsigned?, integer?_toDigits n.toNat h, fraction?_of_ended h, exponent?_of_ended h]
  obtain ⟨c, cs, hdigits, hc⟩ := Numeral.toDigits_eq_cons n.toNat
  rw [hdigits, List.cons_append] at hunsigned ⊢
  have hminus : c ≠ '-' := Numeral.ne_of_isDigit hc rfl
  rw [numeral?]
  · exact hunsigned
  · intro _ h
    cases h
    exact hminus rfl

/-! ## values -/

theorem isSpace_of_isDigit {c : Char} (h : c.isDigit = true) : isSpace c = false := by
  have hne {d : Char} (hd : d.isDigit = false) : (c == d) = false :=
    beq_false_of_ne (Numeral.ne_of_isDigit h hd)
  rw [isSpace, hne rfl, hne rfl, hne rfl, hne rfl]
  rfl

theorem skipSpace_cons {c : Char} (h : isSpace c = false) (cs : List Char) :
    skipSpace (c :: cs) = c :: cs := by
  rw [skipSpace, List.dropWhile_cons_of_neg (by simp [h])]

theorem value_of_digit {c : Char} (h : c.isDigit = true) (fuel : Nat) (cs : List Char) :
    value (fuel + 1) (c :: cs) =
      (numeral? (c :: cs)).map fun (run, rest) => (.number (String.ofList run), rest) := by
  unfold value
  rw [skipSpace_cons (isSpace_of_isDigit h)]
  split
  case h_7 => rfl
  all_goals
    rename_i heq
    cases heq
    exact absurd h (by decide)

/-- The first character of a plain value: no blank, and no bracket that closes an array. -/
theorem Plain.chars_eq_cons {j : Json} (h : Plain j) :
    ∃ c cs, chars j = c :: cs ∧ isSpace c = false ∧ c ≠ ']' := by
  cases h with
  | null => exact ⟨'n', _, rfl, by decide, by decide⟩
  | bool b =>
    cases b with
    | false => exact ⟨'f', _, rfl, by decide, by decide⟩
    | true => exact ⟨'t', _, rfl, by decide, by decide⟩
  | word n =>
    obtain ⟨c, cs, hcons, hc⟩ := Numeral.render_eq_cons n
    exact ⟨c, cs, hcons, isSpace_of_isDigit hc, Numeral.ne_of_isDigit hc rfl⟩
  | text s => exact ⟨'"', _, rfl, by decide, by decide⟩
  | array _ => exact ⟨'[', _, rfl, by decide, by decide⟩
  | object _ => exact ⟨'{', _, rfl, by decide, by decide⟩

/-- A value is read back from the front of a text, with two steps of fuel for each character. -/
def ReadBack (j : Json) : Prop :=
  ∀ (fuel : Nat) (rest : List Char), 2 * (chars j).length ≤ fuel → Ended rest →
    value fuel (chars j ++ rest) = some (j, rest)

theorem separated_items (item next : Json) (items : List Json) :
    separated (itemChars (item :: next :: items)) =
      chars item ++ ',' :: separated (itemChars (next :: items)) := rfl

theorem separated_fields (key : Option String) (content : Json)
    (next : Option String × Json) (fields : List (Option String × Json)) :
    separated (fieldChars ((key, content) :: next :: fields)) =
      literalChars key ++
        ':' :: (chars content ++ ',' :: separated (fieldChars (next :: fields))) := by
  show (literalChars key ++ ':' :: chars content) ++
    ',' :: separated (fieldChars (next :: fields)) = _
  simp

section
variable {item content : Json} {key : String} {fuel : Nat} {rest : List Char}

theorem elements_last (acc : List Json)
    (hitem : value fuel (chars item ++ ']' :: rest) = some (item, ']' :: rest)) :
    elements (fuel + 1) acc (chars item ++ ']' :: rest) =
      some (.array (item :: acc).reverse, rest) := by
  have hclose : skipSpace (']' :: rest) = ']' :: rest := skipSpace_cons rfl rest
  simp only [elements, hitem, hclose]

theorem elements_onward (acc : List Json)
    (hitem : value fuel (chars item ++ ',' :: rest) = some (item, ',' :: rest)) :
    elements (fuel + 1) acc (chars item ++ ',' :: rest) = elements fuel (item :: acc) rest := by
  have hcomma : skipSpace (',' :: rest) = ',' :: rest := skipSpace_cons rfl rest
  simp only [elements, hitem, hcomma]

theorem stringBody_literal (s : String) (rest : List Char) :
    ∃ body, literalChars (some s) ++ rest = '"' :: body ∧
      stringBody none [] true body = some (some s, rest) := by
  refine ⟨s.toList.flatMap escaped ++ '"' :: rest, ?_, stringBody_text s rest⟩
  show stringChars s ++ rest = _
  simp [stringChars]

theorem fields_last (acc : List (Option String × Json))
    (hcontent : value fuel (chars content ++ '}' :: rest) = some (content, '}' :: rest)) :
    fields (fuel + 1) acc (literalChars (some key) ++ ':' :: (chars content ++ '}' :: rest)) =
      some (.object ((some key, content) :: acc).reverse, rest) := by
  obtain ⟨body, hquote, hbody⟩ := stringBody_literal key (':' :: (chars content ++ '}' :: rest))
  have hopen : skipSpace ('"' :: body) = '"' :: body := skipSpace_cons rfl body
  have hcolon (cs : List Char) : skipSpace (':' :: cs) = ':' :: cs := skipSpace_cons rfl cs
  have hclose : skipSpace ('}' :: rest) = '}' :: rest := skipSpace_cons rfl rest
  rw [hquote]
  simp only [fields, hopen, hbody, hcolon, hcontent, hclose]

theorem fields_onward (acc : List (Option String × Json))
    (hcontent : value fuel (chars content ++ ',' :: rest) = some (content, ',' :: rest)) :
    fields (fuel + 1) acc (literalChars (some key) ++ ':' :: (chars content ++ ',' :: rest)) =
      fields fuel ((some key, content) :: acc) rest := by
  obtain ⟨body, hquote, hbody⟩ := stringBody_literal key (':' :: (chars content ++ ',' :: rest))
  have hopen : skipSpace ('"' :: body) = '"' :: body := skipSpace_cons rfl body
  have hcolon (cs : List Char) : skipSpace (':' :: cs) = ':' :: cs := skipSpace_cons rfl cs
  have hcomma : skipSpace (',' :: rest) = ',' :: rest := skipSpace_cons rfl rest
  rw [hquote]
  simp only [fields, hopen, hbody, hcolon, hcontent, hcomma]

end

/-- The rest of an array is read back where its items are.  An item spends fuel for its own
characters, and one step for the comma or the bracket after it. -/
theorem elements_separated {items : List Json} (hne : items ≠ [])
    (hitems : ∀ item ∈ items, ReadBack item) (acc : List Json) (rest : List Char) (fuel : Nat)
    (hfuel : 2 * (separated (itemChars items)).length + 1 ≤ fuel) :
    elements fuel acc (separated (itemChars items) ++ ']' :: rest) =
      some (.array (acc.reverse ++ items), rest) := by
  induction items generalizing acc fuel with
  | nil => exact absurd rfl hne
  | cons item items ih =>
    obtain ⟨fuel, rfl⟩ : ∃ less, fuel = less + 1 := ⟨fuel - 1, by omega⟩
    have hitem := hitems item List.mem_cons_self fuel
    cases items with
    | nil =>
      have hpiece : separated (itemChars [item]) = chars item := rfl
      rw [hpiece] at hfuel ⊢
      rw [elements_last acc (hitem (']' :: rest) (by omega) (ended_cons (by simp) rest))]
      simp
    | cons next items =>
      rw [separated_items] at hfuel ⊢
      rw [List.length_append, List.length_cons] at hfuel
      rw [List.append_assoc, List.cons_append,
        elements_onward acc (hitem _ (by omega) (ended_cons (by simp) _)),
        ih (by simp) (fun item h => hitems item (List.mem_cons_of_mem _ h)) _ _ (by omega)]
      simp

/-- The fields of an object as they are written, all of their names being texts. -/
def named (entries : List (String × Json)) : List (Option String × Json) :=
  entries.map fun entry => (some entry.1, entry.2)

/-- The rest of an object is read back where its fields are. -/
theorem fields_separated {entries : List (String × Json)} (hne : entries ≠ [])
    (hentries : ∀ entry ∈ entries, ReadBack entry.2) (acc : List (Option String × Json))
    (rest : List Char) (fuel : Nat)
    (hfuel : 2 * (separated (fieldChars (named entries))).length + 1 ≤ fuel) :
    fields fuel acc (separated (fieldChars (named entries)) ++ '}' :: rest) =
      some (.object (acc.reverse ++ named entries), rest) := by
  induction entries generalizing acc fuel with
  | nil => exact absurd rfl hne
  | cons entry entries ih =>
    obtain ⟨key, content⟩ := entry
    obtain ⟨fuel, rfl⟩ : ∃ less, fuel = less + 1 := ⟨fuel - 1, by omega⟩
    have hcontent : ReadBack content := hentries (key, content) List.mem_cons_self
    cases entries with
    | nil =>
      have hpiece : separated (fieldChars (named [(key, content)])) =
          literalChars (some key) ++ ':' :: chars content := rfl
      rw [hpiece] at hfuel ⊢
      rw [List.length_append, List.length_cons] at hfuel
      rw [List.append_assoc, List.cons_append,
        fields_last acc (hcontent fuel _ (by omega) (ended_cons (by simp) rest))]
      simp [named]
    | cons next entries =>
      have hpieces : separated (fieldChars (named ((key, content) :: next :: entries))) =
          literalChars (some key) ++
            ':' :: (chars content ++ ',' :: separated (fieldChars (named (next :: entries)))) :=
        separated_fields _ _ _ _
      rw [hpieces] at hfuel ⊢
      simp only [List.length_append, List.length_cons] at hfuel
      simp only [List.append_assoc, List.cons_append]
      rw [fields_onward acc (hcontent fuel _ (by omega) (ended_cons (by simp) _)),
        ih (by simp) (fun entry h => hentries entry (List.mem_cons_of_mem _ h)) _ _ (by omega)]
      simp [named]

theorem readBack_of_succ {j : Json} (hne : chars j ≠ [])
    (h : ∀ (fuel : Nat) (rest : List Char), 2 * (chars j).length ≤ fuel + 1 → Ended rest →
      value (fuel + 1) (chars j ++ rest) = some (j, rest)) : ReadBack j := by
  intro fuel rest hfuel hrest
  cases fuel with
  | zero =>
    have hpos := List.length_pos_iff.2 hne
    omega
  | succ fuel => exact h fuel rest hfuel hrest

theorem readBack_word (n : UInt64) : ReadBack (ofWord64 n) := by
  have hchars : chars (ofWord64 n) = (Numeral.render n).toList := rfl
  obtain ⟨c, cs, hcons, hc⟩ := Numeral.render_eq_cons n
  refine readBack_of_succ (by rw [hchars, hcons]; simp) ?_
  intro fuel rest _ hrest
  have hread := numeral?_render n hrest
  rw [hcons, List.cons_append] at hread
  rw [hchars, hcons, List.cons_append, value_of_digit hc, hread]
  simp [ofWord64, ← hcons]

theorem readBack_text (s : String) : ReadBack (ofText s) := by
  have hchars : chars (ofText s) = literalChars (some s) := rfl
  refine readBack_of_succ (List.cons_ne_nil '"' _) ?_
  intro fuel rest _ _
  obtain ⟨body, hquote, hbody⟩ := stringBody_literal s rest
  have hopen : skipSpace ('"' :: body) = '"' :: body := skipSpace_cons rfl body
  rw [hchars, hquote]
  simp [value, hopen, hbody, ofText]

theorem separated_eq_cons {item : Json} (h : Plain item) (items : List Json) :
    ∃ c cs, separated (itemChars (item :: items)) = c :: cs ∧ isSpace c = false ∧ c ≠ ']' := by
  obtain ⟨c, cs, hitem, hspace, hclose⟩ := h.chars_eq_cons
  cases items with
  | nil => exact ⟨c, cs, hitem, hspace, hclose⟩
  | cons next items =>
    refine ⟨c, cs ++ ',' :: separated (itemChars (next :: items)), ?_, hspace, hclose⟩
    rw [separated_items, hitem]
    rfl

theorem value_of_items {c : Char} (hspace : isSpace c = false) (hclose : c ≠ ']') (fuel : Nat)
    (cs : List Char) : value (fuel + 1) ('[' :: c :: cs) = elements fuel [] (c :: cs) := by
  have hopen : skipSpace ('[' :: c :: cs) = '[' :: c :: cs := skipSpace_cons rfl _
  simp only [value, hopen, skipSpace_cons hspace]
  split
  · rename_i heq
    cases heq
    exact absurd rfl hclose
  · rfl

theorem readBack_array {items : List Json} (hplain : ∀ item ∈ items, Plain item)
    (hitems : ∀ item ∈ items, ReadBack item) : ReadBack (.array items) := by
  have hchars : chars (.array items) = '[' :: (separated (itemChars items) ++ [']']) := rfl
  refine readBack_of_succ (by rw [hchars]; simp) ?_
  intro fuel rest hfuel _
  cases items with
  | nil => rfl
  | cons item items =>
    obtain ⟨c, cs, hcons, hspace, hclose⟩ :=
      separated_eq_cons (hplain item List.mem_cons_self) items
    have hread := elements_separated (List.cons_ne_nil item items) hitems [] rest fuel
      (by simp [hchars] at hfuel; omega)
    rw [hcons, List.cons_append] at hread
    rw [hchars, hcons, List.cons_append, List.cons_append, List.cons_append, List.append_assoc,
      value_of_items hspace hclose]
    exact hread

theorem readBack_object {entries : List (String × Json)}
    (hentries : ∀ entry ∈ entries, ReadBack entry.2) : ReadBack (ofFields entries) := by
  have hchars : chars (ofFields entries) =
      '{' :: (separated (fieldChars (named entries)) ++ ['}']) := rfl
  refine readBack_of_succ (by rw [hchars]; simp) ?_
  intro fuel rest hfuel _
  cases entries with
  | nil => rfl
  | cons entry entries =>
    have hread := fields_separated (List.cons_ne_nil entry entries) hentries [] rest fuel
      (by simp [hchars] at hfuel; omega)
    obtain ⟨cs, hcons⟩ : ∃ cs, separated (fieldChars (named (entry :: entries))) = '"' :: cs := by
      cases entries with
      | nil => exact ⟨_, rfl⟩
      | cons next entries => exact ⟨_, rfl⟩
    rw [hcons, List.cons_append] at hread
    rw [hchars, hcons, List.cons_append, List.cons_append, List.cons_append, List.append_assoc]
    exact hread

/-- A plain value is read back. -/
theorem Plain.readBack {j : Json} (h : Plain j) : ReadBack j := by
  induction h with
  | null => exact readBack_of_succ (List.cons_ne_nil _ _) (fun _ _ _ _ => rfl)
  | bool b =>
    cases b with
    | false => exact readBack_of_succ (List.cons_ne_nil _ _) (fun _ _ _ _ => rfl)
    | true => exact readBack_of_succ (List.cons_ne_nil _ _) (fun _ _ _ _ => rfl)
  | word n => exact readBack_word n
  | text s => exact readBack_text s
  | array hitems ih => exact readBack_array hitems ih
  | object hfields ih => exact readBack_object ih

/-- **The document of a plain value is read as that value.** -/
theorem parse_render {j : Json} (h : Plain j) : parse (render j) = some j := by
  have hread := h.readBack (2 * (chars j).length + 2) [] (by omega) ended_nil
  rw [List.append_nil] at hread
  simp [parse, render, hread, skipSpace]

end Json

end Splittable
