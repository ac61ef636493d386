import Splittable.Proofs.Resource.Glob

/-!
# Patterns and separators

A pattern is for one name of a path, so it should match no text with a `/` in it.  Runs and single
characters refuse the separator, and a pattern without a `/` has no token for it alone.  A class
takes it like any other character.

* `Token.Crosses`            a class that has the separator;
* `Token.Matches.crosses`    what takes a separator is a class that has it;
* `Reads.not_exactly`        no token of a pattern without a `/` is the separator itself;
* `exists_crossing`          a match of a text with a separator goes through such a class;
* `never_crosses_iff`        which patterns match no text with a separator.
-/

namespace Splittable.Glob

variable {pattern : String} {tokens front back : List Token} {text before after : List Char}

/-- The class has the separator: one of its ranges does or, where it is negated, none does. -/
def Token.Crosses : Token → Prop
  | .oneOf false ranges => ∃ range ∈ ranges, range.1 ≤ '/' ∧ '/' ≤ range.2
  | .oneOf true ranges => ¬∃ range ∈ ranges, range.1 ≤ '/' ∧ '/' ≤ range.2
  | _ => False

theorem Token.Crosses.matches {token : Token} (h : token.Crosses) : token.Matches ['/'] := by
  cases token with
  | many => cases h
  | one => cases h
  | exactly c => cases h
  | oneOf negated ranges =>
    cases negated with
    | false => exact .inside h
    | true => exact .outside h

/-- A token that takes a separator is a class that has it, and it takes nothing more. -/
theorem Token.Matches.crosses {token : Token} {part : List Char} (h : token.Matches part)
    (hmem : '/' ∈ part) (hne : token ≠ .exactly '/') : token.Crosses ∧ part = ['/'] := by
  cases h with
  | many hrun => exact absurd hmem hrun
  | one hc => exact absurd (List.mem_singleton.1 hmem).symm hc
  | inside hranges =>
    obtain rfl := List.mem_singleton.1 hmem
    exact ⟨hranges, rfl⟩
  | outside hranges =>
    obtain rfl := List.mem_singleton.1 hmem
    exact ⟨hranges, rfl⟩
  | exactly =>
    obtain rfl := List.mem_singleton.1 hmem
    exact absurd rfl hne

/-! ## patterns without a separator -/

theorem Class.subset {cs members rest : List Char} {negated : Bool}
    (h : Class cs negated members rest) : rest ⊆ cs := by
  intro c hc
  cases h with
  | plain => simp [hc]
  | negated => simp [hc]

/-- A pattern without a separator has no token for it alone. -/
theorem Reads.not_exactly {cs : List Char} (h : Reads cs tokens) (hcs : '/' ∉ cs) :
    .exactly '/' ∉ tokens := by
  induction h with
  | nil => exact List.not_mem_nil
  | many _ ih => simpa using ih (mt (List.mem_cons_of_mem _) hcs)
  | one _ ih => simpa using ih (mt (List.mem_cons_of_mem _) hcs)
  | oneOf hclass _ _ ih =>
    simpa using ih fun hmem => hcs (List.mem_cons_of_mem _ (hclass.subset hmem))
  | bracket _ _ ih => simpa using ih (mt (List.mem_cons_of_mem _) hcs)
  | escaped _ ih =>
    simp only [List.mem_cons, not_or] at hcs
    simpa using ⟨hcs.2.1, ih hcs.2.2⟩
  | backslash => simp
  | plain _ _ _ _ _ ih =>
    rw [List.mem_cons, not_or] at hcs
    simpa using ⟨hcs.1, ih hcs.2⟩

/-! ## a text with a separator -/

theorem matchAll_append : Token.matchAll (front ++ back) text = true ↔
    ∃ before after, text = before ++ after ∧ Token.matchAll front before = true ∧
      Token.matchAll back after = true := by
  induction front generalizing text with
  | nil =>
    constructor
    · intro h
      exact ⟨[], text, rfl, rfl, h⟩
    · rintro ⟨before, after, rfl, hbefore, hafter⟩
      obtain rfl : before = [] := List.isEmpty_iff.1 hbefore
      exact hafter
  | cons token front ih =>
    rw [List.cons_append, matchAll_cons]
    constructor
    · rintro ⟨part, rest, rfl, hpart, hrest⟩
      obtain ⟨before, after, rfl, hbefore, hafter⟩ := ih.1 hrest
      exact ⟨part ++ before, after, (List.append_assoc ..).symm,
        matchAll_cons.2 ⟨part, before, rfl, hpart, hbefore⟩, hafter⟩
    · rintro ⟨_, after, rfl, hbefore, hafter⟩
      obtain ⟨part, before, rfl, hpart, hbefore⟩ := matchAll_cons.1 hbefore
      exact ⟨part, before ++ after, List.append_assoc .., hpart,
        ih.2 ⟨before, after, rfl, hbefore, hafter⟩⟩

/-- The separator is what one of the classes takes, between matches of the tokens before and
behind that class. -/
def CrossesAt (tokens : List Token) (text : List Char) : Prop :=
  ∃ front token back before after, tokens = front ++ token :: back ∧ token.Crosses ∧
    text = before ++ '/' :: after ∧ Token.matchAll front before = true ∧
    Token.matchAll back after = true

theorem CrossesAt.matchAll (h : CrossesAt tokens text) : Token.matchAll tokens text = true := by
  obtain ⟨front, token, back, before, after, rfl, hcrosses, rfl, hbefore, hafter⟩ := h
  exact matchAll_append.2 ⟨before, '/' :: after, rfl, hbefore,
    matchAll_cons.2 ⟨['/'], after, rfl, hcrosses.matches, hafter⟩⟩

/-- **A match of a text with a separator goes through a class that has it.** -/
theorem exists_crossing (hplain : .exactly '/' ∉ tokens) (hmem : '/' ∈ text)
    (h : Token.matchAll tokens text = true) : CrossesAt tokens text := by
  induction tokens generalizing text with
  | nil =>
    obtain rfl : text = [] := List.isEmpty_iff.1 h
    cases hmem
  | cons token tokens ih =>
    rw [List.mem_cons, not_or] at hplain
    obtain ⟨part, rest, rfl, hpart, hrest⟩ := matchAll_cons.1 h
    by_cases hhere : '/' ∈ part
    · -- the first token takes the separator, so it is the class
      obtain ⟨hcrosses, rfl⟩ := hpart.crosses hhere (Ne.symm hplain.1)
      exact ⟨[], token, tokens, [], rest, rfl, hcrosses, rfl, rfl, hrest⟩
    · have hthere : '/' ∈ rest := (List.mem_append.1 hmem).resolve_left hhere
      obtain ⟨front, taker, back, before, after, rfl, hcrosses, rfl, hbefore, hafter⟩ :=
        ih hplain.2 hthere hrest
      exact ⟨token :: front, taker, back, part ++ before, after, rfl, hcrosses,
        (List.append_assoc ..).symm, matchAll_cons.2 ⟨part, before, rfl, hpart, hbefore⟩, hafter⟩

/-- Tokens that stand for something each match some text. -/
theorem exists_matchAll (h : ∀ token ∈ tokens, ∃ part, token.Matches part) :
    ∃ text, Token.matchAll tokens text = true := by
  induction tokens with
  | nil => exact ⟨[], rfl⟩
  | cons token tokens ih =>
    obtain ⟨part, hpart⟩ := h token List.mem_cons_self
    obtain ⟨text, htext⟩ := ih fun t ht => h t (List.mem_cons_of_mem _ ht)
    exact ⟨part ++ text, matchAll_cons.2 ⟨part, text, rfl, hpart, htext⟩⟩

theorem exists_part_of_matchAll (h : Token.matchAll tokens text = true) {token : Token}
    (hmem : token ∈ tokens) : ∃ part, token.Matches part := by
  obtain ⟨front, back, rfl⟩ := List.append_of_mem hmem
  obtain ⟨_, _, -, -, hback⟩ := matchAll_append.1 h
  obtain ⟨part, _, -, hpart, -⟩ := matchAll_cons.1 hback
  exact ⟨part, hpart⟩

/-- Some text with a separator is matched where a class has the separator, and no class is without
a character. -/
theorem exists_separator_iff (hplain : .exactly '/' ∉ tokens) :
    (∃ text, '/' ∈ text ∧ Token.matchAll tokens text = true) ↔
      (∃ token ∈ tokens, token.Crosses) ∧ ∀ token ∈ tokens, ∃ part, token.Matches part := by
  constructor
  · rintro ⟨text, hmem, h⟩
    obtain ⟨front, token, back, -, -, rfl, hcrosses, -⟩ := exists_crossing hplain hmem h
    exact ⟨⟨token, by simp, hcrosses⟩, fun t ht => exists_part_of_matchAll h ht⟩
  · rintro ⟨⟨token, hmem, hcrosses⟩, hparts⟩
    obtain ⟨front, back, rfl⟩ := List.append_of_mem hmem
    obtain ⟨before, hbefore⟩ :=
      exists_matchAll fun t ht => hparts t (List.mem_append_left _ ht)
    obtain ⟨after, hafter⟩ :=
      exists_matchAll fun t ht => hparts t (List.mem_append_right _ (List.mem_cons_of_mem _ ht))
    have hcross : CrossesAt (front ++ token :: back) (before ++ '/' :: after) :=
      ⟨front, token, back, before, after, rfl, hcrosses, rfl, hbefore, hafter⟩
    exact ⟨before ++ '/' :: after, by simp, hcross.matchAll⟩

/-- **Which patterns match no text with a separator**: those that have no class with it, and those
that match nothing because one of their classes has no character at all.  Where a text with a
separator is matched, a class that has the separator takes it. -/
theorem never_crosses_iff (hpattern : '/' ∉ pattern.toList)
    (hreads : Reads pattern.toList tokens) :
    ((∀ text : String, '/' ∈ text.toList → Glob.matches pattern text = false) ↔
      (∀ token ∈ tokens, ¬token.Crosses) ∨ ∃ token ∈ tokens, ∀ part, ¬token.Matches part) ∧
    ∀ text : String, '/' ∈ text.toList →
      (Glob.matches pattern text = true ↔ CrossesAt tokens text.toList) := by
  have hplain := hreads.not_exactly hpattern
  have hmatches : ∀ text, Glob.matches pattern text = Token.matchAll tokens text.toList := by
    intro text
    rw [Glob.matches, hreads.ofPattern_eq]
  refine ⟨?_, fun text hmem => ?_⟩
  · have hnever : (∀ text : String, '/' ∈ text.toList → Glob.matches pattern text = false) ↔
        ¬∃ text, '/' ∈ text ∧ Token.matchAll tokens text = true := by
      constructor
      · rintro hall ⟨text, hmem, h⟩
        have hfalse := hall (String.ofList text) (by simpa using hmem)
        rw [hmatches, String.toList_ofList, h] at hfalse
        cases hfalse
      · intro hnone text hmem
        rw [hmatches, Bool.eq_false_iff]
        exact fun h => hnone ⟨text.toList, hmem, h⟩
    rw [hnever, exists_separator_iff hplain, not_and_or]
    simp only [not_exists, not_and, not_forall, exists_prop]
  · rw [hmatches]
    exact ⟨exists_crossing hplain hmem, CrossesAt.matchAll⟩

/-- everything but one letter, between two letters -/
theorem reads_other :
    Reads "a[!b]c".toList [.exactly 'a', .oneOf true [('b', 'b')], .exactly 'c'] := by
  have hclass : Class ['!', 'b', ']', 'c'] true ['b'] ['c'] :=
    .negated (.inl rfl) List.not_mem_nil
  have hmembers : Members ['b'] [('b', 'b')] := .single (fun _ _ => nofun) .nil
  have hlast : Reads ['c'] [.exactly 'c'] :=
    .plain (by decide) (by decide) (by decide) (by decide) .nil
  exact .plain (by decide) (by decide) (by decide) (by decide) (.oneOf hclass hmembers hlast)

theorem never_crosses_iff_other :
    '/' ∉ "a[!b]c".toList ∧
      Reads "a[!b]c".toList [.exactly 'a', .oneOf true [('b', 'b')], .exactly 'c'] ∧
      '/' ∈ "a/c".toList ∧
      ((∀ text : String, '/' ∈ text.toList → Glob.matches "a[!b]c" text = false) ↔
        (∀ token ∈ [.exactly 'a', .oneOf true [('b', 'b')], .exactly 'c'], ¬Token.Crosses token) ∨
          ∃ token ∈ [.exactly 'a', .oneOf true [('b', 'b')], .exactly 'c'],
            ∀ part, ¬Token.Matches token part) ∧
      (Glob.matches "a[!b]c" "a/c" = true ↔
        CrossesAt [.exactly 'a', .oneOf true [('b', 'b')], .exactly 'c'] "a/c".toList) := by
  have hpattern : '/' ∉ "a[!b]c".toList := by decide
  have hmem : '/' ∈ "a/c".toList := by decide
  obtain ⟨hnever, htext⟩ := never_crosses_iff hpattern reads_other
  exact ⟨hpattern, reads_other, hmem, hnever, htext "a/c" hmem⟩

/-- **A negated class crosses the separator.** -/
theorem crossed_by_negated :
    '/' ∉ "a[!b]c".toList ∧ '/' ∈ "a/c".toList ∧ Glob.matches "a[!b]c" "a/c" = true := by
  refine ⟨by decide, by decide, ?_⟩
  rw [Glob.matches, reads_other.ofPattern_eq]
  decide

end Splittable.Glob
