import Splittable.Resource.Glob
import Mathlib.Data.List.Forall2

/-!
# The language of a pattern

What a pattern means, told without matching: it is read from left to right as tokens, and it
stands for the texts that have a part for each token, one part after another.

* `Token.Matches`       the texts that one token stands for;
* `Members`, `Class`    how the inside of brackets is read;
* `Reads`               how a pattern is read;
* `reads_iff`           a pattern has one reading, and that is its tokens;
* `matchAll_iff`        tokens match the texts that have a part for each of them;
* `matches_iff_parts`   a pattern matches exactly the texts that it stands for.
-/

namespace Splittable.Glob

/-! ## how a pattern is read -/

/-- Members of a class, from left to right: two characters around a `-` are the ends of a range,
and any other character is a range of its own. -/
inductive Members : List Char → List (Char × Char) → Prop
  | nil : Members [] []
  | range {low high : Char} {rest : List Char} {ranges : List (Char × Char)} :
      Members rest ranges → Members (low :: '-' :: high :: rest) ((low, high) :: ranges)
  | single {c : Char} {rest : List Char} {ranges : List (Char × Char)} :
      (∀ high later, rest ≠ '-' :: high :: later) → Members rest ranges →
      Members (c :: rest) ((c, c) :: ranges)

/-- A class as it stands behind its `[`: a sign where it is negated, at least one member, and the
first `]` behind that member.  The first member may be a `]` itself. -/
inductive Class : List Char → Bool → List Char → List Char → Prop
  | plain {first : Char} {others rest : List Char} : first ≠ '!' → first ≠ '^' → ']' ∉ others →
      Class (first :: (others ++ ']' :: rest)) false (first :: others) rest
  | negated {sign first : Char} {others rest : List Char} : sign = '!' ∨ sign = '^' →
      ']' ∉ others →
      Class (sign :: first :: (others ++ ']' :: rest)) true (first :: others) rest

/-- A pattern and its tokens.  A `[` that begins no class and a `\` at the end stand for
themselves, as all characters do that have no meaning of their own. -/
inductive Reads : List Char → List Token → Prop
  | nil : Reads [] []
  | many {rest : List Char} {tokens : List Token} :
      Reads rest tokens → Reads ('*' :: rest) (.many :: tokens)
  | one {rest : List Char} {tokens : List Token} :
      Reads rest tokens → Reads ('?' :: rest) (.one :: tokens)
  | oneOf {cs members rest : List Char} {negated : Bool} {ranges : List (Char × Char)}
      {tokens : List Token} : Class cs negated members rest → Members members ranges →
      Reads rest tokens → Reads ('[' :: cs) (.oneOf negated ranges :: tokens)
  | bracket {cs : List Char} {tokens : List Token} :
      (∀ negated members rest, ¬Class cs negated members rest) → Reads cs tokens →
      Reads ('[' :: cs) (.exactly '[' :: tokens)
  | escaped {c : Char} {rest : List Char} {tokens : List Token} :
      Reads rest tokens → Reads ('\\' :: c :: rest) (.exactly c :: tokens)
  | backslash : Reads ['\\'] [.exactly '\\']
  | plain {c : Char} {rest : List Char} {tokens : List Token} : c ≠ '*' → c ≠ '?' → c ≠ '[' →
      c ≠ '\\' → Reads rest tokens → Reads (c :: rest) (.exactly c :: tokens)

theorem members_ranges (cs : List Char) : Members cs (ranges cs) := by
  fun_induction ranges cs with
  | case1 low high rest ih => exact .range ih
  | case2 c rest hrange ih => exact .single (fun high later => hrange high later) ih
  | case3 => exact .nil

theorem Members.ranges_eq {cs : List Char} {found : List (Char × Char)} (h : Members cs found) :
    ranges cs = found := by
  induction h with
  | nil => rfl
  | range _ ih => rw [ranges, ih]
  | single hrange _ ih => rw [ranges, ih]; exact hrange

theorem untilClose_eq_some_iff {cs before after : List Char} :
    untilClose cs = some (before, after) ↔ cs = before ++ ']' :: after ∧ ']' ∉ before := by
  induction cs generalizing before with
  | nil => simp [untilClose]
  | cons c cs ih =>
    unfold untilClose
    by_cases hc : c = ']'
    · subst hc
      rw [if_pos rfl]
      cases before with
      | nil => simp [eq_comm]
      | cons b before => simp +contextual [eq_comm]
    · rw [if_neg hc, Option.map_eq_some_iff]
      constructor
      · rintro ⟨⟨b, a⟩, hfound, he⟩
        cases he
        obtain ⟨rfl, hb⟩ := ih.1 hfound
        exact ⟨rfl, by simp [hb, Ne.symm hc]⟩
      · rintro ⟨hcs, hbefore⟩
        cases before with
        | nil => simp [hc] at hcs
        | cons b before =>
          obtain ⟨rfl, hrest⟩ := List.cons.inj hcs
          rw [List.mem_cons, not_or] at hbefore
          exact ⟨(before, after), ih.2 ⟨hrest, hbefore.2⟩, rfl⟩

/-- There is a first member, and it is not asked whether it closes the class. -/
theorem members?_eq_some_iff {cs members rest : List Char} :
    members? cs = some (members, rest) ↔ ∃ first others, members = first :: others ∧
      cs = first :: (others ++ ']' :: rest) ∧ ']' ∉ others := by
  unfold members?
  split
  · rename_i body
    rw [Option.map_eq_some_iff]
    constructor
    · rintro ⟨⟨others, after⟩, hclose, he⟩
      cases he
      obtain ⟨rfl, hothers⟩ := untilClose_eq_some_iff.1 hclose
      exact ⟨_, others, rfl, rfl, hothers⟩
    · rintro ⟨first, others, rfl, hcs, hothers⟩
      cases hcs
      exact ⟨(others, rest), untilClose_eq_some_iff.2 ⟨rfl, hothers⟩, rfl⟩
  · rename_i hfirst
    rw [untilClose_eq_some_iff]
    constructor
    · rintro ⟨rfl, hmembers⟩
      cases members with
      | nil => exact absurd rfl (hfirst rest)
      | cons first others =>
        rw [List.mem_cons, not_or] at hmembers
        exact ⟨first, others, rfl, rfl, hmembers.2⟩
    · rintro ⟨first, others, rfl, rfl, hothers⟩
      have hne : first ≠ ']' := fun e => hfirst _ (by rw [e])
      exact ⟨rfl, by simp [hothers, hne.symm]⟩

theorem class?_eq_some_iff {cs members rest : List Char} {negated : Bool} :
    class? cs = some ((negated, members), rest) ↔ Class cs negated members rest := by
  unfold class?
  constructor
  · intro h
    split at h
    all_goals
      obtain ⟨⟨m, r⟩, hm, he⟩ := Option.map_eq_some_iff.1 h
      cases he
      obtain ⟨first, others, rfl, rfl, hothers⟩ := members?_eq_some_iff.1 hm
    · exact .negated (.inl rfl) hothers
    · exact .negated (.inr rfl) hothers
    · rename_i hbang hcaret
      exact .plain (fun e => hbang _ (by rw [e])) (fun e => hcaret _ (by rw [e])) hothers
  · intro h
    cases h with
    | plain hbang hcaret hothers =>
      split
      · rename_i heq
        exact absurd (List.cons.inj heq).1 hbang
      · rename_i heq
        exact absurd (List.cons.inj heq).1 hcaret
      · rw [members?_eq_some_iff.2 ⟨_, _, rfl, rfl, hothers⟩]
        rfl
    | @negated sign first others _ hsign hothers =>
      have hmembers : members? (first :: (others ++ ']' :: rest)) = some (first :: others, rest) :=
        members?_eq_some_iff.2 ⟨first, others, rfl, rfl, hothers⟩
      obtain rfl | rfl := hsign
      · exact Option.map_eq_some_iff.2 ⟨_, hmembers, rfl⟩
      · exact Option.map_eq_some_iff.2 ⟨_, hmembers, rfl⟩

theorem reads_ofPattern (cs : List Char) : Reads cs (Token.ofPattern cs) := by
  fun_induction Token.ofPattern cs with
  | case1 => exact .nil
  | case2 rest ih => exact .many ih
  | case3 rest ih => exact .one ih
  | case4 rest negated members rest' h hlt ih =>
    exact .oneOf (class?_eq_some_iff.1 h) (members_ranges members) ih
  | case5 rest h ih =>
    refine .bracket (fun negated members rest' hclass => ?_) ih
    rw [class?_eq_some_iff.2 hclass] at h
    cases h
  | case6 c rest ih => exact .escaped ih
  | case7 c rest hmany hone hclass hescaped ih =>
    by_cases hc : c = '\\'
    · subst hc
      cases rest with
      | nil =>
        rw [Token.ofPattern]
        exact .backslash
      | cons d rest => exact absurd rfl (fun e => hescaped d rest rfl e)
    · exact .plain hmany hone hclass hc ih

theorem Reads.ofPattern_eq {cs : List Char} {tokens : List Token} (h : Reads cs tokens) :
    Token.ofPattern cs = tokens := by
  induction h with
  | nil => rw [Token.ofPattern]
  | many _ ih => rw [Token.ofPattern, ih]
  | one _ ih => rw [Token.ofPattern, ih]
  | oneOf hclass hmembers _ ih =>
    have hfound := class?_eq_some_iff.2 hclass
    rw [Token.ofPattern]
    split
    · rename_i h
      cases hfound.symm.trans h
      rw [hmembers.ranges_eq, ih]
    · rename_i h
      cases hfound.symm.trans h
  | bracket hclass _ ih =>
    rw [Token.ofPattern]
    split
    · rename_i h
      exact absurd (class?_eq_some_iff.1 h) (hclass _ _ _)
    · rw [ih]
  | escaped _ ih => rw [Token.ofPattern, ih]
  | backslash => simp [Token.ofPattern]
  | plain hmany hone hclass hescaped _ ih =>
    rw [Token.ofPattern, ih]
    · exact hmany
    · exact hone
    · exact hclass
    · exact fun _ _ h _ => hescaped h

/-- **A pattern has one reading**, and that is its tokens. -/
theorem reads_iff {cs : List Char} {tokens : List Token} :
    Reads cs tokens ↔ Token.ofPattern cs = tokens :=
  ⟨Reads.ofPattern_eq, fun h => h ▸ reads_ofPattern cs⟩

/-! ## what tokens stand for -/

/-- the texts that one token stands for -/
inductive Token.Matches : Token → List Char → Prop
  | many {run : List Char} : '/' ∉ run → Matches .many run
  | one {c : Char} : c ≠ '/' → Matches .one [c]
  | inside {ranges : List (Char × Char)} {c : Char} :
      (∃ range ∈ ranges, range.1 ≤ c ∧ c ≤ range.2) → Matches (.oneOf false ranges) [c]
  | outside {ranges : List (Char × Char)} {c : Char} :
      (¬∃ range ∈ ranges, range.1 ≤ c ∧ c ≤ range.2) → Matches (.oneOf true ranges) [c]
  | exactly {c : Char} : Matches (.exactly c) [c]

theorem inRanges_iff {ranges : List (Char × Char)} {c : Char} :
    inRanges ranges c = true ↔ ∃ range ∈ ranges, range.1 ≤ c ∧ c ≤ range.2 := by
  simp [inRanges]

/-- A token other than `*` stands for texts of one character, and these are accepted. -/
theorem Token.matches_iff {token : Token} (h : token ≠ .many) {text : List Char} :
    token.Matches text ↔ ∃ c, text = [c] ∧ token.accepts c = true := by
  cases token with
  | many => exact absurd rfl h
  | one =>
    constructor
    · rintro (_ | hc)
      exact ⟨_, rfl, by simpa [Token.accepts] using hc⟩
    · rintro ⟨c, rfl, hc⟩
      exact .one (by simpa [Token.accepts] using hc)
  | oneOf negated ranges =>
    constructor
    · rintro (_ | _ | hinside | houtside)
      · exact ⟨_, rfl, by simp [Token.accepts, inRanges_iff.2 hinside]⟩
      · have hranges := Bool.eq_false_iff.2 (mt inRanges_iff.1 houtside)
        exact ⟨_, rfl, by simp [Token.accepts, hranges]⟩
    · rintro ⟨c, rfl, hc⟩
      cases negated with
      | false => exact .inside (inRanges_iff.1 (by simpa [Token.accepts] using hc))
      | true => exact .outside (mt inRanges_iff.2 (by simpa [Token.accepts] using hc))
  | exactly d =>
    constructor
    · rintro ⟨⟩
      exact ⟨d, rfl, by simp [Token.accepts]⟩
    · rintro ⟨c, rfl, hc⟩
      obtain rfl : c = d := by simpa [Token.accepts] using hc
      exact .exactly

theorem afterRun_iff {rest : List Char → Bool} {text : List Char} : afterRun rest text = true ↔
    ∃ run after, text = run ++ after ∧ '/' ∉ run ∧ rest after = true := by
  induction text with
  | nil => simp [afterRun]
  | cons c cs ih =>
    rw [afterRun, Bool.or_eq_true, Bool.and_eq_true, bne_iff_ne, ih]
    constructor
    · rintro (h | ⟨hc, run, after, rfl, hrun, h⟩)
      · exact ⟨[], c :: cs, rfl, List.not_mem_nil, h⟩
      · exact ⟨c :: run, after, rfl, by simp [hrun, Ne.symm hc], h⟩
    · rintro ⟨run, after, htext, hrun, h⟩
      cases run with
      | nil =>
        rw [htext]
        exact .inl h
      | cons d run =>
        obtain ⟨rfl, hcs⟩ := List.cons.inj htext
        rw [List.mem_cons, not_or] at hrun
        exact .inr ⟨Ne.symm hrun.1, run, after, hcs, hrun.2, h⟩

theorem matchAll_of_ne {token : Token} (h : token ≠ .many) (tokens : List Token)
    (text : List Char) : Token.matchAll (token :: tokens) text = true ↔
      ∃ c after, text = c :: after ∧ token.accepts c = true ∧
        Token.matchAll tokens after = true := by
  cases text with
  | nil => simp [Token.matchAll]
  | cons c cs =>
    rw [Token.matchAll, Bool.and_eq_true]
    · constructor
      · rintro ⟨hc, hcs⟩
        exact ⟨c, cs, rfl, hc, hcs⟩
      · rintro ⟨_, _, htext, hc, hcs⟩
        cases htext
        exact ⟨hc, hcs⟩
    · exact h

/-- The first token takes a part from the front, whichever leaves a match of the others. -/
theorem matchAll_cons {token : Token} {tokens : List Token} {text : List Char} :
    Token.matchAll (token :: tokens) text = true ↔
      ∃ part after, text = part ++ after ∧ token.Matches part ∧
        Token.matchAll tokens after = true := by
  by_cases hmany : token = .many
  · subst hmany
    rw [Token.matchAll, afterRun_iff]
    constructor
    · rintro ⟨run, after, htext, hrun, hafter⟩
      exact ⟨run, after, htext, .many hrun, hafter⟩
    · rintro ⟨_, after, htext, ⟨hrun⟩, hafter⟩
      exact ⟨_, after, htext, hrun, hafter⟩
  · rw [matchAll_of_ne hmany]
    constructor
    · rintro ⟨c, after, rfl, hc, hafter⟩
      exact ⟨[c], after, rfl, (Token.matches_iff hmany).2 ⟨c, rfl, hc⟩, hafter⟩
    · rintro ⟨part, after, rfl, hpart, hafter⟩
      obtain ⟨c, rfl, hc⟩ := (Token.matches_iff hmany).1 hpart
      exact ⟨c, after, rfl, hc, hafter⟩

/-- **Tokens match the texts that have a part for each of them**, one part after another. -/
theorem matchAll_iff {tokens : List Token} {text : List Char} :
    Token.matchAll tokens text = true ↔
      ∃ parts, List.Forall₂ Token.Matches tokens parts ∧ parts.flatten = text := by
  induction tokens generalizing text with
  | nil =>
    rw [Token.matchAll, List.isEmpty_iff]
    constructor
    · rintro rfl
      exact ⟨[], .nil, rfl⟩
    · rintro ⟨_, ⟨⟩, rfl⟩
      rfl
  | cons token tokens ih =>
    rw [matchAll_cons]
    constructor
    · rintro ⟨part, after, rfl, hpart, hafter⟩
      obtain ⟨parts, hparts, rfl⟩ := ih.1 hafter
      exact ⟨part :: parts, .cons hpart hparts, rfl⟩
    · rintro ⟨_, hparts, rfl⟩
      cases hparts with
      | cons hpart hparts => exact ⟨_, _, rfl, hpart, ih.2 ⟨_, hparts, rfl⟩⟩

/-- **A pattern matches exactly the texts that it stands for.**  It has one reading as tokens, and
it matches a text where the text is one part after another, a part for each token. -/
theorem matches_iff_parts (pattern text : String) :
    (∃! tokens, Reads pattern.toList tokens) ∧
    (Glob.matches pattern text = true ↔
      ∃ tokens parts, Reads pattern.toList tokens ∧
        List.Forall₂ Token.Matches tokens parts ∧ parts.flatten = text.toList) := by
  refine ⟨⟨_, reads_ofPattern _, fun tokens h => h.ofPattern_eq.symm⟩, ?_⟩
  rw [Glob.matches, matchAll_iff]
  constructor
  · rintro ⟨parts, hparts, htext⟩
    exact ⟨_, parts, reads_ofPattern _, hparts, htext⟩
  · rintro ⟨tokens, parts, hreads, hparts, htext⟩
    rw [hreads.ofPattern_eq]
    exact ⟨parts, hparts, htext⟩

/-- a class that begins with its own bracket, a range and a run -/
example : Glob.matches "[]a-c]*.t" "b1.t" = true := by cbv

end Splittable.Glob
