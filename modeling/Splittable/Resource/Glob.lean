/-!
# Globs

Patterns for one name of a path.  A pattern is read from left to right as tokens, and it matches
the texts that are one match of each token in turn.

* `Token`, `Token.ofPattern`   what a pattern consists of;
* `Token.matchAll`             whether tokens match a text;
* `Glob.matches`               whether a pattern matches a text;
* `Glob.hasMeta`               whether a text is taken for a pattern at all.
-/

namespace Splittable

namespace Glob

inductive Token
  /-- any run of characters other than `/` -/
  | many
  /-- one character other than `/` -/
  | one
  /-- one character inside one of the ranges, or outside all of them -/
  | oneOf (negated : Bool) (ranges : List (Char × Char))
  /-- this character -/
  | exactly (c : Char)
deriving DecidableEq, Repr

/-- the characters before the first `]`, and those after it -/
def untilClose : List Char → Option (List Char × List Char)
  | [] => none
  | c :: cs =>
    if c = ']' then some ([], cs)
    else (untilClose cs).map fun (before, after) => (c :: before, after)

/-- the members of a class, and what follows its `]`; a `]` that comes first is a member -/
def members? : List Char → Option (List Char × List Char)
  | ']' :: rest => (untilClose rest).map fun (members, rest) => (']' :: members, rest)
  | body => untilClose body

/-- What stands between `[` and its `]`, and what follows: whether the class is negated, and its
members. -/
def class? : List Char → Option ((Bool × List Char) × List Char)
  | '!' :: rest => (members? rest).map fun (members, rest) => ((true, members), rest)
  | '^' :: rest => (members? rest).map fun (members, rest) => ((true, members), rest)
  | cs => (members? cs).map fun (members, rest) => ((false, members), rest)

theorem untilClose_length {cs before after : List Char}
    (h : untilClose cs = some (before, after)) : after.length < cs.length := by
  induction cs generalizing before with
  | nil => cases h
  | cons c cs ih =>
    unfold untilClose at h
    split at h
    · cases h
      exact Nat.lt_succ_self _
    · obtain ⟨⟨b, a⟩, hb, he⟩ := Option.map_eq_some_iff.1 h
      cases he
      exact Nat.lt_succ_of_lt (ih hb)

theorem members?_length {cs members rest : List Char} (h : members? cs = some (members, rest)) :
    rest.length < cs.length := by
  unfold members? at h
  split at h
  · obtain ⟨⟨m, r⟩, hm, he⟩ := Option.map_eq_some_iff.1 h
    cases he
    exact Nat.lt_succ_of_lt (untilClose_length hm)
  · exact untilClose_length h

theorem class?_length {cs rest : List Char} {c : Bool × List Char}
    (h : class? cs = some (c, rest)) : rest.length < cs.length := by
  unfold class? at h
  split at h
  · obtain ⟨⟨m, r⟩, hm, he⟩ := Option.map_eq_some_iff.1 h
    cases he
    exact Nat.lt_succ_of_lt (members?_length hm)
  · obtain ⟨⟨m, r⟩, hm, he⟩ := Option.map_eq_some_iff.1 h
    cases he
    exact Nat.lt_succ_of_lt (members?_length hm)
  · obtain ⟨⟨m, r⟩, hm, he⟩ := Option.map_eq_some_iff.1 h
    cases he
    exact members?_length hm

/-- Members are read from left to right: `x-y` is a range where both ends are there, and any other
character stands for itself. -/
def ranges : List Char → List (Char × Char)
  | low :: '-' :: high :: rest => (low, high) :: ranges rest
  | c :: rest => (c, c) :: ranges rest
  | [] => []

/-- A `[` that nothing closes and a `\` that nothing follows stand for themselves. -/
def Token.ofPattern : List Char → List Token
  | [] => []
  | '*' :: rest => .many :: ofPattern rest
  | '?' :: rest => .one :: ofPattern rest
  | '[' :: rest =>
    match h : class? rest with
    | some ((negated, members), rest') =>
      have := class?_length h
      .oneOf negated (ranges members) :: ofPattern rest'
    | none => .exactly '[' :: ofPattern rest
  | '\\' :: c :: rest => .exactly c :: ofPattern rest
  | c :: rest => .exactly c :: ofPattern rest
termination_by cs => cs.length

def inRanges (ranges : List (Char × Char)) (c : Char) : Bool :=
  ranges.any fun range => range.1 ≤ c && c ≤ range.2

/-- one character against a token for one character -/
def Token.accepts : Token → Char → Bool
  | .many, _ => false
  | .one, c => c != '/'
  | .oneOf negated ranges, c => inRanges ranges c != negated
  | .exactly d, c => c == d

/-- some run of characters other than `/` can be left out so that `rest` holds of what follows -/
def afterRun (rest : List Char → Bool) : List Char → Bool
  | [] => rest []
  | c :: cs => rest (c :: cs) || (c != '/' && afterRun rest cs)

def Token.matchAll : List Token → List Char → Bool
  | [], text => text.isEmpty
  | .many :: tokens, text => afterRun (matchAll tokens) text
  | _ :: _, [] => false
  | token :: tokens, c :: text => token.accepts c && matchAll tokens text

end Glob

def Glob.matches (pattern text : String) : Bool :=
  Glob.Token.matchAll (Glob.Token.ofPattern pattern.toList) text.toList

/-- A text with one of the characters `*`, `?` and `[` is a pattern. -/
def Glob.hasMeta (s : String) : Bool := s.toList.any fun c => c == '*' || c == '?' || c == '['

end Splittable
