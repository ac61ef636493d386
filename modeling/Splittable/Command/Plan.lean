import Splittable.FileSystem.Basic
import Splittable.Source.Basic
import Splittable.Text.Quoted

/-!
# Plans

A plan is a file of bundles, one source as JSON on each line.

* `Plan.render`   the text of a plan;
* `Plan.parse`    the bundles of a plan, blank lines passed over;
* `Plan.load`     the bundles of a file;
* `Problem`       why a command fails, as texts that lead from one to the next.
-/

namespace Splittable

/-- Why a command fails: a text, and the texts of what led to it, the nearest first. -/
structure Problem where
  message : String
  causes : List String
deriving DecidableEq, Repr

namespace Problem

def indented (blanks : Nat) (text : String) : String :=
  String.ofList (text.toList.flatMap fun c =>
    if c = '\n' then '\n' :: List.replicate blanks ' ' else [c])

/-- The texts on lines of their own; of several causes each has its number. -/
def report (problem : Problem) : String :=
  match problem.causes with
  | [] => problem.message
  | [cause] => problem.message ++ "\n\nCaused by:\n    " ++ indented 4 cause
  | causes =>
    problem.message ++ "\n\nCaused by:" ++
      String.join (causes.zipIdx.map fun (cause, i) =>
        let number := toString i
        "\n" ++ String.ofList (List.replicate (5 - number.length) ' ') ++ number ++ ": " ++
          indented 7 cause)

end Problem

namespace Plan

def render (bundles : List Source) : String :=
  String.join (bundles.map fun bundle => bundle.render ++ "\n")

/-- Lines of bytes without their ends; what follows the last line feed is a line if there is
anything. -/
def lines (bytes : Bytes) : List Bytes := linesFrom [] bytes
where
  /-- `acc` holds the line so far from its end -/
  linesFrom : (acc : Bytes) → Bytes → List Bytes
    | [], [] => []
    | acc, [] => [acc.reverse]
    | acc, 0x0A :: rest =>
      (match acc with
        | 0x0D :: acc => acc.reverse
        | acc => acc.reverse) :: linesFrom [] rest
    | acc, b :: rest => linesFrom (b :: acc) rest

inductive Flaw
  | notText
  /-- the line of this number, the first being 1, holds no bundle -/
  | notBundle (number : Nat)
deriving DecidableEq, Repr

/-- The bundles of lines, up to the first flaw.  Lines of blanks are passed over. -/
def parseFrom (number : Nat) : List Bytes → Except Flaw (List Source)
  | [] => .ok []
  | line :: rest =>
    match Utf8.decode line with
    | .error _ => .error .notText
    | .ok text =>
      if (Text.trim text).isEmpty then parseFrom (number + 1) rest
      else
        match Source.parse text with
        | none => .error (.notBundle number)
        | some bundle => (parseFrom (number + 1) rest).map (bundle :: ·)

def parse (bytes : Bytes) : Except Flaw (List Source) := parseFrom 1 (lines bytes)

/-- A directory can be opened and not read. -/
def load (files : FileSystem) (path : String) : Except Problem (List Source) :=
  match files.resolve path with
  | .error e => .error ⟨s!"open {path}", [e.message]⟩
  | .ok id =>
    match files.contents id with
    | .error e => .error ⟨s!"read {path}", [e.message]⟩
    | .ok bytes =>
      match parse bytes.data.toList with
      | .ok bundles => .ok bundles
      | .error .notText => .error ⟨s!"read {path}", ["stream did not contain valid UTF-8"]⟩
      | .error (.notBundle number) =>
        .error ⟨s!"{path}:{number}: not a bundle", ["the line is not the JSON of a source"]⟩

end Plan

end Splittable
