import Splittable.Command.Arguments
import Splittable.Proofs.Settings.Layers

/-!
# What a command line assigns

A parameter has the value that is attached to it, else the word behind it if this is neither a
parameter nor two dashes, else `true`.  So what a command line assigns can be read off its words
from the left, looking one word ahead, while the reader keeps a parameter back until it knows its
value.

* `Arguments.assignments`, `Invocation.assignments`   the parameters of a command line with their
  values;
* `Setting.assigned`, `Invocation.definitions`   what they say of a setting, and of the overrides;
* `Invocation.Takes`   an invocation that has taken parameters in: the last of them counts;
* `Invocation.takes_of_store`   one parameter;
* `Arguments.takes_of_next`     one word;
* `Invocation.takes_of_parse`   a whole command line.
-/

namespace Splittable

namespace Arguments

/-- the parameter that a word begins, and the value that is attached to it -/
def begun? (verb : Verb) (word : String) : Option (Parameter × Option String) :=
  match longForm? word, shortForm? word with
  | some (name, attached), _ =>
    match ofName? verb name with
    | some (.parameter parameter) => some (parameter, attached)
    | _ => none
  | none, some (letter, attached) =>
    match ofLetter? verb letter with
    | some (.parameter parameter) => some (parameter, attached)
    | _ => none
  | none, none => none

/-- The word can be the value of the parameter before it. -/
def isPlain (word : String) : Bool :=
  word != "--" && (longForm? word).isNone && (shortForm? word).isNone

/-- the value of a parameter with these words behind it and none attached -/
def valueBehind : List String → String
  | [] => "true"
  | w :: _ => if isPlain w then w else "true"

/-- the parameters among the words after the command, each with its value -/
def assignments (verb : Verb) : List String → List (Parameter × String)
  | [] => []
  | w :: rest =>
    if w = "--" then []
    else
      match begun? verb w with
      | none => assignments verb rest
      | some (parameter, attached) =>
        (parameter, attached.getD (valueBehind rest)) :: assignments verb rest

section

variable {verb : Verb} {w : String} {rest : List String}

theorem assignments_of_begun {parameter : Parameter} {attached : Option String} (hw : w ≠ "--")
    (h : begun? verb w = some (parameter, attached)) : assignments verb (w :: rest) =
      (parameter, attached.getD (valueBehind rest)) :: assignments verb rest := by
  rw [assignments, if_neg hw, h]

theorem assignments_of_not_begun (hw : w ≠ "--") (h : begun? verb w = none) :
    assignments verb (w :: rest) = assignments verb rest := by
  rw [assignments, if_neg hw, h]

end

end Arguments

/-- the parameters of a command line, each with its value -/
def Invocation.assignments : List String → List (Parameter × String)
  | [] => []
  | first :: rest =>
    match Verb.ofName? first with
    | some verb => Arguments.assignments verb rest
    | none => []

namespace Setting

def parameter : Setting → Parameter
  | .format => .format
  | .keyType => .keyType
  | .valueType => .valueType
  | .bundleSize => .bundleSize
  | .minBundleSize => .minBundleSize
  | .order => .order
  | .seed => .seed
  | .suppressRemote => .suppressRemote
  | .threads => .threads
  | .verbose => .verbose

theorem parameter_inj {s t : Setting} (h : s.parameter = t.parameter) : s = t := by
  cases s <;> cases t <;> first | rfl | cases h

/-- the value of a setting that is written on the command line -/
def ofWord? : (s : Setting) → String → Option s.Value
  | .format => some
  | .keyType | .valueType => fun word => some (TypeTag.ofName word)
  | .bundleSize | .minBundleSize | .seed => fun word => (Invocation.word? word).toOption
  | .order => OrderName.ofName?
  | .suppressRemote | .verbose => fun word => (Invocation.boolean? word).toOption
  | .threads => fun word => (Invocation.word? word).toOption.map UInt64.toNat

/-- what one assignment says of a setting -/
def ofAssignment? (s : Setting) (assignment : Parameter × String) : Option s.Value :=
  if assignment.1 = s.parameter then s.ofWord? assignment.2 else none

/-- what assignments say of a setting: the last that says something -/
def assigned (s : Setting) (assignments : List (Parameter × String)) : Option s.Value :=
  assignments.reverse.findSome? s.ofAssignment?

end Setting

namespace Invocation

/-- the keys and texts of the overrides among assignments -/
def definitions (assignments : List (Parameter × String)) : List (String × String) :=
  assignments.filterMap fun a => if a.1 = .define then (definition? a.2).toOption else none

/-- what an invocation says of a setting -/
def stated (invocation : Invocation) : (s : Setting) → Option s.Value
  | .threads => invocation.threads.or invocation.layer.threads
  | s => s.mention invocation.layer

/-- An invocation has taken assignments in: the last that says something of a setting, or of a key
of the overrides, counts, else what was there before. -/
structure Takes (assignments : List (Parameter × String)) (before after : Invocation) : Prop where
  verb : after.verb = before.verb
  stated (s : Setting) : after.stated s = (s.assigned assignments).or (before.stated s)
  overrides (key : String) : after.layer.overrides.find? key =
    ((definitions assignments).reverse.lookup key).or (before.layer.overrides.find? key)

namespace Takes

theorem refl (invocation : Invocation) : Takes [] invocation invocation where
  verb := rfl
  stated _ := rfl
  overrides _ := rfl

theorem trans {first second : List (Parameter × String)} {before between after : Invocation}
    (h : Takes first before between) (h' : Takes second between after) :
    Takes (first ++ second) before after where
  verb := h'.verb.trans h.verb
  stated s := by
    unfold Setting.assigned
    rw [List.reverse_append, List.findSome?_append, Option.or_assoc]
    exact (h'.stated s).trans (congrArg _ (h.stated s))
  overrides key := by
    unfold definitions
    rw [List.filterMap_append, List.reverse_append, List.lookup_append, Option.or_assoc]
    exact (h'.overrides key).trans (congrArg _ (h.overrides key))

end Takes

/-! ## one parameter -/

/-- the invocation with a value for a setting -/
def put (invocation : Invocation) : (s : Setting) → s.Value → Invocation
  | .format, x => { invocation with layer := { invocation.layer with format := some x } }
  | .keyType, x => { invocation with layer := { invocation.layer with keyType := some x } }
  | .valueType, x => { invocation with layer := { invocation.layer with valueType := some x } }
  | .bundleSize, x => { invocation with layer := { invocation.layer with bundleSize := some x } }
  | .minBundleSize, x =>
    { invocation with layer := { invocation.layer with minBundleSize := some x } }
  | .order, x => { invocation with layer := { invocation.layer with order := some x } }
  | .seed, x => { invocation with layer := { invocation.layer with seed := some x } }
  | .suppressRemote, x =>
    { invocation with layer := { invocation.layer with suppressRemote := some x } }
  | .threads, x => { invocation with threads := some x }
  | .verbose, x => { invocation with layer := { invocation.layer with verbose := some x } }

theorem put_verb (invocation : Invocation) (s : Setting) (x : s.Value) :
    (invocation.put s x).verb = invocation.verb := by
  cases s <;> rfl

theorem put_overrides (invocation : Invocation) (s : Setting) (x : s.Value) :
    (invocation.put s x).layer.overrides = invocation.layer.overrides := by
  cases s <;> rfl

theorem stated_put_self (invocation : Invocation) (s : Setting) (x : s.Value) :
    (invocation.put s x).stated s = some x := by
  cases s <;> rfl

theorem stated_put_of_ne (invocation : Invocation) {s t : Setting} (x : s.Value) (h : s ≠ t) :
    (invocation.put s x).stated t = invocation.stated t := by
  cases s <;> cases t <;> first | rfl | exact absurd rfl h

/-- The parameter of a setting puts its value in, which can be read. -/
theorem put_of_store {before after : Invocation} {s : Setting} {value : String}
    (h : before.store s.parameter value = .ok after) :
    ∃ x, s.ofWord? value = some x ∧ after = before.put s x := by
  cases s with
  | format | keyType | valueType =>
    cases h
    exact ⟨_, rfl, rfl⟩
  | bundleSize | minBundleSize | seed | suppressRemote | verbose =>
    obtain ⟨x, hx, h⟩ := bind_ok h
    cases h
    exact ⟨x, congrArg Except.toOption hx, rfl⟩
  | order =>
    cases horder : OrderName.ofName? value with
    | none =>
      simp only [store, Setting.parameter, horder] at h
      cases h
    | some order =>
      simp only [store, Setting.parameter, horder] at h
      cases h
      exact ⟨order, horder, rfl⟩
  | threads =>
    obtain ⟨n, hn, h⟩ := bind_ok h
    cases h
    exact ⟨n.toNat, congrArg (fun e => e.toOption.map UInt64.toNat) hn, rfl⟩

theorem takes_put (invocation : Invocation) {s : Setting} {value : String} {x : s.Value}
    (h : s.ofWord? value = some x) :
    Takes [(s.parameter, value)] invocation (invocation.put s x) where
  verb := invocation.put_verb s x
  stated t := by
    show _ = (List.findSome? t.ofAssignment? [(s.parameter, value)]).or _
    rw [List.findSome?_singleton]
    unfold Setting.ofAssignment?
    by_cases hst : s = t
    · subst hst
      rw [stated_put_self, if_pos rfl, h]
      rfl
    · rw [invocation.stated_put_of_ne x hst, if_neg fun hp => hst (Setting.parameter_inj hp)]
      rfl
  overrides key := by
    rw [invocation.put_overrides]
    cases s <;> rfl

theorem takes_of_setting {before after : Invocation} {s : Setting} {value : String}
    (h : before.store s.parameter value = .ok after) :
    Takes [(s.parameter, value)] before after := by
  obtain ⟨x, hx, rfl⟩ := put_of_store h
  exact takes_put before hx

theorem takes_of_define {before after : Invocation} {value : String}
    (h : before.store .define value = .ok after) : Takes [(.define, value)] before after := by
  obtain ⟨⟨name, text⟩, hd, h⟩ := bind_ok h
  cases h
  have hdefinitions : definitions [(.define, value)] = [(name, text)] := by
    show List.filterMap _ _ = _
    rw [List.filterMap_cons, if_pos rfl, hd]
    rfl
  refine ⟨rfl, fun s => by cases s <;> rfl, fun key => ?_⟩
  rw [hdefinitions]
  exact before.layer.overrides.find?_insert_eq_or name key text

/-- **One parameter.** -/
theorem takes_of_store {before after : Invocation} {parameter : Parameter} {value : String}
    (h : before.store parameter value = .ok after) : Takes [(parameter, value)] before after := by
  have hsetting : ∀ s : Setting, parameter = s.parameter →
      Takes [(parameter, value)] before after := by
    rintro s rfl
    exact takes_of_setting h
  cases parameter with
  | format => exact hsetting .format rfl
  | keyType => exact hsetting .keyType rfl
  | valueType => exact hsetting .valueType rfl
  | define => exact takes_of_define h
  | bundleSize => exact hsetting .bundleSize rfl
  | minBundleSize => exact hsetting .minBundleSize rfl
  | order => exact hsetting .order rfl
  | seed => exact hsetting .seed rfl
  | suppressRemote => exact hsetting .suppressRemote rfl
  | verbose => exact hsetting .verbose rfl
  | threads => exact hsetting .threads rfl
  | output | bundles | count =>
    -- what is kept for these is no setting
    obtain ⟨x, -, h⟩ := bind_ok h
    cases h
    exact ⟨rfl, fun s => by cases s <;> rfl, fun key => rfl⟩

end Invocation

/-! ## one word -/

namespace Arguments

open Invocation (Takes)

/-- the parameter that is kept back, with the value that it has if these words follow -/
def outstanding (arguments : Arguments) (words : List String) : List (Parameter × String) :=
  arguments.pending.toList.map fun p => (p.1, p.2.getD (valueBehind words))

theorem outstanding_of_none {arguments : Arguments} (h : arguments.pending = none)
    (words : List String) : arguments.outstanding words = [] := by
  unfold outstanding
  rw [h]
  rfl

/-- A parameter that has a value keeps it. -/
theorem outstanding_of_complete {arguments : Arguments}
    (h : ∀ parameter, arguments.pending = some (parameter, none) → False) (words : List String) :
    arguments.outstanding words = arguments.outstanding [] := by
  unfold outstanding
  cases hpending : arguments.pending with
  | none => rfl
  | some p =>
    obtain ⟨parameter, value⟩ := p
    cases value with
    | none => exact (h parameter hpending).elim
    | some value => rfl

/-- A word that cannot be a value leaves a parameter without one. -/
theorem outstanding_cons {w : String} (h : isPlain w = false) (arguments : Arguments)
    (rest : List String) : arguments.outstanding (w :: rest) = arguments.outstanding [] := by
  have hvalue : valueBehind (w :: rest) = valueBehind [] := by
    show (if isPlain w then w else "true") = "true"
    rw [h]
    rfl
  unfold outstanding
  rw [hvalue]

theorem takes_of_take {before after : Arguments} {parameter : Parameter} {value : Option String}
    (h : before.take parameter value = .ok after) :
    Takes [(parameter, value.getD "true")] before.invocation after.invocation ∧
      after.pending = before.pending := by
  unfold take at h
  split at h
  · cases h
  · split at h
    · cases h
    · split at h
      · cases h
      · rename_i hstore
        cases h
        exact ⟨Invocation.takes_of_store hstore, rfl⟩

theorem takes_of_settle {before after : Arguments} (h : before.settle = .ok after) :
    Takes (before.outstanding []) before.invocation after.invocation ∧ after.pending = none := by
  unfold settle at h
  split at h
  · rename_i hpending
    cases h
    rw [outstanding_of_none hpending]
    exact ⟨.refl _, hpending⟩
  · rename_i parameter value hpending
    unfold outstanding
    rw [hpending]
    exact takes_of_take h

theorem takes_of_begin {before after : Arguments} {parameter : Parameter}
    {attached : Option String} (h : before.begin parameter attached = .ok after)
    (rest : List String) :
    ∃ taken, Takes taken before.invocation after.invocation ∧
      taken ++ after.outstanding rest =
        before.outstanding [] ++ [(parameter, attached.getD (valueBehind rest))] := by
  obtain ⟨settled, hsettle, h⟩ := bind_ok h
  obtain ⟨htakes, hpending⟩ := takes_of_settle hsettle
  cases attached with
  | some value =>
    obtain ⟨htake, hsame⟩ := takes_of_take h
    exact ⟨_, htakes.trans htake,
      by rw [outstanding_of_none (hsame.trans hpending), List.append_nil]; rfl⟩
  | none =>
    cases h
    exact ⟨_, htakes, rfl⟩

theorem takes_of_position {before after : Arguments} {w : String}
    (h : before.position w = .ok after) :
    Takes (before.outstanding []) before.invocation after.invocation ∧ after.pending = none := by
  unfold position at h
  split at h
  · cases h
  · obtain ⟨settled, hsettle, h⟩ := bind_ok h
    obtain ⟨htakes, hpending⟩ := takes_of_settle hsettle
    cases h
    exact ⟨⟨htakes.verb, htakes.stated, htakes.overrides⟩, hpending⟩

theorem scan_cons (arguments : Arguments) {w : String} (rest : List String) (h : w ≠ "--") :
    scan false arguments (w :: rest) = arguments.next w >>= fun a => scan false a rest := by
  rw [scan, if_neg Bool.false_ne_true, if_neg h]
  cases arguments.next w <;> rfl

theorem begin_of_long {before after : Arguments} {name : String} {attached : Option String}
    (h : before.long name attached = .ok after) :
    ∃ parameter, ofName? before.invocation.verb name = some (.parameter parameter) ∧
      before.begin parameter attached = .ok after := by
  unfold long at h
  split at h
  · cases h
  · rename_i parameter hname
    exact ⟨parameter, hname, h⟩
  · split at h
    · cases h
    · obtain ⟨_, -, h⟩ := bind_ok h
      cases h

theorem begin_of_short {before after : Arguments} {letter : Char} {attached : Option String}
    (h : before.short letter attached = .ok after) :
    ∃ parameter, ofLetter? before.invocation.verb letter = some (.parameter parameter) ∧
      before.begin parameter attached = .ok after := by
  unfold short at h
  split at h
  · cases h
  · rename_i parameter hletter
    exact ⟨parameter, hletter, h⟩
  · obtain ⟨_, -, h⟩ := bind_ok h
    cases h

/-- A word that is not refused begins a parameter, or is plain. -/
theorem next_cases {before after : Arguments} {w : String} (h : before.next w = .ok after)
    (hw : w ≠ "--") :
    (∃ parameter attached, begun? before.invocation.verb w = some (parameter, attached) ∧
      isPlain w = false ∧ before.begin parameter attached = .ok after) ∨
    (begun? before.invocation.verb w = none ∧ isPlain w = true ∧ before.word w = .ok after) := by
  unfold next at h
  unfold begun? isPlain
  split at h
  · rename_i name attached hlong
    obtain ⟨parameter, hname, hbegin⟩ := begin_of_long h
    left
    rw [hlong]
    exact ⟨parameter, attached, by simp only [hname], by simp, hbegin⟩
  · rename_i letter attached hlong hshort
    obtain ⟨parameter, hletter, hbegin⟩ := begin_of_short h
    left
    rw [hlong, hshort]
    exact ⟨parameter, attached, by simp only [hletter], by simp, hbegin⟩
  · rename_i hlong hshort
    right
    rw [hlong, hshort]
    exact ⟨rfl, by simpa using hw, h⟩

/-- A plain word completes the parameter before it, or it is the resource. -/
theorem takes_of_word {before after : Arguments} {w : String} (h : before.word w = .ok after)
    (hplain : isPlain w = true) (rest : List String) :
    ∃ taken, Takes taken before.invocation after.invocation ∧
      taken ++ after.outstanding rest = before.outstanding (w :: rest) := by
  unfold word at h
  split at h
  · rename_i parameter hpending
    cases h
    have hvalue : valueBehind (w :: rest) = w := if_pos hplain
    refine ⟨[], .refl _, ?_⟩
    unfold outstanding
    rw [hpending]
    show _ = [(parameter, valueBehind (w :: rest))]
    rw [hvalue]
    rfl
  · rename_i hpending
    obtain ⟨htakes, hnone⟩ := takes_of_position h
    refine ⟨_, htakes, ?_⟩
    rw [outstanding_of_none hnone, outstanding_of_complete hpending (w :: rest), List.append_nil]

/-- **One word.**  What has been taken in and what is kept back now are what was kept back before
and what the word begins. -/
theorem takes_of_next {before after : Arguments} {w : String} (h : before.next w = .ok after)
    (hw : w ≠ "--") (rest : List String) :
    ∃ taken, Takes taken before.invocation after.invocation ∧
      taken ++ (after.outstanding rest ++ assignments before.invocation.verb rest) =
        before.outstanding (w :: rest) ++ assignments before.invocation.verb (w :: rest) := by
  obtain ⟨parameter, attached, hbegun, hplain, hbegin⟩ | ⟨hbegun, hplain, hword⟩ :=
    next_cases h hw
  · obtain ⟨taken, htakes, heq⟩ := takes_of_begin hbegin rest
    refine ⟨taken, htakes, ?_⟩
    rw [assignments_of_begun hw hbegun, outstanding_cons hplain, ← List.append_assoc, heq,
      List.append_assoc]
    rfl
  · obtain ⟨taken, htakes, heq⟩ := takes_of_word hword hplain rest
    refine ⟨taken, htakes, ?_⟩
    rw [assignments_of_not_begun hw hbegun, ← List.append_assoc, heq]

/-! ## all words -/

/-- After two dashes, nothing is assigned but what was kept back. -/
theorem takes_of_scan_true {before after : Arguments} {words : List String}
    (h : scan true before words = .ok after) :
    Takes (before.outstanding []) before.invocation after.invocation := by
  induction words generalizing before with
  | nil => exact (takes_of_settle h).1
  | cons w rest ih =>
    replace h : (before.position w >>= fun a => scan true a rest) = .ok after := by
      rw [← h, scan, if_pos rfl]
      cases before.position w <;> rfl
    obtain ⟨between, hposition, h⟩ := bind_ok h
    obtain ⟨htakes, hpending⟩ := takes_of_position hposition
    have := htakes.trans (ih h)
    rw [outstanding_of_none hpending, List.append_nil] at this
    exact this

/-- **All words.**  What was kept back comes first. -/
theorem takes_of_scan {before after : Arguments} {words : List String}
    (h : scan false before words = .ok after) :
    Takes (before.outstanding words ++ assignments before.invocation.verb words)
      before.invocation after.invocation := by
  -- on the words, for whatever parameter is kept back: one word may only complete it
  induction words generalizing before with
  | nil =>
    rw [assignments, List.append_nil]
    exact (takes_of_settle h).1
  | cons w rest ih =>
    by_cases hw : w = "--"
    · subst hw
      have hplain : isPlain "--" = false := rfl
      rw [assignments, if_pos rfl, List.append_nil, outstanding_cons hplain]
      rw [scan, if_neg Bool.false_ne_true, if_pos rfl] at h
      exact takes_of_scan_true h
    · rw [scan_cons before rest hw] at h
      obtain ⟨between, hnext, h⟩ := bind_ok h
      obtain ⟨taken, htakes, heq⟩ := takes_of_next hnext hw rest
      rw [← heq, ← htakes.verb]
      exact htakes.trans (ih h)

end Arguments

/-- **The invocation of a command line has taken in what the command line assigns.** -/
theorem Invocation.takes_of_parse {words : List String} {invocation : Invocation}
    (h : parse words = .ok invocation) :
    ∃ verb, Takes (assignments words) (ofVerb verb) invocation := by
  unfold parse at h
  split at h
  · cases h
  · rename_i first rest
    split at h
    · rename_i verb hverb
      have hassignments : assignments (first :: rest) = Arguments.assignments verb rest := by
        simp only [assignments, hverb]
      refine ⟨verb, ?_⟩
      rw [hassignments]
      cases hscan : Arguments.scan false ⟨ofVerb verb, [], none⟩ rest with
      | error refusal =>
        rw [hscan] at h
        cases h
      | ok arguments =>
        rw [hscan] at h
        cases h
        exact Arguments.takes_of_scan hscan
    · split at h
      · cases h
      · split at h <;> cases h

end Splittable
