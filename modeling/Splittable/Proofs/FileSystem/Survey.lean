import Splittable.Proofs.FileSystem.Grown
import Splittable.Proofs.FileSystem.Walk
import Mathlib.Data.Finset.Card
import Mathlib.Data.Finset.SDiff

/-!
# All that a walk meets

A walk ends at its first fault.  A survey goes the same way and does not end: it is the list of all
entries and all faults that the walk would meet, each with the entries that lead to it.  The walk is
the survey up to its first fault.

* `Event`, `survey`, `events`   what is met, below a directory and in a whole walk;
* `upTo`, `run_eq`              a walk is its events up to the first fault;
* `Meets`                       an event, one constructor for each way in which it comes about;
* `survey_of_le`                what a survey meets does not depend on its fuel;
* `upTo_filter`                 entries that are dropped anyway can be left out before.
-/

namespace Splittable.Walk

open FileSystem

variable {walk : Walk} {fs : FileSystem}

/-- One thing that a walk meets: the entries that lead to it, each a name in a directory, and what
is found there or why the walk ends there. -/
structure Event where
  way : List (NodeId × String)
  answer : Except Fault Entry

def Event.Ends (e : Event) : Prop := ∃ fault, e.answer = .error fault

theorem Event.not_ends_iff {e : Event} : ¬e.Ends ↔ ∃ entry, e.answer = .ok entry := by
  obtain ⟨way, answer⟩ := e
  cases answer <;> simp [Event.Ends]

/-- what is met at one entry of a directory and below it; the path and the way are the entry's
own -/
def look (walk : Walk) (fs : FileSystem) (inside : List (NodeId × String)) (path : String)
    (way : List (NodeId × String))
    (below : List (NodeId × String) → String → List (NodeId × String) → NodeId → List Event)
    (item : String × NodeId) : List Event :=
  match follow fs inside path item.2 with
  | .error fault => [⟨way, .error fault⟩]
  | .ok id =>
    let wanted := walk.least ≤ way.length
    if wanted && !walk.visible item.1 then []
    else
      let here : List Event := if wanted then [⟨way, .ok ⟨path, way.map (·.2), id⟩⟩] else []
      if fs.isDirectory id && walk.enters way.length then
        if pathLimit ≤ path.utf8ByteSize then here ++ [⟨way, .error (refused path .nameTooLong)⟩]
        else here ++ below ((id, path) :: inside) path way id
      else here

/-- what is met below a directory -/
def survey (walk : Walk) (fs : FileSystem) : (fuel : Nat) → List (NodeId × String) → String →
    List (NodeId × String) → NodeId → List Event
  | 0, _, _, _, _ => []
  | fuel + 1, inside, path, way, id =>
    (fs.entries id).flatMap fun item =>
      look walk fs inside (Path.join path item.1) (way ++ [(id, item.1)]) (survey walk fs fuel) item

def events (walk : Walk) (fs : FileSystem) (path : String) : List Event :=
  match fs.resolve path with
  | .error e => [⟨[], .error (refused path e)⟩]
  | .ok id => walk.survey fs (depthLimit fs) [(id, path)] path [] id

/-! ## a walk is a survey up to the first fault -/

/-- the entries before the first fault, and that fault -/
def upTo : List Event → Found
  | [] => ([], none)
  | e :: rest =>
    match e.answer with
    | .error fault => ([], some fault)
    | .ok entry => (entry :: (upTo rest).1, (upTo rest).2)

theorem upTo_append (a b : List Event) :
    upTo (a ++ b) =
      match upTo a with
      | (entries, some fault) => (entries, some fault)
      | (entries, none) => (entries ++ (upTo b).1, (upTo b).2) := by
  induction a with
  | nil => rfl
  | cons e rest ih =>
    obtain ⟨way, fault | entry⟩ := e
    · rfl
    · show (entry :: (upTo (rest ++ b)).1, (upTo (rest ++ b)).2) = _
      rw [ih, upTo]
      rcases upTo rest with ⟨entries, _ | fault⟩
      · rfl
      · rfl

theorem searchAll_eq_upTo {α : Type} {search : α → Found} {events : α → List Event}
    {items : List α} (h : ∀ item ∈ items, search item = upTo (events item)) :
    searchAll search items = upTo (items.flatMap events) := by
  induction items with
  | nil => rfl
  | cons item rest ih =>
    rw [searchAll, h item List.mem_cons_self, ih fun i hi => h i (List.mem_cons_of_mem _ hi),
      List.flatMap_cons]
    exact (upTo_append _ _).symm

theorem visit_eq_upTo {inside : List (NodeId × String)} {directory : String}
    {way : List (NodeId × String)} {id : NodeId} {item : String × NodeId}
    {below : List (NodeId × String) → String → List String → NodeId → Found}
    {events : List (NodeId × String) → String → List (NodeId × String) → NodeId → List Event}
    (h : ∀ inside path target, below inside path ((way ++ [(id, item.1)]).map (·.2)) target =
      upTo (events inside path (way ++ [(id, item.1)]) target)) :
    walk.visit fs inside directory (way.map (·.2)) (way.length + 1) below item =
      upTo (walk.look fs inside (Path.join directory item.1) (way ++ [(id, item.1)]) events
        item) := by
  have hnames : (way ++ [(id, item.1)]).map (·.2) = way.map (·.2) ++ [item.1] := by simp
  have hlength : (way ++ [(id, item.1)]).length = way.length + 1 := by simp
  unfold visit look
  dsimp only
  cases hfollow : follow fs inside (Path.join directory item.1) item.2 with
  | error fault => rfl
  | ok target =>
    dsimp only
    rw [hlength, hnames]
    rw [hnames] at h
    have hhere : ∀ es, upTo ((if walk.least ≤ way.length + 1 then
        [(⟨way ++ [(id, item.1)], .ok ⟨Path.join directory item.1, way.map (·.2) ++ [item.1],
          target⟩⟩ : Event)] else []) ++ es) =
        ((if walk.least ≤ way.length + 1 then
          [⟨Path.join directory item.1, way.map (·.2) ++ [item.1], target⟩] else []) ++ (upTo es).1,
          (upTo es).2) := by
      intro es
      split <;> rfl
    split
    · rfl
    · split
      · split
        · rw [hhere]
          simp [upTo]
        · rw [h, hhere]
      · simpa [upTo] using (hhere []).symm

theorem descend_eq (fuel : Nat) (inside : List (NodeId × String)) (path : String)
    (way : List (NodeId × String)) (id : NodeId) :
    walk.descend fs fuel (way.length + 1) inside path (way.map (·.2)) id =
      upTo (walk.survey fs fuel inside path way id) := by
  induction fuel generalizing inside path way id with
  | zero => rfl
  | succ fuel ih =>
    rw [descend, survey]
    refine searchAll_eq_upTo fun item _ => visit_eq_upTo fun inside path target => ?_
    rw [← ih, List.length_append, List.length_singleton]

/-- **A walk is its events up to the first fault.** -/
theorem run_eq (walk : Walk) (fs : FileSystem) (path : String) :
    walk.run fs path = upTo (walk.events fs path) := by
  unfold run events
  cases fs.resolve path with
  | error e => rfl
  | ok id => exact descend_eq (depthLimit fs) [(id, path)] path [] id

theorem upTo_quiet_iff {events : List Event} :
    (upTo events).2 = none ↔ ∀ e ∈ events, ¬e.Ends := by
  induction events with
  | nil => simp [upTo]
  | cons e rest ih =>
    obtain ⟨way, fault | entry⟩ := e
    · simp [upTo, Event.Ends]
    · simpa [upTo, Event.Ends] using ih

theorem mem_upTo {events : List Event} {entry : Entry} (h : entry ∈ (upTo events).1) :
    ∃ e ∈ events, e.answer = .ok entry := by
  induction events with
  | nil => cases h
  | cons e rest ih =>
    obtain ⟨way, fault | found⟩ := e
    · cases h
    · rcases List.mem_cons.1 h with rfl | hmem
      · exact ⟨_, List.mem_cons_self, rfl⟩
      · obtain ⟨e, he, hanswer⟩ := ih hmem
        exact ⟨e, List.mem_cons_of_mem _ he, hanswer⟩

/-- Events can be left out that are no faults and whose entries are dropped anyway. -/
theorem upTo_filter (keep : Event → Bool) (wanted : Entry → Bool) (events : List Event)
    (h : ∀ e ∈ events, keep e = false → ∃ entry, e.answer = .ok entry ∧ wanted entry = false) :
    (upTo (events.filter keep)).2 = (upTo events).2 ∧
      (upTo (events.filter keep)).1.filter wanted = (upTo events).1.filter wanted := by
  induction events with
  | nil => exact ⟨rfl, rfl⟩
  | cons e rest ih =>
    obtain ⟨hfault, hentries⟩ := ih fun e he => h e (List.mem_cons_of_mem _ he)
    cases hkeep : keep e with
    | false =>
      obtain ⟨entry, hanswer, hwanted⟩ := h e List.mem_cons_self hkeep
      rw [List.filter_cons_of_neg (by simp [hkeep])]
      simpa [upTo, hanswer, hwanted] using ⟨hfault, hentries⟩
    | true =>
      rw [List.filter_cons_of_pos hkeep]
      obtain ⟨way, fault | entry⟩ := e
      · exact ⟨rfl, rfl⟩
      · simp [upTo, List.filter_cons, hfault, hentries]

/-! ## how an event comes about -/

/-- An entry is itself, where it is no link, or what its path leads to outside of the directories
that the walk is inside of. -/
theorem follow_eq_ok {inside : List (NodeId × String)} {path : String} {child id : NodeId}
    (h : follow fs inside path child = .ok id) :
    ((∀ target, fs.node? child ≠ some (.link target)) ∧ id = child) ∨
      ((∃ target, fs.node? child = some (.link target)) ∧ fs.resolve path = .ok id ∧
        id ∉ inside.map (·.1)) := by
  unfold follow at h
  split at h
  · rename_i target hlink
    split at h
    · cases h
    · split at h
      · cases h
      · rename_i hresolve _ hfind
        cases h
        refine .inr ⟨⟨target, hlink⟩, hresolve, fun hmem => ?_⟩
        obtain ⟨p, hp, he⟩ := List.mem_map.1 hmem
        exact absurd he (by simpa using List.find?_eq_none.1 hfind p hp)
  · rename_i hlink
    cases h
    exact .inl ⟨hlink, rfl⟩

/-- The node behind an entry is there, and the path of the entry leads to it where it is not too
long. -/
theorem resolve_of_follow (hw : WellFormed fs) {inside : List (NodeId × String)}
    {path name : String} {id child target : NodeId} (hpath : fs.resolve path = .ok id)
    (hentry : (name, child) ∈ fs.entries id)
    (hfollow : follow fs inside (Path.join path name) child = .ok target) :
    target < fs.nodes.size ∧ ((Path.join path name).utf8ByteSize < pathLimit →
      fs.resolve (Path.join path name) = .ok target) := by
  rcases follow_eq_ok hfollow with ⟨hlink, rfl⟩ | ⟨-, hresolve, -⟩
  · obtain ⟨hname, hshort⟩ := hw.name hentry
    exact ⟨hw.child hentry, resolve_join hpath hname hshort hentry hlink⟩
  · exact ⟨hw.resolve_lt hresolve, fun _ => hresolve⟩

theorem mem_look_iff {inside : List (NodeId × String)} {path : String}
    {way : List (NodeId × String)} {item : String × NodeId} {e : Event}
    {below : List (NodeId × String) → String → List (NodeId × String) → NodeId → List Event} :
    e ∈ walk.look fs inside path way below item ↔
      (∃ fault, follow fs inside path item.2 = .error fault ∧ e = ⟨way, .error fault⟩) ∨
        ∃ id, follow fs inside path item.2 = .ok id ∧
          (walk.least ≤ way.length → walk.visible item.1 = true) ∧
          ((walk.least ≤ way.length ∧ e = ⟨way, .ok ⟨path, way.map (·.2), id⟩⟩) ∨
            (fs.isDirectory id = true ∧ walk.enters way.length = true ∧
              ((pathLimit ≤ path.utf8ByteSize ∧
                  e = ⟨way, .error (refused path .nameTooLong)⟩) ∨
                (path.utf8ByteSize < pathLimit ∧
                  e ∈ below ((id, path) :: inside) path way id)))) := by
  unfold look
  cases follow fs inside path item.2 with
  | error fault => simp
  | ok id =>
    have hhere : e ∈ (if walk.least ≤ way.length then
        [(⟨way, .ok ⟨path, way.map (·.2), id⟩⟩ : Event)] else []) ↔
        walk.least ≤ way.length ∧ e = ⟨way, .ok ⟨path, way.map (·.2), id⟩⟩ := by
      split <;> simp [*]
    simp only [reduceCtorEq, false_and, exists_false, false_or, Except.ok.injEq, exists_eq_left']
    by_cases hvisible : walk.least ≤ way.length → walk.visible item.1 = true
    · rw [if_neg (by simpa using hvisible), and_iff_right hvisible]
      by_cases henters : fs.isDirectory id = true ∧ walk.enters way.length = true
      · rw [if_pos (by simpa using henters), and_iff_right henters.1, and_iff_right henters.2]
        by_cases hlong : pathLimit ≤ path.utf8ByteSize
        · simp [hhere, hlong, Nat.not_lt.2 hlong]
        · simp [hhere, hlong, Nat.not_le.1 hlong]
      · rw [if_neg (by simpa using henters), hhere]
        exact ⟨.inl, fun h => h.resolve_right fun h => henters ⟨h.1, h.2.1⟩⟩
    · rw [if_pos (by simpa using hvisible)]
      exact ⟨fun h => (List.not_mem_nil h).elim, fun h => (hvisible h.1).elim⟩

/-- An event below the directory `id` at `path`, to which a way led: an entry that cannot be
followed, one that is found, a directory whose path is too long, or an event below a directory. -/
inductive Meets (walk : Walk) (fs : FileSystem) : List (NodeId × String) → String →
    List (NodeId × String) → NodeId → Event → Prop
  | lost {inside way : List (NodeId × String)} {path name : String} {id child : NodeId}
      {fault : Fault} (hentry : (name, child) ∈ fs.entries id)
      (hfollow : follow fs inside (Path.join path name) child = .error fault) :
      Meets walk fs inside path way id ⟨way ++ [(id, name)], .error fault⟩
  | found {inside way : List (NodeId × String)} {path name : String} {id child target : NodeId}
      (hentry : (name, child) ∈ fs.entries id)
      (hfollow : follow fs inside (Path.join path name) child = .ok target)
      (hvisible : walk.visible name = true) :
      Meets walk fs inside path way id ⟨way ++ [(id, name)],
        .ok ⟨Path.join path name, (way ++ [(id, name)]).map (·.2), target⟩⟩
  | long {inside way : List (NodeId × String)} {path name : String} {id child target : NodeId}
      (hentry : (name, child) ∈ fs.entries id)
      (hfollow : follow fs inside (Path.join path name) child = .ok target)
      (hvisible : walk.least ≤ way.length + 1 → walk.visible name = true)
      (hdirectory : fs.isDirectory target = true) (henters : walk.enters (way.length + 1) = true) :
      Meets walk fs inside path way id ⟨way ++ [(id, name)],
        .error (refused (Path.join path name) .nameTooLong)⟩
  | deeper {inside way : List (NodeId × String)} {path name : String} {id child target : NodeId}
      {e : Event} (hentry : (name, child) ∈ fs.entries id)
      (hfollow : follow fs inside (Path.join path name) child = .ok target)
      (hvisible : walk.least ≤ way.length + 1 → walk.visible name = true)
      (hdirectory : fs.isDirectory target = true) (henters : walk.enters (way.length + 1) = true)
      (hshort : (Path.join path name).utf8ByteSize < pathLimit)
      (hrest : Meets walk fs ((target, Path.join path name) :: inside) (Path.join path name)
        (way ++ [(id, name)]) target e) :
      Meets walk fs inside path way id e

theorem meets_of_mem_survey {fuel : Nat} {inside way : List (NodeId × String)} {path : String}
    {id : NodeId} {e : Event} (h : e ∈ walk.survey fs fuel inside path way id) :
    Meets walk fs inside path way id e := by
  induction fuel generalizing inside way path id with
  | zero => cases h
  | succ fuel ih =>
    obtain ⟨⟨name, child⟩, hentry, he⟩ := List.mem_flatMap.1 h
    have hlength : (way ++ [(id, name)]).length = way.length + 1 := by simp
    rcases mem_look_iff.1 he with ⟨fault, hfollow, rfl⟩ | ⟨target, hfollow, hvisible,
      ⟨hleast, rfl⟩ | ⟨hdirectory, henters, ⟨-, rfl⟩ | ⟨hshort, hrest⟩⟩⟩
    · exact .lost hentry hfollow
    · exact .found hentry hfollow (hvisible hleast)
    · exact .long hentry hfollow (by rwa [← hlength]) hdirectory (by rwa [← hlength])
    · exact .deeper hentry hfollow (by rwa [← hlength]) hdirectory (by rwa [← hlength]) hshort
        (ih hrest)

/-- An entry that a walk meets is below the directory that its path leads to. -/
theorem meets_of_mem_events {path : String} {e : Event} {entry : Entry}
    (h : e ∈ walk.events fs path) (hanswer : e.answer = .ok entry) :
    ∃ id, fs.resolve path = .ok id ∧ Meets walk fs [(id, path)] path [] id e := by
  unfold events at h
  split at h
  · cases List.mem_singleton.1 h
    cases hanswer
  · exact ⟨_, ‹_›, meets_of_mem_survey h⟩

namespace Meets

variable {inside way : List (NodeId × String)} {path : String} {id : NodeId} {e : Event}

theorem prefix_way (h : Meets walk fs inside path way id e) : way <+: e.way := by
  induction h with
  | lost | found | long => exact List.prefix_append _ _
  | deeper _ _ _ _ _ _ _ ih => exact (List.prefix_append _ _).trans ih

/-- An entry has the names on its way. -/
theorem names_eq (h : Meets walk fs inside path way id e) {entry : Entry}
    (hanswer : e.answer = .ok entry) : entry.names = e.way.map (·.2) := by
  induction h with
  | lost | long => cases hanswer
  | found => cases hanswer; rfl
  | deeper _ _ _ _ _ _ _ ih => exact ih hanswer

/-- A walk that asks every entry for its name finds visible names only. -/
theorem visible (h : Meets walk fs inside path way id e) (hleast : walk.least ≤ 1) {entry : Entry}
    (hanswer : e.answer = .ok entry) {step : NodeId × String} (hstep : step ∈ e.way) :
    step ∈ way ∨ walk.visible step.2 = true := by
  induction h with
  | lost | long => cases hanswer
  | found _ _ hvisible =>
    rcases List.mem_append.1 hstep with hmem | hmem
    · exact .inl hmem
    · cases List.mem_singleton.1 hmem
      exact .inr hvisible
  | deeper _ _ hvisible _ _ _ _ ih =>
    rcases ih hanswer hstep with hmem | hseen
    · rcases List.mem_append.1 hmem with hmem | hmem
      · exact .inl hmem
      · cases List.mem_singleton.1 hmem
        exact .inr (hvisible (hleast.trans (Nat.le_add_left _ _)))
    · exact .inr hseen

/-- No way is longer than the walk goes deep. -/
theorem length_le (h : Meets walk fs inside path way id e) {most : Nat}
    (hmost : walk.most = some most) (hway : way.length < most) : e.way.length ≤ most := by
  induction h with
  | lost | found | long => simpa [Nat.succ_le_iff] using hway
  | deeper _ _ _ _ henters _ _ ih =>
    refine ih ?_
    rw [List.length_append]
    exact enters_iff.1 henters most hmost

/-- What is found is there, and its path leads to it where it is not too long. -/
theorem resolve_eq (h : Meets walk fs inside path way id e) (hw : WellFormed fs)
    (hpath : fs.resolve path = .ok id) {entry : Entry} (hanswer : e.answer = .ok entry) :
    entry.node < fs.nodes.size ∧
      (entry.path.utf8ByteSize < pathLimit → fs.resolve entry.path = .ok entry.node) := by
  induction h with
  | lost | long => cases hanswer
  | found hentry hfollow =>
    cases hanswer
    exact resolve_of_follow hw hpath hentry hfollow
  | deeper hentry hfollow _ _ _ hshort _ ih =>
    exact ih ((resolve_of_follow hw hpath hentry hfollow).2 hshort) hanswer

end Meets

/-! ## fuel -/

theorem look_congr {inside : List (NodeId × String)} {path : String}
    {way : List (NodeId × String)} {item : String × NodeId}
    {below below' : List (NodeId × String) → String → List (NodeId × String) → NodeId → List Event}
    (h : ∀ id, follow fs inside path item.2 = .ok id → fs.isDirectory id = true →
      below ((id, path) :: inside) path way id = below' ((id, path) :: inside) path way id) :
    walk.look fs inside path way below item = walk.look fs inside path way below' item := by
  unfold look
  split
  · rfl
  · rename_i id hfollow
    cases hdirectory : fs.isDirectory id with
    | false => rfl
    | true => rw [h id hfollow hdirectory]

/-- how many nodes a walk is not inside of -/
def room (fs : FileSystem) (inside : List (NodeId × String)) : Nat :=
  (Finset.range fs.nodes.size \ (inside.map (·.1)).toFinset).card

theorem room_cons_le (fs : FileSystem) (inside : List (NodeId × String)) (step : NodeId × String) :
    room fs (step :: inside) ≤ room fs inside := by
  unfold room
  rw [List.map_cons, List.toFinset_cons]
  exact Finset.card_le_card (Finset.sdiff_subset_sdiff subset_rfl (Finset.subset_insert _ _))

theorem room_cons_lt {inside : List (NodeId × String)} {id : NodeId} (path : String)
    (hid : id < fs.nodes.size) (hnew : id ∉ inside.map (·.1)) :
    room fs ((id, path) :: inside) < room fs inside := by
  unfold room
  rw [List.map_cons, List.toFinset_cons, Finset.sdiff_insert]
  exact Finset.card_erase_lt_of_mem (Finset.mem_sdiff.2
    ⟨Finset.mem_range.2 hid, fun h => hnew (List.mem_toFinset.1 h)⟩)

/-- More fuel changes nothing where there is as much as the walk can use: between two links it
goes down a chain of directories, and each link leads to a directory that it was not inside of. -/
theorem survey_succ (hw : WellFormed fs) {fuel height : Nat}
    {inside way : List (NodeId × String)} {path : String} {id : NodeId}
    (hheight : ∀ names target, Reaches fs id names target → names.length ≤ height)
    (hfuel : room fs inside * (fs.nodes.size + 1) + height ≤ fuel) :
    walk.survey fs (fuel + 1) inside path way id = walk.survey fs fuel inside path way id := by
  induction fuel generalizing height inside way path id with
  | zero =>
    have hempty : fs.entries id = [] := by
      refine List.eq_nil_iff_forall_not_mem.2 fun ⟨name, child⟩ hentry => ?_
      have hone := hheight [name] child (.down hentry (.here child))
      rw [List.length_singleton] at hone
      omega
    rw [survey, survey, hempty, List.flatMap_nil]
  | succ fuel ih =>
    rw [survey, survey]
    refine List.flatMap_congr fun ⟨name, child⟩ hentry =>
      look_congr fun target hfollow hdirectory => ?_
    dsimp only at hfollow ⊢
    have hone := hheight [name] child (.down hentry (.here child))
    rw [List.length_singleton] at hone
    rcases follow_eq_ok hfollow with ⟨-, rfl⟩ | ⟨-, -, hnew⟩
    · have hroom := Nat.mul_le_mul_right (fs.nodes.size + 1)
        (room_cons_le fs inside (target, Path.join path name))
      have hlower : ∀ names end', Reaches fs target names end' → names.length ≤ height - 1 := by
        intro names end' hreach
        have hlonger := hheight (name :: names) end' (.down hentry hreach)
        rw [List.length_cons] at hlonger
        omega
      exact ih hlower (by omega)
    · have hroom := Nat.mul_le_mul_right (fs.nodes.size + 1)
        (room_cons_lt (Path.join path name) (lt_size_of_isDirectory hdirectory) hnew)
      rw [Nat.succ_mul] at hroom
      exact ih (fun names end' hreach => hreach.length_le fun _ _ _ _ h => hw.acyclic h) (by omega)

/-- **What a survey meets does not depend on its fuel.** -/
theorem survey_of_le (hw : WellFormed fs) {fuel : Nat} (hfuel : depthLimit fs ≤ fuel)
    (inside way : List (NodeId × String)) (path : String) (id : NodeId) :
    walk.survey fs fuel inside path way id =
      walk.survey fs (depthLimit fs) inside path way id := by
  induction fuel, hfuel using Nat.le_induction with
  | base => rfl
  | succ fuel hle ih =>
    rw [← ih]
    refine survey_succ hw (fun names target hreach =>
      hreach.length_le fun _ _ _ _ h => hw.acyclic h) (Nat.le_trans ?_ hle)
    have hroom : room fs inside ≤ fs.nodes.size :=
      (Finset.card_le_card Finset.sdiff_subset).trans_eq (Finset.card_range _)
    have := Nat.mul_le_mul_right (fs.nodes.size + 1) hroom
    unfold depthLimit
    rw [Nat.succ_mul]
    omega

end Splittable.Walk
