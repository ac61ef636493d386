import Splittable.FileSystem.Walk
import Splittable.Proofs.FileSystem.Tree

/-!
# Walks through a tree

A walk through a directory tree that can be read finds every entry that it wants and has no fault.

* `Walk.Wants`          the names that a walk looks for from a depth on;
* `Walk.Wants.depth`, `wants_of_visible`   the depths that are wanted;
* `Walk.Finds`          the entries at the wanted names;
* `Walk.mem_visit_iff`, `visit_finds`   what is found at one entry of a directory;
* `Walk.descend_finds`  what is found below a directory;
* `Walk.run_finds`      a whole walk.
-/

namespace Splittable.Walk

open FileSystem

variable {walk : Walk} {fs : FileSystem}

/-! ## the names that are wanted -/

/-- The last name is deep enough, those before it can be entered, and each that the walk does not
only pass through is visible. -/
def Wants (walk : Walk) : Nat → List String → Prop
  | _, [] => False
  | depth, name :: rest =>
    (walk.least ≤ depth → walk.visible name = true) ∧
      ((rest = [] ∧ walk.least ≤ depth) ∨
        (walk.enters depth = true ∧ Wants walk (depth + 1) rest))

theorem enters_iff {depth : Nat} :
    walk.enters depth = true ↔ ∀ most, walk.most = some most → depth + 1 ≤ most := by
  unfold enters
  split
  · simp [*]
  · simp [*]

theorem Wants.ne_nil {depth : Nat} {names : List String} (h : walk.Wants depth names) :
    names ≠ [] := by
  rintro rfl
  exact h

/-- Wanted names are as many as lead to a depth between the least and the most. -/
theorem Wants.depth {depth : Nat} {names : List String} (h : walk.Wants depth names) :
    walk.least < depth + names.length ∧
      ∀ most, walk.most = some most → depth ≤ most → depth + names.length ≤ most + 1 := by
  induction names generalizing depth with
  | nil => exact h.elim
  | cons name rest ih =>
    rw [List.length_cons]
    rcases h.2 with ⟨rfl, hleast⟩ | ⟨henters, hrest⟩
    · exact ⟨Nat.lt_succ_of_le hleast, fun most _ hmost => Nat.succ_le_succ hmost⟩
    · obtain ⟨hleast, hmost⟩ := ih hrest
      refine ⟨by omega, fun most hwalk _ => ?_⟩
      have := hmost most hwalk (enters_iff.1 henters most hwalk)
      omega

/-- From the least depth on all wanted names are visible. -/
theorem Wants.visible {depth : Nat} {names : List String} (h : walk.Wants depth names)
    (hleast : walk.least ≤ depth) : ∀ name ∈ names, walk.visible name = true := by
  induction names generalizing depth with
  | nil => exact fun _ h => nomatch h
  | cons first rest ih =>
    intro name hname
    rcases List.mem_cons.1 hname with rfl | hname
    · exact h.1 hleast
    · rcases h.2 with ⟨rfl, -⟩ | ⟨-, hrest⟩
      · cases hname
      · exact ih hrest (Nat.le_succ_of_le hleast) name hname

/-- Visible names that lead to such a depth are wanted. -/
theorem wants_of_visible {depth : Nat} {names : List String} (hne : names ≠ [])
    (hvisible : ∀ name ∈ names, walk.visible name = true)
    (hleast : walk.least < depth + names.length)
    (hmost : ∀ most, walk.most = some most → depth + names.length ≤ most + 1) :
    walk.Wants depth names := by
  induction names generalizing depth with
  | nil => exact absurd rfl hne
  | cons name rest ih =>
    rw [List.length_cons] at hleast hmost
    refine ⟨fun _ => hvisible name List.mem_cons_self, ?_⟩
    by_cases hrest : rest = []
    · subst hrest
      exact .inl ⟨rfl, Nat.le_of_lt_succ hleast⟩
    · have hpos := List.length_pos_iff.2 hrest
      refine .inr ⟨enters_iff.2 fun most hwalk => ?_,
        ih hrest (fun n hn => hvisible n (List.mem_cons_of_mem _ hn)) (by omega)
          fun most hwalk => ?_⟩
      · have := hmost most hwalk
        omega
      · have := hmost most hwalk
        omega

/-! ## what is found -/

/-- A search has no fault, and its entries are those at the names that have a property, below the
directory at `path`, which `names` led to. -/
def Finds (fs : FileSystem) (path : String) (names : List String) (top : NodeId)
    (wanted : List String → Prop) (found : Found) : Prop :=
  found.2 = none ∧ ∀ entry, entry ∈ found.1 ↔
    ∃ more id, wanted more ∧ Reaches fs top more id ∧
      entry = ⟨Path.joinAll path more, names ++ more, id⟩

theorem searchAll_eq {α : Type} {search : α → Found} {items : List α}
    (h : ∀ item ∈ items, (search item).2 = none) :
    searchAll search items = (items.flatMap fun item => (search item).1, none) := by
  induction items with
  | nil => rfl
  | cons item rest ih =>
    have hitem := h item List.mem_cons_self
    rw [searchAll, ih fun i hi => h i (List.mem_cons_of_mem _ hi)]
    split
    · rename_i hsearch
      rw [hsearch] at hitem
      cases hitem
    · rename_i hsearch
      rw [List.flatMap_cons, hsearch]

theorem follow_of_not_link {inside : List (NodeId × String)} {path : String} {child : NodeId}
    (h : ∀ target, fs.node? child ≠ some (.link target)) :
    follow fs inside path child = .ok child := by
  unfold follow
  split
  · exact absurd ‹_› (h _)
  · rfl

/-- One entry that is no link, at a path that the system looks at. -/
theorem visit_eq {directory name : String} {names : List String} {depth : Nat}
    {inside : List (NodeId × String)} {child : NodeId}
    {below : List (NodeId × String) → String → List String → NodeId → Found}
    (hlink : ∀ target, fs.node? child ≠ some (.link target))
    (hshort : (Path.join directory name).utf8ByteSize < pathLimit) :
    walk.visit fs inside directory names depth below (name, child) =
      let path := Path.join directory name
      let here := if walk.least ≤ depth then [⟨path, names ++ [name], child⟩] else []
      let found := below ((child, path) :: inside) path (names ++ [name]) child
      if walk.least ≤ depth ∧ walk.visible name = false then ([], none)
      else if fs.isDirectory child && walk.enters depth then (here ++ found.1, found.2)
      else (here, none) := by
  unfold visit
  dsimp only
  rw [follow_of_not_link hlink]
  dsimp only
  rw [if_neg (Nat.not_le.2 hshort)]
  simp

section
variable {directory name : String} {names : List String} {depth : Nat}
  {inside : List (NodeId × String)} {child : NodeId}
  {below : List (NodeId × String) → String → List String → NodeId → Found}

theorem visit_quiet (hlink : ∀ target, fs.node? child ≠ some (.link target))
    (hshort : (Path.join directory name).utf8ByteSize < pathLimit)
    (hbelow : (below ((child, Path.join directory name) :: inside) (Path.join directory name)
      (names ++ [name]) child).2 = none) :
    (walk.visit fs inside directory names depth below (name, child)).2 = none := by
  rw [visit_eq hlink hshort]
  dsimp only
  split
  · rfl
  · split
    · exact hbelow
    · rfl

/-- What is found at an entry: the entry itself, and what is below it where it is entered. -/
theorem mem_visit_iff (hlink : ∀ target, fs.node? child ≠ some (.link target))
    (hshort : (Path.join directory name).utf8ByteSize < pathLimit) {entry : Entry} :
    entry ∈ (walk.visit fs inside directory names depth below (name, child)).1 ↔
      (walk.least ≤ depth → walk.visible name = true) ∧
        ((walk.least ≤ depth ∧ entry = ⟨Path.join directory name, names ++ [name], child⟩) ∨
          (fs.isDirectory child = true ∧ walk.enters depth = true ∧
            entry ∈ (below ((child, Path.join directory name) :: inside)
              (Path.join directory name) (names ++ [name]) child).1)) := by
  rw [visit_eq hlink hshort]
  dsimp only
  have hhere : ∀ here : Entry, entry ∈ (if walk.least ≤ depth then [here] else []) ↔
      walk.least ≤ depth ∧ entry = here := by
    intro here
    split <;> simp [*]
  by_cases hseen : walk.least ≤ depth → walk.visible name = true
  · rw [if_neg (by simpa using hseen)]
    split
    · rename_i hin
      simp_all
    · rename_i hin
      simp_all
  · rw [if_pos (by simpa using hseen)]
    exact ⟨fun h => (List.not_mem_nil h).elim, fun h => absurd h.1 hseen⟩

end

/-- One entry of a directory in a tree: the entry itself where it is wanted, and what is found
below it. -/
theorem visit_finds {path : String} {top : NodeId} {fuel depth : Nat} (names : List String)
    (inside : List (NodeId × String))
    {below : List (NodeId × String) → String → List String → NodeId → Found}
    {name : String} {child : NodeId} (ht : IsTree fs top) (hr : Readable fs path top)
    (hentry : (name, child) ∈ fs.entries top)
    (hbelow : Finds fs (Path.join path name) (names ++ [name]) child
      (fun more => more.length ≤ fuel ∧ walk.Wants (depth + 1) more)
      (below ((child, Path.join path name) :: inside) (Path.join path name) (names ++ [name])
        child)) :
    (walk.visit fs inside path names depth below (name, child)).2 = none ∧
      ∀ entry, entry ∈ (walk.visit fs inside path names depth below (name, child)).1 ↔
        ∃ rest id, rest.length ≤ fuel ∧ walk.Wants depth (name :: rest) ∧
          Reaches fs child rest id ∧
          entry = ⟨Path.joinAll path (name :: rest), names ++ name :: rest, id⟩ := by
  have hchild : Reaches fs top [name] child := .down hentry (.here _)
  have hlink := ht.not_link hchild
  have hshort : (Path.join path name).utf8ByteSize < pathLimit := hr _ _ hchild
  refine ⟨visit_quiet hlink hshort hbelow.1, fun entry => ?_⟩
  rw [mem_visit_iff hlink hshort, hbelow.2]
  constructor
  · rintro ⟨hseen, ⟨hleast, rfl⟩ | ⟨-, henters, more, id, ⟨hlength, hwants⟩, hreach, rfl⟩⟩
    · exact ⟨[], child, Nat.zero_le _, ⟨hseen, .inl ⟨rfl, hleast⟩⟩, .here _, rfl⟩
    · exact ⟨more, id, hlength, ⟨hseen, .inr ⟨henters, hwants⟩⟩, hreach, by simp⟩
  · rintro ⟨rest, id, hlength, ⟨hseen, ⟨rfl, hleast⟩ | ⟨henters, hwants⟩⟩, hreach, rfl⟩
    · cases reaches_nil.1 hreach
      exact ⟨hseen, .inl ⟨hleast, rfl⟩⟩
    · -- a wanted name below the entry makes the entry a directory
      have hdirectory : fs.isDirectory child = true := by
        cases hreach with
        | here => exact hwants.elim
        | down hitem _ => exact isDirectory_of_mem_entries hitem
      exact ⟨hseen, .inr ⟨hdirectory, henters, rest, id, ⟨hlength, hwants⟩, hreach, by simp⟩⟩

theorem descend_finds {path : String} {top : NodeId} (ht : IsTree fs top)
    (hr : Readable fs path top) (fuel depth : Nat) (inside : List (NodeId × String))
    (names : List String) :
    Finds fs path names top (fun more => more.length ≤ fuel ∧ walk.Wants depth more)
      (walk.descend fs fuel depth inside path names top) := by
  induction fuel generalizing path names top depth inside with
  | zero =>
    refine ⟨rfl, fun entry => ⟨fun h => (List.not_mem_nil h).elim, ?_⟩⟩
    rintro ⟨more, id, ⟨hlength, hwants⟩, -⟩
    exact absurd (List.length_eq_zero_iff.1 (Nat.le_zero.1 hlength)) hwants.ne_nil
  | succ fuel ih =>
    have hvisit := fun (name : String) (child : NodeId) (hentry : (name, child) ∈ fs.entries top) =>
      have hchild : Reaches fs top [name] child := .down hentry (.here _)
      visit_finds names inside ht hr hentry
        (ih (ht.below hchild) (hr.below hchild) (depth + 1) ((child, Path.join path name) :: inside)
          (names ++ [name]))
    rw [descend, searchAll_eq fun item hitem => (hvisit item.1 item.2 hitem).1]
    refine ⟨rfl, fun entry => ?_⟩
    rw [List.mem_flatMap]
    constructor
    · rintro ⟨⟨name, child⟩, hitem, hentry⟩
      obtain ⟨rest, id, hlength, hwants, hreach, rfl⟩ :=
        ((hvisit name child hitem).2 entry).1 hentry
      exact ⟨name :: rest, id, ⟨Nat.succ_le_succ hlength, hwants⟩, .down hitem hreach, rfl⟩
    · rintro ⟨more, id, ⟨hlength, hwants⟩, hreach, rfl⟩
      cases hreach with
      | here => exact hwants.elim
      | @down _ child _ name rest hentry hrest =>
        exact ⟨(name, child), hentry, ((hvisit name child hentry).2 _).2
          ⟨rest, id, Nat.le_of_succ_le_succ hlength, hwants, hrest, rfl⟩⟩

/-- **A walk through a tree finds what it wants.** -/
theorem run_finds (walk : Walk) {path : String} {top : NodeId} (h : fs.resolve path = .ok top)
    (ht : IsTree fs top) (hr : Readable fs path top) :
    Finds fs path [] top (walk.Wants 1) (walk.run fs path) := by
  have hdepth : fs.nodes.size ≤ depthLimit fs := by
    unfold depthLimit
    exact Nat.le_trans (Nat.le_succ _) (Nat.le_mul_self _)
  unfold run
  rw [h]
  obtain ⟨hfault, hentries⟩ := descend_finds ht hr (depthLimit fs) 1 [(top, path)] []
  refine ⟨hfault, fun entry => (hentries entry).trans ?_⟩
  constructor
  · rintro ⟨more, id, ⟨-, hwants⟩, hreach⟩
    exact ⟨more, id, hwants, hreach⟩
  · rintro ⟨more, id, hwants, hreach, he⟩
    exact ⟨more, id, ⟨(ht.length_le hreach).trans hdepth, hwants⟩, hreach, he⟩

end Splittable.Walk
