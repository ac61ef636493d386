import Splittable.FileSystem.Basic
import Splittable.Proofs.FileSystem.Path
import Mathlib.Data.List.Nodup
import Mathlib.Data.List.Perm.Subperm

/-!
# Directory trees

What lies below a directory is a tree where no symbolic link is and no name leads back up.  There
the names that lead to a node say its path, whatever links the path of the directory itself leads
through.

* `FileSystem.Reaches`   names lead from one node to another;
* `FileSystem.IsTree`, `Readable`   the tree below a node, and its paths short enough to be read;
* `FileSystem.IsTree.length_le`   no node is deeper than there are nodes;
* `FileSystem.isTree_of_rising`, `IsTree.readable`   a system that only grew, with short paths;
* `FileSystem.walkFrom_append`   steps are followed one part after the other;
* `FileSystem.resolve_joinAll`   the path that names lead to;
* `FileSystem.resolve_first_missing`   a path whose first name is missing leads nowhere.
-/

namespace Splittable

namespace FileSystem

variable {fs : FileSystem}

/-! ## what lies below a node -/

/-- Each name is an entry of the directory that the names before it lead to. -/
inductive Reaches (fs : FileSystem) : NodeId → List String → NodeId → Prop
  | here (id : NodeId) : Reaches fs id [] id
  | down {id child target : NodeId} {name : String} {names : List String}
      (hentry : (name, child) ∈ fs.entries id) (hrest : Reaches fs child names target) :
      Reaches fs id (name :: names) target

theorem reaches_nil {id target : NodeId} : Reaches fs id [] target ↔ target = id := by
  constructor
  · rintro ⟨⟩
    rfl
  · rintro rfl
    exact .here target

theorem reaches_cons {id target : NodeId} {name : String} {names : List String} :
    Reaches fs id (name :: names) target ↔
      ∃ child, (name, child) ∈ fs.entries id ∧ Reaches fs child names target := by
  constructor
  · rintro (_ | ⟨hentry, hrest⟩)
    exact ⟨_, hentry, hrest⟩
  · rintro ⟨child, hentry, hrest⟩
    exact .down hentry hrest

theorem Reaches.append {id child target : NodeId} {names more : List String}
    (h : Reaches fs id names child) (hmore : Reaches fs child more target) :
    Reaches fs id (names ++ more) target := by
  induction h with
  | here => exact hmore
  | down hentry _ ih => exact .down hentry (ih hmore)

theorem mem_entries_iff {id : NodeId} {name : String} {child : NodeId} :
    (name, child) ∈ fs.entries id ↔
      ∃ parent entries, fs.node? id = some (.directory parent entries) ∧
        entries.find? name = some child := by
  unfold entries
  constructor
  · intro h
    split at h
    · exact ⟨_, _, ‹_›, (Table.find?_eq_some_iff _ _ _).2 h⟩
    · cases h
  · rintro ⟨parent, entries, hnode, hfind⟩
    rw [hnode]
    exact (Table.find?_eq_some_iff _ _ _).1 hfind

theorem isDirectory_of_mem_entries {id child : NodeId} {name : String}
    (h : (name, child) ∈ fs.entries id) : fs.isDirectory id = true := by
  obtain ⟨parent, entries, hnode, -⟩ := mem_entries_iff.1 h
  unfold isDirectory
  rw [hnode]

/-- Names lead to one node. -/
theorem Reaches.unique {id a b : NodeId} {names : List String} (ha : Reaches fs id names a)
    (hb : Reaches fs id names b) : a = b := by
  induction ha with
  | here => exact (reaches_nil.1 hb).symm
  | down hentry _ ih =>
    obtain ⟨child, hchild, hrest⟩ := reaches_cons.1 hb
    obtain ⟨_, _, hnode, hfind⟩ := mem_entries_iff.1 hentry
    obtain ⟨_, _, hnode', hfind'⟩ := mem_entries_iff.1 hchild
    cases hnode.symm.trans hnode'
    cases hfind.symm.trans hfind'
    exact ih hrest

/-- The directories on the way to a node are all different where none of them is below itself. -/
theorem Reaches.exists_nodup {id target : NodeId} {names : List String}
    (h : Reaches fs id names target)
    (hacyclic : ∀ ns v more, Reaches fs id ns v → Reaches fs v more v → more = []) :
    ∃ way : List NodeId, way.length = names.length ∧ way.Nodup ∧
      ∀ v ∈ way, v < fs.nodes.size ∧ ∃ ns, Reaches fs id ns v := by
  induction h with
  | here => exact ⟨[], rfl, List.nodup_nil, fun _ h => nomatch h⟩
  | @down id child target name names hentry hrest ih =>
    have hchild : Reaches fs id [name] child := .down hentry (.here _)
    obtain ⟨way, hlength, hnodup, hway⟩ :=
      ih fun ns v more hns => hacyclic (name :: ns) v more (hchild.append hns)
    refine ⟨id :: way, by rw [List.length_cons, List.length_cons, hlength],
      List.nodup_cons.2 ⟨fun hmem => ?_, hnodup⟩, fun v hv => ?_⟩
    · obtain ⟨-, ns, hback⟩ := hway id hmem
      exact absurd (hacyclic [] id _ (.here id) (hchild.append hback)) (List.cons_ne_nil _ _)
    · rcases List.mem_cons.1 hv with rfl | hv
      · obtain ⟨parent, entries, hnode, -⟩ := mem_entries_iff.1 hentry
        exact ⟨(Array.getElem?_eq_some_iff.1 hnode).1, [], .here _⟩
      · obtain ⟨hlt, ns, hns⟩ := hway v hv
        exact ⟨hlt, name :: ns, .down hentry hns⟩

/-- So no way is longer than there are nodes. -/
theorem Reaches.length_le {id target : NodeId} {names : List String}
    (h : Reaches fs id names target)
    (hacyclic : ∀ ns v more, Reaches fs id ns v → Reaches fs v more v → more = []) :
    names.length ≤ fs.nodes.size := by
  obtain ⟨way, hlength, hnodup, hway⟩ := h.exists_nodup hacyclic
  have hsub : way ⊆ List.range fs.nodes.size := fun v hv => List.mem_range.2 (hway v hv).1
  have hle := (List.subperm_of_subset hnodup hsub).length_le
  rwa [List.length_range, hlength] at hle

/-! ## trees -/

/-- Below a node there are files and directories with names that a system allows, and no directory
is below itself. -/
structure IsTree (fs : FileSystem) (top : NodeId) : Prop where
  node {names : List String} {id : NodeId} (h : Reaches fs top names id) :
    (∃ bytes, fs.node? id = some (.file bytes)) ∨ fs.isDirectory id = true
  name {names : List String} {id child : NodeId} {name : String} (h : Reaches fs top names id)
    (hentry : (name, child) ∈ fs.entries id) :
    Path.IsName name ∧ name.utf8ByteSize ≤ nameLimit
  acyclic {names more : List String} {id : NodeId} (h : Reaches fs top names id)
    (hmore : Reaches fs id more id) : more = []

/-- Every path below the directory at `path` is short enough for the system to look at. -/
def Readable (fs : FileSystem) (path : String) (top : NodeId) : Prop :=
  ∀ names id, Reaches fs top names id → (Path.joinAll path names).utf8ByteSize < pathLimit

namespace IsTree

variable {top : NodeId}

/-- Every part of a tree is one. -/
theorem below (ht : IsTree fs top) {names : List String} {id : NodeId}
    (h : Reaches fs top names id) : IsTree fs id :=
  ⟨fun h' => ht.node (h.append h'), fun h' => ht.name (h.append h'),
    fun h' => ht.acyclic (h.append h')⟩

theorem names (ht : IsTree fs top) {names : List String} {id : NodeId}
    (h : Reaches fs top names id) :
    ∀ name ∈ names, Path.IsName name ∧ name.utf8ByteSize ≤ nameLimit := by
  induction h with
  | here => exact fun _ h => nomatch h
  | down hentry hrest ih =>
    intro name hname
    rcases List.mem_cons.1 hname with rfl | hname
    · exact ht.name (.here _) hentry
    · exact ih (ht.below (.down hentry (.here _))) name hname

theorem isName (ht : IsTree fs top) {names : List String} {id : NodeId}
    (h : Reaches fs top names id) : ∀ name ∈ names, Path.IsName name :=
  fun name hname => (ht.names h name hname).1

theorem not_link (ht : IsTree fs top) {names : List String} {id : NodeId}
    (h : Reaches fs top names id) (target : String) : fs.node? id ≠ some (.link target) := by
  intro hlink
  rcases ht.node h with ⟨bytes, hfile⟩ | hdirectory
  · cases hfile.symm.trans hlink
  · unfold isDirectory at hdirectory
    rw [hlink] at hdirectory
    cases hdirectory

/-- No node is deeper than there are nodes. -/
theorem length_le (ht : IsTree fs top) {names : List String} {id : NodeId}
    (h : Reaches fs top names id) : names.length ≤ fs.nodes.size :=
  h.length_le fun _ _ _ hns hmore => ht.acyclic hns hmore

end IsTree

/-- Where entries have higher numbers than their directory nothing leads back up. -/
theorem isTree_of_rising {top : NodeId} (htop : fs.isDirectory top = true)
    (hnode : ∀ id name child, (name, child) ∈ fs.entries id →
      id < child ∧ ((∃ bytes, fs.node? child = some (.file bytes)) ∨ fs.isDirectory child = true))
    (hname : ∀ id name child, (name, child) ∈ fs.entries id →
      Path.IsName name ∧ name.utf8ByteSize ≤ nameLimit) : IsTree fs top := by
  have hrise : ∀ {id names target}, Reaches fs id names target →
      id ≤ target ∧ (names ≠ [] → id < target) := by
    intro id names target h
    induction h with
    | here => exact ⟨Nat.le_refl _, fun h => absurd rfl h⟩
    | down hentry _ ih =>
      have hlt := (hnode _ _ _ hentry).1
      exact ⟨(Nat.le_of_lt hlt).trans ih.1, fun _ => Nat.lt_of_lt_of_le hlt ih.1⟩
  have hkind : ∀ {id names target}, Reaches fs id names target →
      (∃ bytes, fs.node? id = some (.file bytes)) ∨ fs.isDirectory id = true →
      (∃ bytes, fs.node? target = some (.file bytes)) ∨ fs.isDirectory target = true := by
    intro id names target h hid
    induction h with
    | here => exact hid
    | down hentry _ ih => exact ih (hnode _ _ _ hentry).2
  refine ⟨fun h => hkind h (.inr htop), fun _ hentry => hname _ _ _ hentry,
    fun _ hmore => Classical.byContradiction fun hne => ?_⟩
  exact Nat.lt_irrefl _ ((hrise hmore).2 hne)

theorem Readable.below {path : String} {top id : NodeId} {names : List String}
    (hr : Readable fs path top) (h : Reaches fs top names id) :
    Readable fs (Path.joinAll path names) id := by
  intro more target hmore
  rw [← Path.joinAll_append]
  exact hr _ _ (h.append hmore)

theorem utf8ByteSize_joinAll {path : String} {names : List String}
    (h : ∀ name ∈ names, name.utf8ByteSize ≤ nameLimit) :
    (Path.joinAll path names).utf8ByteSize ≤
      path.utf8ByteSize + names.length * (nameLimit + 1) := by
  induction names generalizing path with
  | nil => exact Nat.le_add_right _ _
  | cons name names ih =>
    have hname := h name List.mem_cons_self
    have hrest := @ih (Path.join path name) fun n hn => h n (List.mem_cons_of_mem _ hn)
    have hjoin := Path.utf8ByteSize_join path name
    rw [Path.joinAll_cons, List.length_cons, Nat.succ_mul]
    omega

/-- All paths are short below a path that is, in a tree of few nodes. -/
theorem IsTree.readable {path : String} {top : NodeId} (ht : IsTree fs top)
    (h : path.utf8ByteSize + fs.nodes.size * (nameLimit + 1) < pathLimit) :
    Readable fs path top := by
  intro names id hreach
  have hlength := Nat.mul_le_mul_right (nameLimit + 1) (ht.length_le hreach)
  have hsize : (Path.joinAll path names).utf8ByteSize ≤ _ :=
    utf8ByteSize_joinAll fun name hname => (ht.names hreach name hname).2
  omega

/-! ## paths are followed step by step -/

/-- Steps are followed to a directory and from there on.  Links on the way are counted. -/
theorem walkFrom_append (fs : FileSystem) (links : Nat) (current : NodeId) (names : List String)
    {more : List String} (hmore : more ≠ []) :
    ∃ links', walkFrom fs true links current (names ++ more) =
      match walkFrom fs true links current names with
      | .ok (.node id) => walkFrom fs true links' id more
      | .ok (.vacant _ _) => .error .noEntry
      | .error e => .error e := by
  fun_induction walkFrom fs true links current names with
  | case1 links current => exact ⟨links, rfl⟩
  | case2 links current rest parent entries hnode ih =>
    simpa [walkFrom, hnode] using ih
  | case3 links current rest parent entries hnode hdot ih =>
    simpa [walkFrom, hnode] using ih
  | case4 links current name rest parent entries hnode hdot hdots hlong =>
    exact ⟨links, by simp [walkFrom, hnode, hdot, hdots, hlong]⟩
  | case5 links current name rest parent entries hnode hdot hdots hlong hfind hlast =>
    exact ⟨links, by simp [walkFrom, hnode, hdot, hdots, hlong, hfind, hmore]⟩
  | case6 links current name rest parent entries hnode hdot hdots hlong hfind hlast =>
    exact ⟨links, by simp [walkFrom, hnode, hdot, hdots, hlong, hfind, hmore]⟩
  | case7 links current name rest parent entries hnode hdot hdots hlong id hfind target hid hlast =>
    simp at hlast
  | case8 current name rest parent entries hnode hdot hdots hlong id hfind target hid hlast =>
    exact ⟨0, by simp [walkFrom, hnode, hdot, hdots, hlong, hfind, hid]⟩
  | case9 current name rest parent entries hnode hdot hdots hlong id hfind target hid hlast links
      hempty =>
    exact ⟨links, by simp_all [walkFrom]⟩
  | case10 current name rest parent entries hnode hdot hdots hlong id hfind target hid hlast links
      hempty ih =>
    simpa [walkFrom, hnode, hdot, hdots, hlong, hfind, hid, hempty] using ih
  | case11 links current name rest parent entries hnode hdot hdots hlong id hfind hid ih =>
    rw [List.cons_append, walkFrom, hnode]
    dsimp only
    rw [if_neg hdot, if_neg hdots, if_neg hlong, hfind]
    simpa [hid] using ih
  | case12 links current name rest hnode =>
    refine ⟨links, ?_⟩
    rw [List.cons_append, walkFrom]
    split
    · exact (hnode _ _ ‹_›).elim
    · rfl

/-- An entry of a directory that is no link is found by its name. -/
theorem walkFrom_entry {links : Nat} {id child : NodeId} {name : String} (hname : Path.IsName name)
    (hshort : name.utf8ByteSize ≤ nameLimit) (hentry : (name, child) ∈ fs.entries id)
    (hlink : ∀ target, fs.node? child ≠ some (.link target)) :
    walkFrom fs true links id [name] = .ok (.node child) := by
  obtain ⟨parent, entries, hnode, hfind⟩ := mem_entries_iff.1 hentry
  rw [walkFrom, hnode]
  dsimp only
  rw [if_neg hname.ne_current, if_neg hname.ne_parent, if_neg (Nat.not_lt.2 hshort), hfind]
  dsimp only
  split
  · exact absurd ‹_› (hlink _)
  · rw [walkFrom]

/-- A step to the directory itself does not lead away from it. -/
theorem walkFrom_names {links : Nat} {current id : NodeId} {path : String}
    (h : walkFrom fs true links current (steps path) = .ok (.node id)) :
    walkFrom fs true links current ((Path.pieces path).filter (· ≠ "")) = .ok (.node id) := by
  unfold steps at h
  dsimp only at h
  split at h
  · obtain ⟨links', happend⟩ := walkFrom_append fs links current
      ((Path.pieces path).filter (· ≠ "")) (List.cons_ne_nil "." [])
    rw [happend] at h
    split at h
    · rename_i d hd
      rw [walkFrom] at h
      split at h
      · rw [if_pos rfl, walkFrom] at h
        rwa [← h]
      · cases h
    · cases h
    · cases h
  · exact h

/-- A path that is too long is refused in the same way by every system. -/
theorem locate_of_long {path : String} (hlong : pathLimit ≤ path.utf8ByteSize) :
    ∃ e, ∀ (fs : FileSystem) (follow : Bool), fs.locate follow path = .error e := by
  unfold locate
  by_cases hnul : path.toList.contains '\x00' = true
  · exact ⟨_, fun fs follow => by rw [if_pos hnul]⟩
  · by_cases hempty : path.isEmpty = true
    · exact ⟨_, fun fs follow => by rw [if_neg hnul, if_pos hempty]⟩
    · exact ⟨_, fun fs follow => by rw [if_neg hnul, if_neg hempty, if_pos hlong]⟩

theorem resolve_eq_ok_iff {path : String} {id : NodeId} :
    fs.resolve path = .ok id ↔
      '\x00' ∉ path.toList ∧ path ≠ "" ∧ path.utf8ByteSize < pathLimit ∧
        walkFrom fs true linkLimit (if Path.isAbsolute path then 0 else fs.workingDirectory)
          (steps path) = .ok (.node id) := by
  unfold resolve locate
  by_cases hnul : '\x00' ∈ path.toList
  · simp [hnul]
  by_cases hempty : path = ""
  · simp [hempty]
  by_cases hlong : pathLimit ≤ path.utf8ByteSize
  · simp [hnul, hempty, hlong, Nat.not_lt.2 hlong]
  rw [if_neg (by simpa using hnul), if_neg (by simpa using hempty), if_neg hlong]
  constructor
  · intro h
    refine ⟨hnul, hempty, Nat.not_le.1 hlong, ?_⟩
    split at h
    · cases h
      assumption
    · cases h
    · cases h
  · rintro ⟨-, -, -, hwalk⟩
    rw [hwalk]

theorem steps_cons {path name : String} {more : List String} (h : Path.pieces path = name :: more)
    (hname : name ≠ "") : ∃ later, steps path = name :: later := by
  unfold steps
  dsimp only
  rw [h, List.filter_cons_of_pos (by simpa using hname)]
  split
  · exact ⟨_, rfl⟩
  · exact ⟨_, rfl⟩

/-- A path leads nowhere where its first name is missing. -/
theorem resolve_first_missing {path name : String} {more : List String}
    (hpieces : Path.pieces path = name :: more) (hname : Path.IsName name)
    (hmissing : ∀ child, (name, child) ∉ fs.entries fs.workingDirectory) :
    ∃ e, fs.resolve path = .error e := by
  cases hresolve : fs.resolve path with
  | error e => exact ⟨e, rfl⟩
  | ok id =>
    obtain ⟨later, hsteps⟩ := steps_cons hpieces hname.ne_empty
    obtain ⟨-, -, -, hwalk⟩ := resolve_eq_ok_iff.1 hresolve
    rw [Path.isAbsolute_of_pieces hpieces hname.ne_empty, if_neg Bool.false_ne_true, hsteps,
      walkFrom] at hwalk
    split at hwalk
    · rename_i parent entries hnode
      have hfind : entries.find? name = none := by
        refine Option.eq_none_iff_forall_ne_some.2 fun child hchild => ?_
        exact hmissing child (mem_entries_iff.2 ⟨parent, entries, hnode, hchild⟩)
      rw [if_neg hname.ne_current, if_neg hname.ne_parent, hfind] at hwalk
      dsimp only at hwalk
      split at hwalk
      · cases hwalk
      · split at hwalk
        · cases hwalk
        · cases hwalk
    · cases hwalk

theorem isDirectoryAt_of_error {path : String} {e : OsError} (h : fs.resolve path = .error e) :
    fs.isDirectoryAt path = false := by
  unfold isDirectoryAt
  rw [h]

/-- A name below a directory is looked up in the directory, whatever links led to it. -/
theorem locate_join {path name : String} {id : NodeId} (h : fs.resolve path = .ok id)
    (hname : Path.IsName name) (hpath : (Path.join path name).utf8ByteSize < pathLimit) :
    ∃ links, fs.locate true (Path.join path name) = walkFrom fs true links id [name] := by
  obtain ⟨hnul, hempty, -, hwalk⟩ := resolve_eq_ok_iff.1 h
  have hsteps : steps (Path.join path name) = (Path.pieces path).filter (· ≠ "") ++ [name] := by
    unfold steps
    rw [if_neg (Path.getLast?_join path hname), Path.names_join path hname]
  obtain ⟨links, happend⟩ := walkFrom_append fs linkLimit
    (if Path.isAbsolute path then 0 else fs.workingDirectory)
    ((Path.pieces path).filter (· ≠ "")) (List.cons_ne_nil name [])
  rw [walkFrom_names hwalk] at happend
  refine ⟨links, ?_⟩
  unfold locate
  rw [if_neg (by simpa using Path.nul_join hnul hname),
    if_neg (by simpa using Path.join_ne_empty path hname.ne_empty),
    if_neg (Nat.not_le.2 hpath), Path.isAbsolute_join hempty, hsteps]
  exact happend

/-- An entry of the directory at a path is at the path that its name leads to. -/
theorem resolve_join {path name : String} {id child : NodeId} (h : fs.resolve path = .ok id)
    (hname : Path.IsName name) (hshort : name.utf8ByteSize ≤ nameLimit)
    (hentry : (name, child) ∈ fs.entries id)
    (hlink : ∀ target, fs.node? child ≠ some (.link target))
    (hpath : (Path.join path name).utf8ByteSize < pathLimit) :
    fs.resolve (Path.join path name) = .ok child := by
  obtain ⟨links, hlocate⟩ := locate_join h hname hpath
  unfold resolve
  rw [hlocate, walkFrom_entry hname hshort hentry hlink]

theorem steps_name {name : String} (h : Path.IsName name) : steps name = [name] := by
  have hpieces : Path.pieces name = [name] := by
    unfold Path.pieces
    rw [Path.splitAt_of_not_mem h.separator]
    simp
  unfold steps
  rw [if_neg fun hlast => h.separator (List.mem_of_getLast? hlast), hpieces]
  simp [h.ne_empty]

/-- A link to a name that its directory does not have leads nowhere. -/
theorem resolve_dangling {path name target : String} {id child : NodeId}
    (h : fs.resolve path = .ok id) (hname : Path.IsName name)
    (hshort : name.utf8ByteSize ≤ nameLimit) (hentry : (name, child) ∈ fs.entries id)
    (hlink : fs.node? child = some (.link target)) (htarget : Path.IsName target)
    (hmissing : ∀ c, (target, c) ∉ fs.entries id)
    (hpath : (Path.join path name).utf8ByteSize < pathLimit) :
    ∃ e, fs.resolve (Path.join path name) = .error e := by
  obtain ⟨links, hlocate⟩ := locate_join h hname hpath
  obtain ⟨parent, entries, hnode, hfind⟩ := mem_entries_iff.1 hentry
  have hnone : entries.find? target = none :=
    Option.eq_none_iff_forall_ne_some.2 fun c hc =>
      hmissing c (mem_entries_iff.2 ⟨parent, entries, hnode, hc⟩)
  have hrelative : Path.isAbsolute target = false := by
    unfold Path.isAbsolute
    rw [beq_eq_false_iff_ne]
    exact fun hhead => htarget.separator (List.mem_of_mem_head? hhead)
  unfold resolve
  rw [hlocate, walkFrom, hnode]
  dsimp only
  rw [if_neg hname.ne_current, if_neg hname.ne_parent, if_neg (Nat.not_lt.2 hshort), hfind]
  dsimp only
  rw [hlink]
  dsimp only
  rw [if_neg (by simp)]
  cases links with
  | zero => exact ⟨_, rfl⟩
  | succ links =>
    dsimp only
    rw [if_neg (by simpa using htarget.ne_empty), hrelative, if_neg Bool.false_ne_true,
      steps_name htarget, List.append_nil, walkFrom, hnode]
    dsimp only
    rw [if_neg htarget.ne_current, if_neg htarget.ne_parent, hnone]
    by_cases hlong : nameLimit < target.utf8ByteSize
    · rw [if_pos hlong]
      exact ⟨_, rfl⟩
    · rw [if_neg hlong]
      exact ⟨_, rfl⟩

/-- **The path that names lead to names the node they lead to.** -/
theorem resolve_joinAll {path : String} {top id : NodeId} {names : List String}
    (h : fs.resolve path = .ok top) (ht : IsTree fs top) (hr : Readable fs path top)
    (hreach : Reaches fs top names id) : fs.resolve (Path.joinAll path names) = .ok id := by
  induction hreach generalizing path with
  | here => exact h
  | @down top child target name names hentry _ ih =>
    have hchild : Reaches fs top [name] child := .down hentry (.here _)
    obtain ⟨hname, hshort⟩ := ht.name (.here _) hentry
    exact ih (resolve_join h hname hshort hentry (ht.not_link hchild) (hr _ _ hchild))
      (ht.below hchild) (hr.below hchild)

end FileSystem

end Splittable
