import Splittable.Proofs.FileSystem.Tree

/-!
# A file system with one more entry

An entry is put into a directory: a file, a link, or a directory with whatever it holds.  What was
there before is still there, and every path that led somewhere leads there still.

* `FileSystem.WellFormed`      entries and parents are nodes, names are names, nothing is below
  itself;
* `FileSystem.Adds`            one more entry, and whatever nodes it brings with it;
* `FileSystem.adds_addEntry`   a node of its own under a new name is one;
* `WellFormed.addEntry`        a leaf under a new name keeps a system well-formed;
* `Adds.exists_entries`, `entries_eq`   where the entry stands, and the entries of the others;
* `Adds.resolve_eq`            paths that led to a node lead to it;
* `FileSystem.KeepsLinks`      links that led nowhere lead nowhere still.
-/

namespace Splittable.FileSystem

variable {fs after : FileSystem} {directory child : NodeId} {name : String}

/-! ## well-formed systems -/

/-- The root and the working directory are directories, what directories refer to is there, names
are names, and no directory is below itself. -/
structure WellFormed (fs : FileSystem) : Prop where
  root : fs.isDirectory 0 = true
  workingDirectory : fs.isDirectory fs.workingDirectory = true
  parent {id parent : NodeId} {entries : Table NodeId}
    (h : fs.node? id = some (.directory parent entries)) : parent < fs.nodes.size
  child {id child : NodeId} {name : String} (h : (name, child) ∈ fs.entries id) :
    child < fs.nodes.size
  name {id child : NodeId} {name : String} (h : (name, child) ∈ fs.entries id) :
    Path.IsName name ∧ name.utf8ByteSize ≤ nameLimit
  acyclic {id : NodeId} {names : List String} (h : Reaches fs id names id) : names = []

theorem lt_size {id : NodeId} {node : Node} (h : fs.node? id = some node) : id < fs.nodes.size :=
  (Array.getElem?_eq_some_iff.1 h).1

theorem isDirectory_iff {id : NodeId} :
    fs.isDirectory id = true ↔
      ∃ parent entries, fs.node? id = some (.directory parent entries) := by
  unfold isDirectory
  split
  · simp [*]
  · simp_all

theorem isDirectoryAt_iff {path : String} :
    fs.isDirectoryAt path = true ↔ ∃ id, fs.resolve path = .ok id ∧ fs.isDirectory id = true := by
  unfold isDirectoryAt
  cases fs.resolve path <;> simp

theorem lt_size_of_isDirectory {id : NodeId} (h : fs.isDirectory id = true) :
    id < fs.nodes.size := by
  obtain ⟨parent, entries, hnode⟩ := isDirectory_iff.1 h
  exact lt_size hnode

/-- What a path leads to is there. -/
theorem WellFormed.walkFrom_lt (hw : WellFormed fs) {follow : Bool} {links : Nat}
    {current id : NodeId} {names : List String} (hcurrent : current < fs.nodes.size)
    (h : walkFrom fs follow links current names = .ok (.node id)) : id < fs.nodes.size := by
  have hchild : ∀ {current parent c : NodeId} {n : String} {entries : Table NodeId},
      fs.node? current = some (.directory parent entries) → entries.find? n = some c →
      c < fs.nodes.size := fun hnode hfind => hw.child (mem_entries_iff.2 ⟨_, _, hnode, hfind⟩)
  fun_induction walkFrom fs follow links current names with
  | case1 links current => cases h; exact hcurrent
  | case2 links current rest parent entries hnode ih => exact ih hcurrent h
  | case3 links current rest parent entries hnode hdot ih => exact ih (hw.parent hnode) h
  | case4 | case5 | case6 | case8 | case9 | case12 => cases h
  | case7 links current n rest parent entries hnode hdot hdots hlong c hfind target hlink hlast =>
    cases h
    exact hchild hnode hfind
  | case10 current n rest parent entries hnode hdot hdots hlong c hfind target hlink hlast links
      hempty ih =>
    refine ih ?_ h
    split
    · exact lt_size_of_isDirectory hw.root
    · exact hcurrent
  | case11 links current n rest parent entries hnode hdot hdots hlong c hfind hlink ih =>
    exact ih (hchild hnode hfind) h

theorem WellFormed.resolve_lt (hw : WellFormed fs) {path : String} {id : NodeId}
    (h : fs.resolve path = .ok id) : id < fs.nodes.size := by
  obtain ⟨-, -, -, hwalk⟩ := resolve_eq_ok_iff.1 h
  refine hw.walkFrom_lt ?_ hwalk
  split
  · exact lt_size_of_isDirectory hw.root
  · exact lt_size_of_isDirectory hw.workingDirectory

/-- Where entries have higher numbers than their directory nothing is below itself. -/
theorem wellFormed_of_rising (hroot : fs.isDirectory 0 = true)
    (hworking : fs.isDirectory fs.workingDirectory = true)
    (hparent : ∀ id parent entries, fs.node? id = some (.directory parent entries) →
      parent < fs.nodes.size)
    (hentry : ∀ id name child, (name, child) ∈ fs.entries id → id < child ∧
      child < fs.nodes.size ∧ Path.IsName name ∧ name.utf8ByteSize ≤ nameLimit) :
    WellFormed fs := by
  have hrise : ∀ {id names target}, Reaches fs id names target → id + names.length ≤ target := by
    intro id names target h
    induction h with
    | here => exact Nat.le_refl _
    | down hmem _ ih =>
      rw [List.length_cons, ← Nat.add_assoc, Nat.add_right_comm]
      exact (Nat.add_le_add_right (hentry _ _ _ hmem).1 _).trans ih
  refine ⟨hroot, hworking, fun h => hparent _ _ _ h, fun h => (hentry _ _ _ h).2.1,
    fun h => (hentry _ _ _ h).2.2, fun h => List.length_eq_zero_iff.1 ?_⟩
  exact Nat.le_zero.1 (Nat.add_le_add_iff_left.1 (hrise h))

/-! ## one more entry -/

/-- A directory has one more entry.  What the entry stands for can be anything, and so can the
nodes that are new. -/
structure Adds (fs after : FileSystem) (directory : NodeId) (name : String) (child : NodeId) :
    Prop where
  workingDirectory : after.workingDirectory = fs.workingDirectory
  kept {id : NodeId} (hid : id < fs.nodes.size) (hne : id ≠ directory) :
    after.node? id = fs.node? id
  grown : ∃ parent entries, fs.node? directory = some (.directory parent entries) ∧
    entries.find? name = none ∧
    after.node? directory = some (.directory parent (entries.insert name child))

/-- A node of its own under a new name. -/
theorem adds_addEntry {parent : NodeId} {entries : Table NodeId}
    (hnode : fs.node? directory = some (.directory parent entries))
    (hfree : entries.find? name = none) (node : Node) :
    Adds fs (fs.addEntry directory name node) directory name fs.nodes.size := by
  have hlt := lt_size hnode
  have hadd : fs.addEntry directory name node =
      { fs with nodes := (fs.nodes.push node).setIfInBounds directory
                  (.directory parent (entries.insert name fs.nodes.size)) } := by
    unfold addEntry
    rw [hnode]
  rw [hadd]
  refine ⟨rfl, fun {id} hid hne => ?_, parent, entries, hnode, hfree, ?_⟩
  · unfold node?
    rw [Array.getElem?_setIfInBounds_ne (Ne.symm hne), Array.getElem?_push_lt hid,
      Array.getElem?_eq_getElem hid]
  · unfold node?
    rw [Array.getElem?_setIfInBounds_self_of_lt (by
      rw [Array.size_push]
      exact Nat.lt_succ_of_lt hlt)]

namespace Adds

theorem size_le (ha : Adds fs after directory name child) :
    fs.nodes.size ≤ after.nodes.size := by
  -- otherwise the last node of the system would be lost
  by_contra hlt
  have hid : after.nodes.size < fs.nodes.size := Nat.not_le.1 hlt
  have hnone : after.node? after.nodes.size = none :=
    Array.getElem?_eq_none_iff.2 (Nat.le_refl _)
  by_cases hne : after.nodes.size = directory
  · obtain ⟨_, _, -, -, hgrown⟩ := ha.grown
    rw [← hne, hnone] at hgrown
    cases hgrown
  · rw [ha.kept hid hne] at hnone
    exact absurd (Array.getElem?_eq_none_iff.1 hnone) (Nat.not_le.2 hid)

/-- A directory is still one, with all its entries. -/
theorem exists_directory (ha : Adds fs after directory name child) {id parent : NodeId}
    {entries : Table NodeId} (hnode : fs.node? id = some (.directory parent entries)) :
    ∃ entries', after.node? id = some (.directory parent entries') ∧
      ∀ n c, entries.find? n = some c → entries'.find? n = some c := by
  by_cases hne : id = directory
  · subst hne
    obtain ⟨_, _, hbefore, hfree, hgrown⟩ := ha.grown
    cases hnode.symm.trans hbefore
    refine ⟨_, hgrown, fun n c hfind => ?_⟩
    rw [Table.find?_insert, if_neg ?_, hfind]
    rintro rfl
    rw [hfree] at hfind
    cases hfind
  · exact ⟨entries, by rw [ha.kept (lt_size hnode) hne, hnode], fun _ _ h => h⟩

/-- What is no directory is as it was. -/
theorem node_eq (ha : Adds fs after directory name child) {id : NodeId}
    (hid : id < fs.nodes.size) (hdirectory : fs.isDirectory id = false) :
    after.node? id = fs.node? id := by
  refine ha.kept hid ?_
  rintro rfl
  obtain ⟨_, _, hnode, -⟩ := ha.grown
  rw [isDirectory_iff.2 ⟨_, _, hnode⟩] at hdirectory
  cases hdirectory

theorem isDirectory_eq (ha : Adds fs after directory name child) {id : NodeId}
    (hid : id < fs.nodes.size) : after.isDirectory id = fs.isDirectory id := by
  cases hdirectory : fs.isDirectory id with
  | true =>
    obtain ⟨parent, entries, hnode⟩ := isDirectory_iff.1 hdirectory
    obtain ⟨entries', hafter, -⟩ := ha.exists_directory hnode
    exact isDirectory_iff.2 ⟨_, _, hafter⟩
  | false =>
    unfold isDirectory at hdirectory ⊢
    rwa [ha.node_eq hid hdirectory]

theorem link_iff (ha : Adds fs after directory name child) {id : NodeId}
    (hid : id < fs.nodes.size) {target : String} :
    after.node? id = some (.link target) ↔ fs.node? id = some (.link target) := by
  cases hdirectory : fs.isDirectory id with
  | true =>
    obtain ⟨_, _, hnode⟩ := isDirectory_iff.1 hdirectory
    obtain ⟨_, hafter, -⟩ := ha.exists_directory hnode
    rw [hnode, hafter]
    exact ⟨nofun, nofun⟩
  | false => rw [ha.node_eq hid hdirectory]

theorem size_eq (ha : Adds fs after directory name child) {id : NodeId}
    (hid : id < fs.nodes.size) : after.size id = fs.size id := by
  unfold size
  cases hdirectory : fs.isDirectory id with
  | true =>
    obtain ⟨_, _, hnode⟩ := isDirectory_iff.1 hdirectory
    obtain ⟨_, hafter, -⟩ := ha.exists_directory hnode
    rw [hnode, hafter]
  | false => rw [ha.node_eq hid hdirectory]

/-- The new entry stands between those that were there, under a name of its own. -/
theorem exists_entries (ha : Adds fs after directory name child) :
    ∃ front back, fs.entries directory = front ++ back ∧
      after.entries directory = front ++ (name, child) :: back ∧
      ∀ item ∈ fs.entries directory, item.1 ≠ name := by
  obtain ⟨parent, entries, hnode, hfree, hgrown⟩ := ha.grown
  obtain ⟨front, back, hentries, hinsert⟩ := entries.exists_insert child hfree
  have hold : fs.entries directory = entries.entries := by
    unfold FileSystem.entries
    rw [hnode]
  refine ⟨front, back, by rw [hold, hentries], ?_, fun item hitem => ?_⟩
  · unfold FileSystem.entries
    rw [hgrown]
    exact hinsert
  · rintro rfl
    rw [hold] at hitem
    rw [(Table.find?_eq_some_iff _ _ _).2 hitem] at hfree
    cases hfree

theorem entries_eq (ha : Adds fs after directory name child) {id : NodeId}
    (hid : id < fs.nodes.size) (hne : id ≠ directory) : after.entries id = fs.entries id := by
  unfold FileSystem.entries
  rw [ha.kept hid hne]

/-- Steps that led to a node lead to it. -/
theorem walkFrom_eq (ha : Adds fs after directory name child) (hw : WellFormed fs) {follow : Bool}
    {links : Nat} {current id : NodeId} {names : List String}
    (h : walkFrom fs follow links current names = .ok (.node id)) :
    walkFrom after follow links current names = .ok (.node id) := by
  have hchild : ∀ {current parent c : NodeId} {n : String} {entries : Table NodeId},
      fs.node? current = some (.directory parent entries) → entries.find? n = some c →
      c < fs.nodes.size := fun hnode hfind => hw.child (mem_entries_iff.2 ⟨_, _, hnode, hfind⟩)
  fun_induction walkFrom fs follow links current names with
  | case1 links current => rw [walkFrom, h]
  | case2 links current rest parent entries hnode ih =>
    obtain ⟨_, hafter, -⟩ := ha.exists_directory hnode
    rw [walkFrom, hafter]
    exact ih h
  | case3 links current rest parent entries hnode hdot ih =>
    obtain ⟨_, hafter, -⟩ := ha.exists_directory hnode
    rw [walkFrom, hafter]
    exact ih h
  | case4 | case5 | case6 | case8 | case9 | case12 => cases h
  | case7 links current n rest parent entries hnode hdot hdots hlong c hfind target hlink hlast =>
    obtain ⟨_, hafter, hmore⟩ := ha.exists_directory hnode
    rw [walkFrom, hafter]
    dsimp only
    rw [if_neg hdot, if_neg hdots, if_neg hlong, hmore n c hfind]
    dsimp only
    rw [(ha.link_iff (hchild hnode hfind)).2 hlink]
    dsimp only
    rw [if_pos hlast, h]
  | case10 current n rest parent entries hnode hdot hdots hlong c hfind target hlink hlast links
      hempty ih =>
    obtain ⟨_, hafter, hmore⟩ := ha.exists_directory hnode
    rw [walkFrom, hafter]
    dsimp only
    rw [if_neg hdot, if_neg hdots, if_neg hlong, hmore n c hfind]
    dsimp only
    rw [(ha.link_iff (hchild hnode hfind)).2 hlink]
    dsimp only
    rw [if_neg hlast, if_neg hempty]
    exact ih h
  | case11 links current n rest parent entries hnode hdot hdots hlong c hfind hlink ih =>
    obtain ⟨_, hafter, hmore⟩ := ha.exists_directory hnode
    rw [walkFrom, hafter]
    dsimp only
    rw [if_neg hdot, if_neg hdots, if_neg hlong, hmore n c hfind]
    dsimp only
    split
    · rename_i target htarget
      exact (hlink target ((ha.link_iff (hchild hnode hfind)).1 htarget)).elim
    · exact ih h

/-- **A path that led to a node leads to it.** -/
theorem resolve_eq (ha : Adds fs after directory name child) (hw : WellFormed fs) {path : String}
    {id : NodeId} (h : fs.resolve path = .ok id) : after.resolve path = .ok id := by
  obtain ⟨hnul, hempty, hshort, hwalk⟩ := resolve_eq_ok_iff.1 h
  refine resolve_eq_ok_iff.2 ⟨hnul, hempty, hshort, ?_⟩
  rw [ha.workingDirectory]
  exact ha.walkFrom_eq hw hwalk

theorem isDirectoryAt (ha : Adds fs after directory name child) (hw : WellFormed fs)
    {path : String} (h : fs.isDirectoryAt path = true) : after.isDirectoryAt path = true := by
  obtain ⟨id, hid, hdirectory⟩ := isDirectoryAt_iff.1 h
  refine isDirectoryAt_iff.2 ⟨id, ha.resolve_eq hw hid, ?_⟩
  rw [ha.isDirectory_eq (hw.resolve_lt hid), hdirectory]

end Adds

/-! ## systems that grow -/

theorem wellFormed_empty : WellFormed empty := by
  refine wellFormed_of_rising rfl rfl (fun id parent entries h => ?_) fun id name child h => ?_
  · rcases id with _ | id
    · cases h
      decide
    · cases h
  · obtain ⟨parent, entries, hnode, hfind⟩ := mem_entries_iff.1 h
    rcases id with _ | id <;> cases hnode
    cases hfind

/-- A file, a link, or a directory that holds nothing. -/
def IsLeaf (fs : FileSystem) : Node → Prop
  | .file _ => True
  | .link _ => True
  | .directory parent entries => parent < fs.nodes.size ∧ entries = {}

section
variable {parent : NodeId} {entries : Table NodeId} {node : Node}

theorem addEntry_eq (name : String) (node : Node)
    (hnode : fs.node? directory = some (.directory parent entries)) :
    (fs.addEntry directory name node).nodes.size = fs.nodes.size + 1 ∧
      (fs.addEntry directory name node).node? fs.nodes.size = some node := by
  have hlt := lt_size hnode
  unfold addEntry node? at *
  rw [hnode]
  dsimp only
  refine ⟨by rw [Array.size_setIfInBounds, Array.size_push], ?_⟩
  rw [Array.getElem?_setIfInBounds_ne (Nat.ne_of_lt hlt), Array.getElem?_push_size]

theorem entries_of_leaf (hnode : fs.node? directory = some (.directory parent entries))
    (hleaf : IsLeaf fs node) : (fs.addEntry directory name node).entries fs.nodes.size = [] := by
  unfold FileSystem.entries
  rw [(addEntry_eq name node hnode).2]
  cases node with
  | file | link => rfl
  | directory =>
    obtain ⟨-, rfl⟩ := hleaf
    rfl

/-- The entries are those that were there, and the new one. -/
theorem mem_entries_addEntry (hnode : fs.node? directory = some (.directory parent entries))
    (hfree : entries.find? name = none) (hleaf : IsLeaf fs node) {id c : NodeId} {n : String}
    (h : (n, c) ∈ (fs.addEntry directory name node).entries id) :
    (n, c) ∈ fs.entries id ∨ (n = name ∧ c = fs.nodes.size) := by
  have ha := adds_addEntry hnode hfree node
  have hid := lt_size_of_isDirectory (isDirectory_of_mem_entries h)
  rw [(addEntry_eq name node hnode).1] at hid
  rcases Nat.lt_succ_iff_lt_or_eq.1 hid with hlt | rfl
  · by_cases hne : id = directory
    · subst hne
      obtain ⟨front, back, hbefore, hafter, -⟩ := ha.exists_entries
      rw [hafter] at h
      rw [hbefore]
      rcases List.mem_append.1 h with h | h
      · exact .inl (List.mem_append_left _ h)
      · rcases List.mem_cons.1 h with h | h
        · cases h
          exact .inr ⟨rfl, rfl⟩
        · exact .inl (List.mem_append_right _ h)
    · rw [ha.entries_eq hlt hne] at h
      exact .inl h
  · rw [entries_of_leaf hnode hleaf] at h
    cases h

/-- **A new leaf under a name that is free keeps a system well-formed.** -/
theorem WellFormed.addEntry (hw : WellFormed fs)
    (hnode : fs.node? directory = some (.directory parent entries))
    (hfree : entries.find? name = none) (hname : Path.IsName name)
    (hshort : name.utf8ByteSize ≤ nameLimit) (hleaf : IsLeaf fs node) :
    WellFormed (fs.addEntry directory name node) := by
  have ha := adds_addEntry hnode hfree node
  obtain ⟨hsize, hnew⟩ := addEntry_eq name node hnode
  have hmem : ∀ {id c : NodeId} {n : String},
      (n, c) ∈ (fs.addEntry directory name node).entries id →
      (n, c) ∈ fs.entries id ∨ (n = name ∧ c = fs.nodes.size) :=
    mem_entries_addEntry hnode hfree hleaf
  -- a way leads on from the new node to no other
  have hlast : ∀ {id target : NodeId} {names : List String},
      Reaches (fs.addEntry directory name node) id names target → id = fs.nodes.size →
      names = [] := by
    rintro id target names (_ | ⟨hentry, -⟩) rfl
    · rfl
    · rw [entries_of_leaf hnode hleaf] at hentry
      cases hentry
  have hreach : ∀ {id target : NodeId} {names : List String},
      Reaches (fs.addEntry directory name node) id names target →
      Reaches fs id names target ∨ target = fs.nodes.size := by
    intro id target names h
    induction h with
    | here id => exact .inl (.here id)
    | down hentry hrest ih =>
      rcases hmem hentry with hold | ⟨-, rfl⟩
      · exact ih.imp_left (.down hold)
      · obtain rfl := hlast hrest rfl
        exact .inr (reaches_nil.1 hrest)
  refine ⟨?_, ?_, fun {id p es} h => ?_, fun h => ?_, fun h => ?_, fun {id names} h => ?_⟩
  · rw [ha.isDirectory_eq (lt_size_of_isDirectory hw.root), hw.root]
  · rw [ha.workingDirectory, ha.isDirectory_eq (lt_size_of_isDirectory hw.workingDirectory),
      hw.workingDirectory]
  · rw [hsize]
    refine Nat.lt_succ_of_lt ?_
    have hid := lt_size h
    rw [hsize] at hid
    rcases Nat.lt_succ_iff_lt_or_eq.1 hid with hlt | rfl
    · by_cases hne : id = directory
      · subst hne
        obtain ⟨parent', entries', hbefore, -, hgrown⟩ := ha.grown
        cases hgrown.symm.trans h
        exact hw.parent hbefore
      · exact hw.parent ((ha.kept hlt hne).symm.trans h)
    · cases hnew.symm.trans h
      exact hleaf.1
  · rw [hsize]
    rcases hmem h with hold | ⟨-, rfl⟩
    · exact Nat.lt_succ_of_lt (hw.child hold)
    · exact Nat.lt_succ_self _
  · rcases hmem h with hold | ⟨rfl, -⟩
    · exact hw.name hold
    · exact ⟨hname, hshort⟩
  · rcases hreach h with hold | rfl
    · exact hw.acyclic hold
    · exact hlast h rfl

end

/-! ## links -/

/-- Every link leads where it led, or is refused as it was. -/
def KeepsLinks (fs after : FileSystem) : Prop :=
  ∀ path id name child target, fs.resolve path = .ok id → (name, child) ∈ fs.entries id →
    fs.node? child = some (.link target) →
    after.resolve (Path.join path name) = fs.resolve (Path.join path name)

end Splittable.FileSystem
