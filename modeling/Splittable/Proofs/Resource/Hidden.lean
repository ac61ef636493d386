import Splittable.Proofs.FileSystem.Unseen
import Splittable.Proofs.Resource.Listing

/-!
# Hidden entries and listings

An entry with a hidden name is put somewhere.  No listing gains a file by it, and a listing stays
as it is unless one of its walks meets a fault at the entry or below it: links are followed before
names are looked at, and a walk for patterns passes through directories that are less deep than the
last pattern.

* `Listing.start`, `matched`    where a listing begins, and what its patterns find;
* `Listing.Hinders`             a listing meets a fault at an entry or below it;
* `Hinders.resolve_ne`          then it fails;
* `Hinders.link_or_directory`   only links do that, and directories that patterns pass through;
* `ofDirectory_grown`, `ofGlob_grown`   otherwise a directory and a pattern list what they listed;
* `Listing.resolve_hidden_iff`  a hidden entry changes a listing exactly where it hinders it.
-/

namespace Splittable.Listing

open FileSystem

variable {fs after : FileSystem} {directory child : NodeId} {name : String} {recursive : Bool}

/-! ## where a listing meets a fault -/

/-- the directory that a listing begins at: the path itself, or what stands before the first
pattern -/
def start (path : String) : String := if Glob.hasMeta path then (splitGlob path).1 else path

/-- the entries that match a pattern, up to the first fault -/
def matched (fs : FileSystem) (pattern : String) : List Walk.Entry :=
  ((globWalk (splitGlob pattern).2.length).run fs (splitGlob pattern).1).1.filter fun e =>
    namesMatch e.names (splitGlob pattern).2

/-- One of the walks of a listing meets a fault at an entry or below it: the walk of a directory,
the walk that patterns take, or the walk of a directory that they match. -/
inductive Hinders (fs : FileSystem) (recursive : Bool) (path : String) (step : NodeId × String) :
    Prop
  | directory (hplain : Glob.hasMeta path = false)
      (htrips : (directoryWalk recursive).Trips fs path step)
  | glob (hmeta : Glob.hasMeta path = true)
      (htrips : (globWalk (splitGlob path).2.length).Trips fs (splitGlob path).1 step)
  | below {entry : Walk.Entry} (hmeta : Glob.hasMeta path = true) (hentry : entry ∈ matched fs path)
      (hdirectory : fs.isDirectory entry.node = true)
      (htrips : (directoryWalk recursive).Trips fs entry.path step)

theorem visible_hidden (hhidden : Resource.isHidden name = true) :
    (directoryWalk recursive).visible name = false := by
  simp [directoryWalk, hhidden]

/-- **A hidden file hinders no listing, and a hidden directory only a pattern that passes through
it.** -/
theorem Hinders.link_or_directory {path : String}
    (h : Hinders fs recursive path (directory, name))
    (hentry : (name, child) ∈ fs.entries directory) (hhidden : Resource.isHidden name = true) :
    (∃ target, fs.node? child = some (.link target)) ∨
      (fs.isDirectory child = true ∧ Glob.hasMeta path = true ∧ 1 < (splitGlob path).2.length) := by
  have hdir : ∀ {path : String}, (directoryWalk recursive).Trips fs path (directory, name) →
      ∃ target, fs.node? child = some (.link target) := fun h =>
    (h.link_or_directory hentry (visible_hidden hhidden)).resolve_right
      fun h => Nat.lt_irrefl 1 h.2
  cases h with
  | directory _ htrips => exact .inl (hdir htrips)
  | glob hmeta htrips =>
    exact (htrips.link_or_directory hentry (by simp [globWalk, hhidden])).imp_right
      fun h => ⟨h.1, hmeta, h.2⟩
  | below _ _ _ htrips => exact .inl (hdir htrips)

/-! ## a directory -/

theorem ofDirectory_quiet {path : String} {files : List FileStatus}
    (h : ofDirectory fs path recursive = .ok files) :
    ((directoryWalk recursive).run fs path).2 = none := by
  unfold ofDirectory at h
  dsimp only at h
  rw [← directoryWalk] at h
  obtain ⟨found, -, hend⟩ := bind_ok h
  split at hend
  · cases hend
  · assumption

theorem status_grown (ha : Adds fs after directory name child) {entry : Walk.Entry}
    (h : entry.node < fs.nodes.size) : status after entry = status fs entry := by
  unfold status
  rw [ha.size_eq h]

theorem mapM_status_grown (ha : Adds fs after directory name child) {entries : List Walk.Entry}
    (h : ∀ entry ∈ entries, entry.node < fs.nodes.size) :
    entries.mapM (status after) = entries.mapM (status fs) := by
  induction entries with
  | nil => rfl
  | cons entry rest ih =>
    rw [List.mapM_cons, List.mapM_cons, status_grown ha (h entry List.mem_cons_self),
      ih fun e he => h e (List.mem_cons_of_mem _ he)]

theorem filter_directories_grown (ha : Adds fs after directory name child)
    {entries : List Walk.Entry} (h : ∀ entry ∈ entries, entry.node < fs.nodes.size) :
    (entries.filter fun e => !after.isDirectory e.node) =
      entries.filter fun e => !fs.isDirectory e.node :=
  List.filter_congr fun entry hentry => by rw [ha.isDirectory_eq (h entry hentry)]

/-- What a walk finds is there. -/
theorem node_lt_of_mem_run (hw : WellFormed fs) {walk : Walk} {path : String} {entry : Walk.Entry}
    (h : entry ∈ (walk.run fs path).1) :
    entry.node < fs.nodes.size ∧
      ((∃ id, fs.resolve entry.path = .ok id) ∨ pathLimit ≤ entry.path.utf8ByteSize) := by
  rw [Walk.run_eq] at h
  obtain ⟨e, he, hanswer⟩ := Walk.mem_upTo h
  obtain ⟨id, hpath, hmeets⟩ := Walk.meets_of_mem_events he hanswer
  obtain ⟨hlt, hresolve⟩ := hmeets.resolve_eq hw hpath hanswer
  refine ⟨hlt, ?_⟩
  rcases Nat.lt_or_ge entry.path.utf8ByteSize pathLimit with hshort | hlong
  · exact .inl ⟨_, hresolve hshort⟩
  · exact .inr hlong

/-- **A directory lists what it listed** where its walk does not trip at the new entry. -/
theorem ofDirectory_grown (ha : Adds fs after directory name child) (hw : WellFormed fs)
    (hhidden : Resource.isHidden name = true) {path : String}
    (hpath : (∃ id, fs.resolve path = .ok id) ∨ pathLimit ≤ path.utf8ByteSize)
    (hlinks : KeepsLinks fs after ∨ ∃ files, ofDirectory fs path recursive = .ok files)
    (htrips : ¬(directoryWalk recursive).Trips after path (directory, name)) :
    ofDirectory after path recursive = ofDirectory fs path recursive := by
  have hrun : (directoryWalk recursive).run after path = (directoryWalk recursive).run fs path := by
    have hevents := Walk.events_grown (directoryWalk recursive) ha hw hpath
      (hlinks.imp_right fun ⟨files, hfiles⟩ =>
        Walk.upTo_quiet_iff.1 (Walk.run_eq _ fs path ▸ ofDirectory_quiet hfiles))
    -- nothing is met at the new entry: no fault, and no entry as its name is hidden
    have hnone : ∀ e ∈ (directoryWalk recursive).events after path, (directory, name) ∉ e.way := by
      intro e he hstep
      obtain ⟨entry, hanswer⟩ :=
        Walk.Event.not_ends_iff.1 fun hends => htrips ⟨e, he, hstep, hends⟩
      obtain ⟨id, -, hmeets⟩ := Walk.meets_of_mem_events he hanswer
      rcases hmeets.visible (Nat.le_refl 1) hanswer hstep with hmem | hvisible
      · cases hmem
      · rw [visible_hidden hhidden] at hvisible
        cases hvisible
    rw [Walk.run_eq, Walk.run_eq, hevents,
      List.filter_eq_self.2 fun e he => by simpa using hnone e he]
  have hnodes : ∀ entry ∈ ((directoryWalk recursive).run fs path).1,
      entry.node < fs.nodes.size := fun entry h => (node_lt_of_mem_run hw h).1
  unfold ofDirectory
  dsimp only
  rw [← directoryWalk, hrun]
  rcases hfound : (directoryWalk recursive).run fs path with ⟨entries, fault⟩
  rw [hfound] at hnodes
  dsimp only at hnodes ⊢
  rw [filter_directories_grown ha hnodes,
    mapM_status_grown ha fun entry h => hnodes entry (List.mem_filter.1 h).1]

/-! ## patterns -/

theorem namesMatch_hidden {names patterns : List String} (hname : name ∈ names)
    (hhidden : Resource.isHidden name = true) (hlength : names.length ≤ patterns.length) :
    namesMatch names patterns = false := by
  induction names generalizing patterns with
  | nil => cases hname
  | cons first names ih =>
    cases patterns with
    | nil => cases hlength
    | cons pattern patterns =>
      rw [namesMatch]
      rcases List.mem_cons.1 hname with rfl | hmem
      · simp [hhidden]
      · simp [ih hmem (Nat.le_of_succ_le_succ hlength)]

theorem filesOf_cons_ok {entry : Walk.Entry} {rest : List Walk.Entry} {files : List FileStatus}
    (h : filesOf fs recursive (entry :: rest) = .ok files) :
    (fs.isDirectory entry.node = true → ∃ here, ofDirectory fs entry.path recursive = .ok here) ∧
      ∃ more, filesOf fs recursive rest = .ok more := by
  rw [filesOf] at h
  split at h
  · obtain ⟨here, hhere, h⟩ := bind_ok h
    obtain ⟨more, hmore, -⟩ := bind_ok h
    exact ⟨fun _ => ⟨here, hhere⟩, more, hmore⟩
  · rename_i hfile
    obtain ⟨_, -, h⟩ := bind_ok h
    obtain ⟨more, hmore, -⟩ := bind_ok h
    exact ⟨fun hdirectory => (hfile hdirectory).elim, more, hmore⟩

theorem exists_ofDirectory_of_filesOf {entries : List Walk.Entry} {files : List FileStatus}
    (h : filesOf fs recursive entries = .ok files) {entry : Walk.Entry} (hentry : entry ∈ entries)
    (hdirectory : fs.isDirectory entry.node = true) :
    ∃ here, ofDirectory fs entry.path recursive = .ok here := by
  induction entries generalizing files with
  | nil => cases hentry
  | cons first rest ih =>
    obtain ⟨hhere, more, hmore⟩ := filesOf_cons_ok h
    rcases List.mem_cons.1 hentry with rfl | hmem
    · exact hhere hdirectory
    · exact ih hmore hmem

theorem filesOf_grown (ha : Adds fs after directory name child) (hw : WellFormed fs)
    (hhidden : Resource.isHidden name = true) {entries : List Walk.Entry}
    (hentries : ∀ entry ∈ entries, entry.node < fs.nodes.size ∧
      ((∃ id, fs.resolve entry.path = .ok id) ∨ pathLimit ≤ entry.path.utf8ByteSize))
    (hlinks : KeepsLinks fs after ∨ ∃ files, filesOf fs recursive entries = .ok files)
    (htrips : ∀ entry ∈ entries, after.isDirectory entry.node = true →
      ¬(directoryWalk recursive).Trips after entry.path (directory, name)) :
    filesOf after recursive entries = filesOf fs recursive entries := by
  induction entries with
  | nil => rfl
  | cons entry rest ih =>
    obtain ⟨hlt, hpath⟩ := hentries entry List.mem_cons_self
    have hmore := ih (fun e he => hentries e (List.mem_cons_of_mem _ he))
      (hlinks.imp_right fun ⟨_, hfiles⟩ => (filesOf_cons_ok hfiles).2)
      fun e he => htrips e (List.mem_cons_of_mem _ he)
    have hdirectory := ha.isDirectory_eq hlt
    rw [filesOf, filesOf, hmore, hdirectory]
    cases hkind : fs.isDirectory entry.node with
    | true =>
      rw [if_pos rfl, if_pos rfl, ofDirectory_grown ha hw hhidden hpath
        (hlinks.imp_right fun ⟨_, hfiles⟩ => (filesOf_cons_ok hfiles).1 hkind)
        (htrips entry List.mem_cons_self (hdirectory.trans hkind))]
    | false =>
      rw [if_neg Bool.false_ne_true, if_neg Bool.false_ne_true, status_grown ha hlt]

theorem ofGlob_eq {pattern : String} (hbase : fs.isDirectoryAt (splitGlob pattern).1 = true) :
    ofGlob fs pattern recursive =
      filesOf fs recursive (matched fs pattern) >>= fun files =>
        match ((globWalk (splitGlob pattern).2.length).run fs (splitGlob pattern).1).2 with
        | some fault => .error fault
        | none => .ok files := by
  unfold ofGlob matched globWalk
  dsimp only
  rw [if_pos hbase]
  generalize Walk.run _ fs _ = found
  rfl

theorem ofGlob_ok {pattern : String} {files : List FileStatus}
    (hbase : fs.isDirectoryAt (splitGlob pattern).1 = true)
    (h : ofGlob fs pattern recursive = .ok files) :
    filesOf fs recursive (matched fs pattern) = .ok files ∧
      ((globWalk (splitGlob pattern).2.length).run fs (splitGlob pattern).1).2 = none := by
  rw [ofGlob_eq hbase] at h
  obtain ⟨found, hfound, hend⟩ := bind_ok h
  split at hend
  · cases hend
  · rename_i hquiet
    cases hend
    exact ⟨hfound, hquiet⟩

/-- **A pattern lists what it listed** where none of its walks trips at the new entry. -/
theorem ofGlob_grown (ha : Adds fs after directory name child) (hw : WellFormed fs)
    (hhidden : Resource.isHidden name = true) {pattern : String}
    (hmeta : Glob.hasMeta pattern = true)
    (hbase : fs.isDirectoryAt (splitGlob pattern).1 = true)
    (hlinks : KeepsLinks fs after ∨ ∃ files, ofGlob fs pattern recursive = .ok files)
    (hhinders : ¬Hinders after recursive pattern (directory, name)) :
    ofGlob after pattern recursive = ofGlob fs pattern recursive := by
  obtain ⟨top, htop, -⟩ := isDirectoryAt_iff.1 hbase
  obtain ⟨base', patterns', hcut⟩ := exists_isCut hmeta
  have hpos : 0 < (splitGlob pattern).2.length := by
    rw [(hcut.splitGlob_eq).1]
    exact List.length_pos_iff.2 hcut.splitGlob_eq.2
  have hevents := Walk.events_grown (globWalk (splitGlob pattern).2.length) ha hw
    (.inl ⟨top, htop⟩) (hlinks.imp_right fun ⟨files, hfiles⟩ =>
      Walk.upTo_quiet_iff.1 (Walk.run_eq _ fs _ ▸ (ofGlob_ok hbase hfiles).2))
  -- what is met at the new entry is no fault, and no pattern matches its names
  obtain ⟨hfault, hfound⟩ := Walk.upTo_filter (fun e => (directory, name) ∉ e.way)
    (fun entry => namesMatch entry.names (splitGlob pattern).2)
    ((globWalk (splitGlob pattern).2.length).events after (splitGlob pattern).1)
    fun e he hkeep => by
      have hstep : (directory, name) ∈ e.way := by simpa using hkeep
      obtain ⟨entry, hanswer⟩ :=
        Walk.Event.not_ends_iff.1 fun hends => hhinders (.glob hmeta ⟨e, he, hstep, hends⟩)
      obtain ⟨id, -, hmeets⟩ := Walk.meets_of_mem_events he hanswer
      refine ⟨entry, hanswer, ?_⟩
      rw [hmeets.names_eq hanswer]
      refine namesMatch_hidden (List.mem_map_of_mem (f := Prod.snd) hstep) hhidden ?_
      rw [List.length_map]
      exact hmeets.length_le rfl hpos
  rw [← hevents, ← Walk.run_eq, ← Walk.run_eq] at hfault hfound
  have hmatched : matched after pattern = matched fs pattern := hfound.symm
  have hfiles : filesOf after recursive (matched fs pattern) =
      filesOf fs recursive (matched fs pattern) := by
    refine filesOf_grown ha hw hhidden
      (fun entry h => node_lt_of_mem_run hw (List.mem_filter.1 h).1)
      (hlinks.imp_right fun ⟨files, hfiles⟩ => ⟨files, (ofGlob_ok hbase hfiles).1⟩)
      fun entry hentry hdirectory htrips => hhinders (.below hmeta ?_ hdirectory htrips)
    rw [hmatched]
    exact hentry
  rw [ofGlob_eq hbase, ofGlob_eq (ha.isDirectoryAt hw hbase), hmatched, hfiles, hfault]

/-! ## whole listings -/

/-- the files of a directory or of a pattern, before they are put in order -/
def found (fs : FileSystem) (path : String) (recursive : Bool) : Except Fault (List FileStatus) :=
  if Glob.hasMeta path then ofGlob fs path recursive else ofDirectory fs path recursive

theorem resolve_found {resource : String} (hlocal : Resource.isRemote resource = false)
    (hstart : fs.isDirectoryAt (start (Resource.localPart resource)) = true) :
    Listing.resolve fs resource recursive =
      (found fs (Resource.localPart resource) recursive).map
        fun files => distinct (files.mergeSort fun a b => Path.le a.path b.path) := by
  unfold start at hstart
  unfold found
  cases hmeta : Glob.hasMeta (Resource.localPart resource) with
  | true =>
    rw [if_pos rfl]
    exact resolve_glob hlocal rfl hmeta
  | false =>
    rw [hmeta, if_neg Bool.false_ne_true] at hstart
    rw [if_neg Bool.false_ne_true]
    obtain ⟨top, htop, hdirectory⟩ := isDirectoryAt_iff.1 hstart
    exact resolve_directory hlocal rfl hmeta htop hdirectory

theorem resolve_remote {resource : String} (h : Resource.isRemote resource = true) :
    Listing.resolve fs resource recursive =
      .error (.of .unsupported s!"remote resource cannot be listed locally: {resource}") := by
  unfold Listing.resolve
  rw [h]
  rfl

theorem Hinders.found_ne {path : String} {step : NodeId × String}
    (h : Hinders fs recursive path step) (hstart : fs.isDirectoryAt (start path) = true)
    (files : List FileStatus) : found fs path recursive ≠ .ok files := by
  unfold start at hstart
  unfold found
  intro hfiles
  cases h with
  | directory hplain htrips =>
    rw [hplain, if_neg Bool.false_ne_true] at hfiles
    exact htrips.run_ne (ofDirectory_quiet hfiles)
  | glob hmeta htrips =>
    rw [hmeta, if_pos rfl] at hfiles hstart
    exact htrips.run_ne (ofGlob_ok hstart hfiles).2
  | below hmeta hentry hdirectory htrips =>
    rw [hmeta, if_pos rfl] at hfiles hstart
    obtain ⟨here, hhere⟩ :=
      exists_ofDirectory_of_filesOf (ofGlob_ok hstart hfiles).1 hentry hdirectory
    exact htrips.run_ne (ofDirectory_quiet hhere)

/-- **A listing that meets a fault at an entry fails.** -/
theorem Hinders.resolve_ne {resource : String} {step : NodeId × String}
    (h : Hinders fs recursive (Resource.localPart resource) step)
    (hstart : fs.isDirectoryAt (start (Resource.localPart resource)) = true)
    (files : List FileStatus) : Listing.resolve fs resource recursive ≠ .ok files := by
  intro hfiles
  cases hlocal : Resource.isRemote resource with
  | true =>
    rw [resolve_remote hlocal] at hfiles
    cases hfiles
  | false =>
    rw [resolve_found hlocal hstart] at hfiles
    cases hfound : found fs (Resource.localPart resource) recursive with
    | error fault => rw [hfound] at hfiles; cases hfiles
    | ok some => exact h.found_ne hstart some hfound

theorem found_grown (ha : Adds fs after directory name child) (hw : WellFormed fs)
    (hhidden : Resource.isHidden name = true) {path : String}
    (hstart : fs.isDirectoryAt (start path) = true)
    (hlinks : KeepsLinks fs after ∨ ∃ files, found fs path recursive = .ok files)
    (hhinders : ¬Hinders after recursive path (directory, name)) :
    found after path recursive = found fs path recursive := by
  unfold start at hstart
  unfold found at hlinks ⊢
  cases hmeta : Glob.hasMeta path with
  | true =>
    rw [hmeta, if_pos rfl] at hstart hlinks
    rw [if_pos rfl, if_pos rfl]
    exact ofGlob_grown ha hw hhidden hmeta hstart hlinks hhinders
  | false =>
    rw [hmeta, if_neg Bool.false_ne_true] at hstart hlinks
    rw [if_neg Bool.false_ne_true, if_neg Bool.false_ne_true]
    obtain ⟨top, htop, -⟩ := isDirectoryAt_iff.1 hstart
    exact ofDirectory_grown ha hw hhidden (.inl ⟨top, htop⟩) hlinks
      fun htrips => hhinders (.directory hmeta htrips)

/-- **A hidden entry changes a listing exactly where it hinders it.**  A listing without faults
stays the same unless one of its walks meets a fault at the new entry or below it, and then it
fails.  A listing that had a fault keeps it, if no link that was there leads elsewhere and nothing
is met at the new entry.  Only a link can hinder a listing, or a directory that more than one
pattern passes through. -/
theorem resolve_hidden_iff {resource : String} (recursive : Bool)
    (ha : Adds fs after directory name child) (hw : WellFormed fs)
    (hhidden : Resource.isHidden name = true)
    (hstart : fs.isDirectoryAt (start (Resource.localPart resource)) = true) :
    (∀ files, Listing.resolve fs resource recursive = .ok files →
      (Listing.resolve after resource recursive = .ok files ↔
        ¬Hinders after recursive (Resource.localPart resource) (directory, name))) ∧
    (KeepsLinks fs after →
      ¬Hinders after recursive (Resource.localPart resource) (directory, name) →
      Listing.resolve after resource recursive = Listing.resolve fs resource recursive) ∧
    (Hinders after recursive (Resource.localPart resource) (directory, name) →
      (∃ target, after.node? child = some (.link target)) ∨
        (after.isDirectory child = true ∧ Glob.hasMeta (Resource.localPart resource) = true ∧
          1 < (splitGlob (Resource.localPart resource)).2.length)) := by
  have hafter := ha.isDirectoryAt hw hstart
  have hsame : (KeepsLinks fs after ∨ ∃ files, Listing.resolve fs resource recursive = .ok files) →
      ¬Hinders after recursive (Resource.localPart resource) (directory, name) →
      Listing.resolve after resource recursive = Listing.resolve fs resource recursive := by
    intro hlinks hhinders
    cases hlocal : Resource.isRemote resource with
    | true => rw [resolve_remote hlocal, resolve_remote hlocal]
    | false =>
      rw [resolve_found hlocal hstart] at hlinks ⊢
      rw [resolve_found hlocal hafter, found_grown ha hw hhidden hstart ?_ hhinders]
      refine hlinks.imp_right fun ⟨files, hfiles⟩ => ?_
      cases hfound : found fs (Resource.localPart resource) recursive with
      | error fault => rw [hfound] at hfiles; cases hfiles
      | ok some => exact ⟨some, rfl⟩
  refine ⟨fun files hfiles => ⟨fun hok hhinders => hhinders.resolve_ne hafter files hok,
    fun hhinders => ?_⟩, fun hkeeps hhinders => hsame (.inl hkeeps) hhinders,
    fun hhinders => hhinders.link_or_directory ?_ hhidden⟩
  · rw [hsame (.inr ⟨files, hfiles⟩) hhinders, hfiles]
  · obtain ⟨front, back, -, hentries, -⟩ := ha.exists_entries
    rw [hentries]
    exact List.mem_append_right _ List.mem_cons_self

theorem wellFormed_shelf : WellFormed shelf := by
  refine wellFormed_of_rising rfl rfl (fun id parent entries h => ?_) fun id name child h => ?_
  · rcases id with _ | _ | _ | _ | _ | _ | id <;> cases h <;> decide
  · have hall : ∀ e ∈ [(0, "d", 1), (1, ".h", 2), (1, "b", 3), (1, "e", 4), (4, "c", 5)],
        e.1 < e.2.2 ∧ e.2.2 < 6 ∧ Path.IsName e.2.1 ∧ e.2.1.utf8ByteSize ≤ nameLimit := by decide
    exact hall _ (mem_entries_shelf h)

theorem keepsLinks_shelf (after : FileSystem) : KeepsLinks shelf after := by
  intro path id name child target _ hentry hlink
  have hmem := mem_entries_shelf hentry
  simp only [List.mem_cons, Prod.mk.injEq, List.not_mem_nil, or_false] at hmem
  obtain ⟨-, -, rfl⟩ | ⟨-, -, rfl⟩ | ⟨-, -, rfl⟩ | ⟨-, -, rfl⟩ | ⟨-, -, rfl⟩ := hmem <;> cases hlink

theorem exists_resolve_shelf (recursive : Bool) :
    ∃ files, Listing.resolve shelf "/d" recursive = .ok files := by
  obtain ⟨files, hfiles, -⟩ := exists_ofDirectory recursive resolve_shelf rfl isTree_shelf
    (isTree_shelf.readable (by decide))
  have hpath : Resource.localPart "/d" = "/d" := by decide
  rw [resolve_directory (by decide) hpath (by decide) resolve_shelf rfl, hfiles]
  exact ⟨_, rfl⟩

/-- the directory with a mark that it is complete -/
def shelfMarked : FileSystem := shelf.addEntry 1 "_SUCCESS" (.file ⟨#[]⟩)

/-- The mark is not seen, in a listing of all that is below the directory. -/
theorem resolve_hidden_iff_marked :
    Adds shelf shelfMarked 1 "_SUCCESS" 6 ∧ WellFormed shelf ∧
      Resource.isHidden "_SUCCESS" = true ∧
      shelf.isDirectoryAt (start (Resource.localPart "/d")) = true ∧
      KeepsLinks shelf shelfMarked ∧
      ¬Hinders shelfMarked true (Resource.localPart "/d") (1, "_SUCCESS") ∧
      Listing.resolve shelfMarked "/d" true = Listing.resolve shelf "/d" true ∧
      ∃ files, Listing.resolve shelf "/d" true = .ok files ∧
        Listing.resolve shelfMarked "/d" true = .ok files := by
  have ha : Adds shelf shelfMarked 1 "_SUCCESS" 6 := adds_addEntry rfl (by decide) _
  have hstart : shelf.isDirectoryAt (start (Resource.localPart "/d")) = true :=
    isDirectoryAt_iff.2 ⟨1, resolve_shelf, rfl⟩
  obtain ⟨hok, hkept, honly⟩ := resolve_hidden_iff true ha wellFormed_shelf (by decide) hstart
  have hhinders : ¬Hinders shelfMarked true (Resource.localPart "/d") (1, "_SUCCESS") := by
    intro h
    rcases honly h with ⟨target, hlink⟩ | ⟨hdirectory, -⟩
    · cases hlink
    · cases hdirectory
  obtain ⟨files, hfiles⟩ := exists_resolve_shelf true
  exact ⟨ha, wellFormed_shelf, by decide, hstart, keepsLinks_shelf _, hhinders,
    hkept (keepsLinks_shelf _) hhinders, files, hfiles, (hok files hfiles).2 hhinders⟩

/-- **A hidden link to a missing name makes the listing of its directory fail.** -/
theorem hinders_of_dangling {path target : String} (hplain : Glob.hasMeta path = false)
    (hpath : fs.resolve path = .ok directory) (hentry : (name, child) ∈ fs.entries directory)
    (hname : Path.IsName name) (hshort : name.utf8ByteSize ≤ nameLimit)
    (hlink : fs.node? child = some (.link target)) (htarget : Path.IsName target)
    (hmissing : ∀ c, (target, c) ∉ fs.entries directory)
    (hreadable : (Path.join path name).utf8ByteSize < pathLimit) :
    Hinders fs recursive path (directory, name) := by
  obtain ⟨fault, hfault⟩ :=
    resolve_dangling hpath hname hshort hentry hlink htarget hmissing hreadable
  exact .directory hplain (Walk.trips_of_lost hpath hentry hlink hfault)

/-- the directory with a lock as editors leave it, a link that names no file -/
def shelfLocked : FileSystem := shelf.addEntry 1 ".b" (.link "nowhere")

/-- The hidden link is not skipped: the listing fails at it. -/
theorem listing_lost_locked :
    Adds shelf shelfLocked 1 ".b" 6 ∧ WellFormed shelf ∧ Resource.isHidden ".b" = true ∧
      shelf.isDirectoryAt (start (Resource.localPart "/d")) = true ∧
      (∃ files, Listing.resolve shelf "/d" false = .ok files) ∧
      ∀ files, Listing.resolve shelfLocked "/d" false ≠ .ok files := by
  have ha : Adds shelf shelfLocked 1 ".b" 6 := adds_addEntry rfl (by decide) _
  have hstart : shelf.isDirectoryAt (start (Resource.localPart "/d")) = true :=
    isDirectoryAt_iff.2 ⟨1, resolve_shelf, rfl⟩
  have hentries : shelfLocked.entries 1 = [(".b", 6), (".h", 2), ("b", 3), ("e", 4)] := by decide
  have hhinders : Hinders shelfLocked false (Resource.localPart "/d") (1, ".b") := by
    have hlink : shelfLocked.node? 6 = some (.link "nowhere") := rfl
    refine hinders_of_dangling (by decide) (ha.resolve_eq wellFormed_shelf resolve_shelf)
      (by rw [hentries]; exact List.mem_cons_self) (by decide) (by decide) hlink (by decide)
      (fun c hc => ?_) (by decide)
    rw [hentries] at hc
    simp at hc
  exact ⟨ha, wellFormed_shelf, by decide, hstart, exists_resolve_shelf false,
    hhinders.resolve_ne (ha.isDirectoryAt wellFormed_shelf hstart)⟩

end Splittable.Listing
