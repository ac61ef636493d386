import Splittable.Proofs.FileSystem.Walk
import Splittable.Resource.Listing
import Mathlib.Data.List.TakeWhile
import Mathlib.Data.List.Forall2

/-!
# What a listing holds

Where the tree below a directory can be read, a listing of the directory is exactly its visible
files, and a listing of a pattern is exactly the files that match it from its first pattern on,
with the listings of the directories that do.

* `Listing.FileAt`               a file at the names that lead to it;
* `Listing.InDirectory`          the visible files of a directory;
* `Listing.InGlob`, `IsCut`      the files that patterns lead to, and the patterns of a glob;
* `Listing.Lists`                a result that is these files, each once, in order;
* `Listing.lists_distinct`       files that are found are put in order;
* `Listing.exists_ofDirectory`, `exists_ofGlob`   what is found in a directory, and by patterns;
* `Listing.resolve_exactly`      what a listing holds.
-/

namespace Splittable.Listing

open FileSystem

variable {fs : FileSystem} {recursive : Bool}

/-! ## what is to be listed -/

/-- A file with its length, where names lead to it from the directory at `path`. -/
def FileAt (fs : FileSystem) (path : String) (top : NodeId) (names : List String)
    (file : FileStatus) : Prop :=
  ∃ id bytes, Reaches fs top names id ∧ fs.node? id = some (.file bytes) ∧
    file = ⟨Path.joinAll path names, bytes.size.toUInt64⟩

/-- A file of a directory, or of one below it where `recursive` says so, that no hidden name leads
to. -/
def InDirectory (fs : FileSystem) (recursive : Bool) (path : String) (top : NodeId)
    (file : FileStatus) : Prop :=
  ∃ names, FileAt fs path top names file ∧ (∀ name ∈ names, Resource.isHidden name = false) ∧
    (recursive = true ∨ names.length = 1)

/-- a visible name and the pattern that it matches -/
def Fits (name pattern : String) : Prop :=
  Resource.isHidden name = false ∧ Glob.matches pattern name = true

/-- A file that names lead to which match the patterns one to one, or a file of a directory that
they lead to. -/
def InGlob (fs : FileSystem) (recursive : Bool) (base : String) (patterns : List String)
    (top : NodeId) (file : FileStatus) : Prop :=
  ∃ names, List.Forall₂ Fits names patterns ∧
    (FileAt fs base top names file ∨
      ∃ id, Reaches fs top names id ∧ fs.isDirectory id = true ∧
        InDirectory fs recursive (Path.joinAll base names) id file)

/-- the directory that literal pieces at the front of a pattern name -/
def literalBase (pattern : String) (literal : List String) : String :=
  let base := String.intercalate "/" literal
  if base ≠ "" then base else if Path.isAbsolute pattern then "/" else "."

/-- A pattern is cut before the first of its pieces that is a pattern.  The pieces before make a
directory, and those from there on that are not empty are for the names below it. -/
def IsCut (pattern base : String) (patterns : List String) : Prop :=
  ∃ literal glob rest, Path.pieces pattern = literal ++ glob :: rest ∧
    (∀ piece ∈ literal, Glob.hasMeta piece = false) ∧ Glob.hasMeta glob = true ∧
    base = literalBase pattern literal ∧ patterns = (glob :: rest).filter (· ≠ "")

/-- Files are listed in the strict order of their paths, and they are the ones wanted. -/
def Lists (result : Except Fault (List FileStatus)) (wanted : FileStatus → Prop) : Prop :=
  ∃ files, result = .ok files ∧ files.Pairwise (fun a b => Path.Before a.path b.path) ∧
    ∀ file, file ∈ files ↔ wanted file

/-! ## files in order -/

theorem distinct_sublist (files : List FileStatus) : (distinct files).Sublist files := by
  fun_induction distinct files with
  | case1 a b rest hsame ih => exact ih.trans ((List.sublist_cons_self b rest).cons_cons a)
  | case2 a b rest hsame ih => exact ih.cons_cons a
  | case3 files => exact List.Sublist.refl _

theorem distinct_pairwise {files : List FileStatus}
    (h : files.Pairwise fun a b => Path.key a.path ≤ Path.key b.path) :
    (distinct files).Pairwise fun a b => Path.key a.path < Path.key b.path := by
  fun_induction distinct files with
  | case1 a b rest hsame ih => exact ih (h.sublist ((List.sublist_cons_self b rest).cons_cons a))
  | case2 a b rest hsame ih =>
    obtain ⟨hall, hrest⟩ := List.pairwise_cons.1 h
    refine List.pairwise_cons.2 ⟨fun file hfile => ?_, ih hrest⟩
    have hlt : Path.key a.path < Path.key b.path :=
      lt_of_le_of_ne (hall b List.mem_cons_self) fun e => hsame ((Path.same_iff _ _).2 e)
    rcases List.mem_cons.1 ((distinct_sublist _).subset hfile) with rfl | hmem
    · exact hlt
    · exact lt_of_lt_of_le hlt ((List.pairwise_cons.1 hrest).1 file hmem)
  | case3 files hshort =>
    match files with
    | [] => exact .nil
    | [_] => exact List.pairwise_singleton _ _
    | a :: b :: rest => exact (hshort a b rest rfl).elim

/-- A file is dropped only for one at the same place. -/
theorem exists_mem_distinct {files : List FileStatus} {file : FileStatus} (h : file ∈ files) :
    ∃ kept ∈ distinct files, Path.key kept.path = Path.key file.path := by
  fun_induction distinct files generalizing file with
  | case1 a b rest hsame ih =>
    rcases List.mem_cons.1 h with rfl | hmem
    · exact ih List.mem_cons_self
    · rcases List.mem_cons.1 hmem with rfl | hmem
      · obtain ⟨kept, hkept, hkey⟩ := ih List.mem_cons_self
        exact ⟨kept, hkept, hkey.trans ((Path.same_iff _ _).1 hsame)⟩
      · exact ih (List.mem_cons_of_mem _ hmem)
  | case2 a b rest hsame ih =>
    rcases List.mem_cons.1 h with rfl | hmem
    · exact ⟨_, List.mem_cons_self, rfl⟩
    · obtain ⟨kept, hkept, hkey⟩ := ih hmem
      exact ⟨kept, List.mem_cons_of_mem _ hkept, hkey⟩
  | case3 files hshort => exact ⟨file, h, rfl⟩

/-- Files that are found, no two at one place, are listed in order. -/
theorem lists_distinct {files : List FileStatus} {wanted : FileStatus → Prop}
    (hmem : ∀ file, file ∈ files ↔ wanted file)
    (hsame : ∀ a b, wanted a → wanted b → Path.same a.path b.path = true → a = b) :
    Lists (.ok (distinct (files.mergeSort fun a b => Path.le a.path b.path))) wanted := by
  have hsorted : (files.mergeSort fun a b => Path.le a.path b.path).Pairwise
      fun a b => Path.key a.path ≤ Path.key b.path := by
    refine (List.pairwise_mergeSort (fun a b c => ?_) (fun a b => ?_) files).imp ?_
    · rw [Path.le_iff, Path.le_iff, Path.le_iff]
      exact le_trans
    · rw [Bool.or_eq_true, Path.le_iff, Path.le_iff]
      exact le_total _ _
    · exact fun h => (Path.le_iff _ _).1 h
  refine ⟨_, rfl, (distinct_pairwise hsorted).imp fun h => (Path.before_iff _ _).2 h,
    fun file => ?_⟩
  constructor
  · intro hfile
    exact (hmem file).1 (List.mem_mergeSort.1 ((distinct_sublist _).subset hfile))
  · intro hfile
    obtain ⟨kept, hkept, hplace⟩ :=
      exists_mem_distinct (List.mem_mergeSort.2 ((hmem file).2 hfile))
    have hwanted := (hmem kept).1 (List.mem_mergeSort.1 ((distinct_sublist _).subset hkept))
    rwa [← hsame kept file hwanted hfile ((Path.same_iff _ _).2 hplace)]

/-! ## a directory -/

theorem FileAt.append {path : String} {top id : NodeId} {names more : List String}
    {file : FileStatus} (h : FileAt fs (Path.joinAll path names) id more file)
    (hreach : Reaches fs top names id) : FileAt fs path top (names ++ more) file := by
  obtain ⟨target, bytes, hmore, hnode, rfl⟩ := h
  exact ⟨target, bytes, hreach.append hmore, hnode, by rw [Path.joinAll_append]⟩

/-- Files at one place are one file. -/
theorem FileAt.unique {path : String} {top : NodeId} {names more : List String}
    {a b : FileStatus} (ht : IsTree fs top) (hpath : path ≠ "") (ha : FileAt fs path top names a)
    (hb : FileAt fs path top more b) (hsame : Path.same a.path b.path = true) : a = b := by
  obtain ⟨i, bytes, hi, hnode, rfl⟩ := ha
  obtain ⟨j, bytes', hj, hnode', rfl⟩ := hb
  obtain rfl := Path.joinAll_inj hpath (ht.isName hi) (ht.isName hj) hsame
  obtain rfl := hi.unique hj
  cases hnode.symm.trans hnode'
  rfl

theorem InDirectory.exists_fileAt {path : String} {top : NodeId} {file : FileStatus}
    (h : InDirectory fs recursive path top file) : ∃ names, FileAt fs path top names file := by
  obtain ⟨names, hfile, -⟩ := h
  exact ⟨names, hfile⟩

theorem InGlob.exists_fileAt {base : String} {patterns : List String} {top : NodeId}
    {file : FileStatus} (h : InGlob fs recursive base patterns top file) :
    ∃ names, FileAt fs base top names file := by
  obtain ⟨names, -, hfile | ⟨id, hreach, -, hin⟩⟩ := h
  · exact ⟨names, hfile⟩
  · obtain ⟨more, hfile⟩ := hin.exists_fileAt
    exact ⟨names ++ more, hfile.append hreach⟩

theorem lists_of_fileAt {path : String} {top : NodeId} {files : List FileStatus}
    {wanted : FileStatus → Prop} (htop : fs.resolve path = .ok top) (ht : IsTree fs top)
    (hmem : ∀ file, file ∈ files ↔ wanted file)
    (hplace : ∀ file, wanted file → ∃ names, FileAt fs path top names file) :
    Lists (.ok (distinct (files.mergeSort fun a b => Path.le a.path b.path))) wanted := by
  refine lists_distinct hmem fun a b ha hb hsame => ?_
  obtain ⟨names, ha⟩ := hplace a ha
  obtain ⟨more, hb⟩ := hplace b hb
  exact ha.unique ht (resolve_eq_ok_iff.1 htop).2.1 hb hsame

theorem status_eq {entry : Walk.Entry} (h : entry.path.utf8ByteSize < pathLimit) :
    status fs entry = .ok ⟨entry.path, fs.size entry.node⟩ := by
  unfold status
  rw [if_neg (Nat.not_le.2 h)]

theorem mapM_status {entries : List Walk.Entry}
    (h : ∀ entry ∈ entries, entry.path.utf8ByteSize < pathLimit) :
    entries.mapM (status fs) =
      .ok (entries.map fun entry => ⟨entry.path, fs.size entry.node⟩) := by
  induction entries with
  | nil => rfl
  | cons entry rest ih =>
    rw [List.mapM_cons, status_eq (h entry List.mem_cons_self),
      ih fun e he => h e (List.mem_cons_of_mem _ he)]
    rfl

/-- In a tree what is no directory is a file. -/
theorem size_of_not_directory {top id : NodeId} {names : List String} (ht : IsTree fs top)
    (h : Reaches fs top names id) (hfile : fs.isDirectory id = false) :
    ∃ bytes, fs.node? id = some (.file bytes) ∧ fs.size id = bytes.size.toUInt64 := by
  rcases ht.node h with ⟨bytes, hnode⟩ | hdirectory
  · refine ⟨bytes, hnode, ?_⟩
    unfold size
    rw [hnode]
  · rw [hfile] at hdirectory
    cases hdirectory

theorem isDirectory_of_file {id : NodeId} {bytes : ByteArray}
    (h : fs.node? id = some (.file bytes)) : fs.isDirectory id = false := by
  unfold isDirectory
  rw [h]

/-- the walk that a listing of a directory takes -/
def directoryWalk (recursive : Bool) : Walk :=
  { least := 1, most := if recursive then none else some 1,
    visible := fun n => !Resource.isHidden n }

/-- the walk that as many patterns take -/
def globWalk (depth : Nat) : Walk :=
  { least := depth, most := some depth, visible := fun n => !Resource.isHidden n }

theorem wants_directory {names : List String} :
    (directoryWalk recursive).Wants 1 names ↔
      names ≠ [] ∧ (∀ name ∈ names, Resource.isHidden name = false) ∧
        (recursive = true ∨ names.length = 1) := by
  constructor
  · intro h
    refine ⟨h.ne_nil, fun name hname => by
      simpa [directoryWalk] using h.visible le_rfl name hname, ?_⟩
    cases recursive with
    | true => exact .inl rfl
    | false =>
      have hlength := h.depth.2 1 rfl le_rfl
      have hpos := List.length_pos_iff.2 h.ne_nil
      exact .inr (by omega)
  · rintro ⟨hne, hvisible, hdepth⟩
    have hpos := List.length_pos_iff.2 hne
    refine Walk.wants_of_visible hne (fun name hname => by
      simpa [directoryWalk] using hvisible name hname)
      (by dsimp only [directoryWalk]; omega) fun most hmost => ?_
    rcases hdepth with rfl | hone
    · cases hmost
    · cases recursive with
      | true => cases hmost
      | false =>
        cases hmost
        omega

theorem ofDirectory_of_run {path : String} {entries : List Walk.Entry}
    (hrun : (directoryWalk recursive).run fs path = (entries, none))
    (hshort : ∀ entry ∈ entries, entry.path.utf8ByteSize < pathLimit) :
    ofDirectory fs path recursive =
      .ok ((entries.filter fun e => !fs.isDirectory e.node).map
        fun entry => ⟨entry.path, fs.size entry.node⟩) := by
  unfold ofDirectory
  dsimp only
  rw [← directoryWalk, hrun, mapM_status fun e he => hshort e (List.mem_filter.1 he).1]
  rfl

/-- **What is found in a directory: its visible files.** -/
theorem exists_ofDirectory {path : String} {top : NodeId} (recursive : Bool)
    (h : fs.resolve path = .ok top) (hdirectory : fs.isDirectory top = true) (ht : IsTree fs top)
    (hr : Readable fs path top) :
    ∃ files, ofDirectory fs path recursive = .ok files ∧
      ∀ file, file ∈ files ↔ InDirectory fs recursive path top file := by
  obtain ⟨entries, hentries⟩ :
      ∃ entries, entries = ((directoryWalk recursive).run fs path).1 := ⟨_, rfl⟩
  obtain ⟨hfault, hfound⟩ := Walk.run_finds (directoryWalk recursive) h ht hr
  rw [← hentries] at hfound
  have hshort : ∀ entry ∈ entries, entry.path.utf8ByteSize < pathLimit := by
    intro entry hentry
    obtain ⟨names, id, -, hreach, rfl⟩ := (hfound entry).1 hentry
    exact hr names id hreach
  refine ⟨_, ofDirectory_of_run (Prod.ext hentries.symm hfault) hshort, fun file => ?_⟩
  rw [List.mem_map]
  constructor
  · rintro ⟨entry, hentry, rfl⟩
    obtain ⟨hmem, hfile⟩ := List.mem_filter.1 hentry
    obtain ⟨names, id, hwants, hreach, rfl⟩ := (hfound entry).1 hmem
    obtain ⟨-, hvisible, hdepth⟩ := wants_directory.1 hwants
    obtain ⟨bytes, hnode, hsize⟩ := size_of_not_directory ht hreach (by simpa using hfile)
    exact ⟨names, ⟨id, bytes, hreach, hnode, by rw [hsize]⟩, hvisible, hdepth⟩
  · rintro ⟨names, ⟨id, bytes, hreach, hnode, rfl⟩, hvisible, hdepth⟩
    have hfile := isDirectory_of_file hnode
    have hne : names ≠ [] := by
      rintro rfl
      cases reaches_nil.1 hreach
      exact absurd hdirectory (by simp [hfile])
    refine ⟨⟨Path.joinAll path names, names, id⟩, List.mem_filter.2 ⟨?_, by simp [hfile]⟩, ?_⟩
    · exact (hfound _).2 ⟨names, id, wants_directory.2 ⟨hne, hvisible, hdepth⟩, hreach, rfl⟩
    · simp [size, hnode]

/-! ## patterns -/

theorem namesMatch_iff {names patterns : List String} (h : names.length = patterns.length) :
    namesMatch names patterns = true ↔ List.Forall₂ Fits names patterns := by
  induction names generalizing patterns with
  | nil =>
    obtain rfl := List.length_eq_zero_iff.1 h.symm
    simp [namesMatch]
  | cons name names ih =>
    cases patterns with
    | nil => cases h
    | cons pattern patterns =>
      rw [List.forall₂_cons, ← ih (Nat.succ.inj h), namesMatch, Fits]
      simp

/-- The walk passes hidden names above the last, and the patterns refuse them. -/
theorem wants_glob {names patterns : List String} (hne : patterns ≠ []) :
    (globWalk patterns.length).Wants 1 names ∧ namesMatch names patterns = true ↔
      List.Forall₂ Fits names patterns := by
  have hpos := List.length_pos_iff.2 hne
  constructor
  · rintro ⟨hwants, hmatch⟩
    have hleast : patterns.length < 1 + names.length := hwants.depth.1
    have hmost := hwants.depth.2 _ rfl hpos
    exact (namesMatch_iff (by omega)).1 hmatch
  · intro hfits
    have hlength := hfits.length_eq
    refine ⟨Walk.wants_of_visible (List.length_pos_iff.1 (hlength ▸ hpos)) (fun name hname => ?_)
      (by dsimp only [globWalk]; omega) ?_, (namesMatch_iff hlength).2 hfits⟩
    · have hvisible : ∀ name ∈ names, Resource.isHidden name = false :=
        ((List.forall₂_and_left _ _).1 hfits).1
      simpa [globWalk] using hvisible name hname
    · rintro most ⟨⟩
      omega

/-- What an entry of a walk stands for: the file itself, or the files of a directory. -/
def Held (fs : FileSystem) (recursive : Bool) (entry : Walk.Entry) (file : FileStatus) : Prop :=
  (fs.isDirectory entry.node = true ∧ InDirectory fs recursive entry.path entry.node file) ∨
    (fs.isDirectory entry.node = false ∧ file = ⟨entry.path, fs.size entry.node⟩)

theorem exists_filesOf (recursive : Bool) (entries : List Walk.Entry)
    (h : ∀ entry ∈ entries, fs.resolve entry.path = .ok entry.node ∧ IsTree fs entry.node ∧
      Readable fs entry.path entry.node) :
    ∃ files, filesOf fs recursive entries = .ok files ∧
      ∀ file, file ∈ files ↔ ∃ entry ∈ entries, Held fs recursive entry file := by
  induction entries with
  | nil => exact ⟨[], rfl, by simp⟩
  | cons entry rest ih =>
    obtain ⟨more, hmore, hrest⟩ := ih fun e he => h e (List.mem_cons_of_mem _ he)
    obtain ⟨hresolve, ht, hr⟩ := h entry List.mem_cons_self
    rw [filesOf, hmore]
    cases hdirectory : fs.isDirectory entry.node with
    | true =>
      obtain ⟨here, hfiles, hhere⟩ := exists_ofDirectory recursive hresolve hdirectory ht hr
      rw [if_pos rfl, hfiles]
      exact ⟨here ++ more, rfl, fun file => by simp [hhere, hrest, Held, hdirectory]⟩
    | false =>
      rw [if_neg Bool.false_ne_true, status_eq (hr _ _ (.here _))]
      exact ⟨⟨entry.path, fs.size entry.node⟩ :: more, rfl, fun file => by
        simp [hrest, Held, hdirectory]⟩

theorem ofGlob_of_run {pattern base : String} {patterns : List String} {top : NodeId}
    {entries : List Walk.Entry} (hsplit : splitGlob pattern = (base, patterns))
    (h : fs.resolve base = .ok top) (hdirectory : fs.isDirectory top = true)
    (hrun : (globWalk patterns.length).run fs base = (entries, none)) :
    ofGlob fs pattern recursive =
      filesOf fs recursive (entries.filter fun e => namesMatch e.names patterns) := by
  have hbase : fs.isDirectoryAt base = true := by
    unfold isDirectoryAt
    rw [h]
    exact hdirectory
  unfold ofGlob
  rw [hsplit]
  dsimp only
  rw [if_pos hbase, ← globWalk, hrun]
  cases filesOf fs recursive (entries.filter fun e => namesMatch e.names patterns) with
  | ok files => rfl
  | error fault => rfl

theorem ofGlob_of_missing {pattern base : String} {patterns : List String}
    (hsplit : splitGlob pattern = (base, patterns)) (h : fs.isDirectoryAt base = false) :
    ofGlob fs pattern recursive = .ok [] := by
  unfold ofGlob
  rw [hsplit]
  dsimp only
  rw [h]
  rfl

/-- **What patterns find below a directory: the files that they lead to.** -/
theorem exists_ofGlob {pattern base : String} {patterns : List String} {top : NodeId}
    (recursive : Bool) (hsplit : splitGlob pattern = (base, patterns)) (hne : patterns ≠ [])
    (h : fs.resolve base = .ok top) (hdirectory : fs.isDirectory top = true) (ht : IsTree fs top)
    (hr : Readable fs base top) :
    ∃ files, ofGlob fs pattern recursive = .ok files ∧
      ∀ file, file ∈ files ↔ InGlob fs recursive base patterns top file := by
  obtain ⟨entries, hentries⟩ :
      ∃ entries, entries = ((globWalk patterns.length).run fs base).1 := ⟨_, rfl⟩
  obtain ⟨hfault, hfound⟩ := Walk.run_finds (globWalk patterns.length) h ht hr
  rw [← hentries] at hfound
  have hmatched : ∀ entry, entry ∈ entries.filter (fun e => namesMatch e.names patterns) ↔
      ∃ names id, List.Forall₂ Fits names patterns ∧ Reaches fs top names id ∧
        entry = ⟨Path.joinAll base names, names, id⟩ := by
    intro entry
    rw [List.mem_filter, hfound]
    constructor
    · rintro ⟨⟨names, id, hwants, hreach, rfl⟩, hmatch⟩
      exact ⟨names, id, (wants_glob hne).1 ⟨hwants, hmatch⟩, hreach, rfl⟩
    · rintro ⟨names, id, hfits, hreach, rfl⟩
      obtain ⟨hwants, hmatch⟩ := (wants_glob hne).2 hfits
      exact ⟨⟨names, id, hwants, hreach, rfl⟩, hmatch⟩
  obtain ⟨files, hfiles, hheld⟩ := exists_filesOf recursive
    (entries.filter fun e => namesMatch e.names patterns) fun entry hentry => by
      obtain ⟨names, id, -, hreach, rfl⟩ := (hmatched entry).1 hentry
      exact ⟨resolve_joinAll h ht hr hreach, ht.below hreach, hr.below hreach⟩
  refine ⟨files, by rw [ofGlob_of_run hsplit h hdirectory (Prod.ext hentries.symm hfault), hfiles],
    fun file => (hheld file).trans ?_⟩
  constructor
  · rintro ⟨entry, hentry, hfile⟩
    obtain ⟨names, id, hfits, hreach, rfl⟩ := (hmatched entry).1 hentry
    refine ⟨names, hfits, ?_⟩
    rcases hfile with ⟨hdir, hin⟩ | ⟨hnot, rfl⟩
    · exact .inr ⟨id, hreach, hdir, hin⟩
    · obtain ⟨bytes, hnode, hsize⟩ := size_of_not_directory ht hreach hnot
      exact .inl ⟨id, bytes, hreach, hnode, by rw [hsize]⟩
  · rintro ⟨names, hfits, ⟨id, bytes, hreach, hnode, rfl⟩ | ⟨id, hreach, hdir, hin⟩⟩
    · refine ⟨_, (hmatched _).2 ⟨names, id, hfits, hreach, rfl⟩,
        .inr ⟨isDirectory_of_file hnode, ?_⟩⟩
      simp [size, hnode]
    · exact ⟨_, (hmatched _).2 ⟨names, id, hfits, hreach, rfl⟩, .inl ⟨hdir, hin⟩⟩

/-! ## whole listings -/

theorem hasMeta_empty : Glob.hasMeta "" = false := rfl

theorem exists_hasMeta {pattern : String} (h : Glob.hasMeta pattern = true) :
    ∃ piece ∈ Path.pieces pattern, Glob.hasMeta piece = true := by
  obtain ⟨c, hc, hmeta⟩ := List.any_eq_true.1 h
  have hne : c ≠ '/' := by
    rintro rfl
    cases hmeta
  obtain ⟨piece, hpiece, hmem⟩ := Path.exists_mem_splitAt hc hne
  exact ⟨String.ofList piece, List.mem_map_of_mem hpiece,
    List.any_eq_true.2 ⟨c, by simpa using hmem, hmeta⟩⟩

/-- Every pattern is cut somewhere. -/
theorem exists_isCut {pattern : String} (h : Glob.hasMeta pattern = true) :
    ∃ base patterns, IsCut pattern base patterns := by
  have hsplit : (Path.pieces pattern).takeWhile (fun piece => !Glob.hasMeta piece) ++
      (Path.pieces pattern).dropWhile (fun piece => !Glob.hasMeta piece) = Path.pieces pattern :=
    List.takeWhile_append_dropWhile
  cases hdrop : (Path.pieces pattern).dropWhile fun piece => !Glob.hasMeta piece with
  | nil =>
    obtain ⟨piece, hpiece, hmeta⟩ := exists_hasMeta h
    have hliteral := List.dropWhile_eq_nil_iff.1 hdrop piece hpiece
    rw [hmeta] at hliteral
    cases hliteral
  | cons glob rest =>
    have hhead := List.head?_dropWhile_not (fun piece => !Glob.hasMeta piece) (Path.pieces pattern)
    rw [hdrop] at hhead
    refine ⟨_, _, _, glob, rest, by rw [← hdrop, hsplit], fun piece hpiece => ?_,
      by simpa using hhead, rfl, rfl⟩
    simpa using List.mem_takeWhile_imp hpiece

theorem IsCut.splitGlob_eq {pattern base : String} {patterns : List String}
    (h : IsCut pattern base patterns) : splitGlob pattern = (base, patterns) ∧ patterns ≠ [] := by
  obtain ⟨literal, glob, rest, hpieces, hliteral, hglob, rfl, rfl⟩ := h
  have hkept : glob ≠ "" := by
    rintro rfl
    cases hasMeta_empty.symm.trans hglob
  have hplain : ∀ piece ∈ literal, (!Glob.hasMeta piece) = true := fun piece hpiece => by
    rw [hliteral piece hpiece]
    rfl
  constructor
  · unfold splitGlob literalBase
    rw [hpieces]
    dsimp only
    rw [List.takeWhile_append_of_pos hplain, List.dropWhile_append_of_pos hplain]
    simp [hglob]
  · simp [hkept]

theorem resolve_glob {resource path : String} (hlocal : Resource.isRemote resource = false)
    (hpath : Resource.localPart resource = path) (hmeta : Glob.hasMeta path = true) :
    Listing.resolve fs resource recursive = (ofGlob fs path recursive).map
      fun files => distinct (files.mergeSort fun a b => Path.le a.path b.path) := by
  have hempty : path.isEmpty = false := by
    rw [String.isEmpty_eq_false_iff]
    rintro rfl
    cases hasMeta_empty.symm.trans hmeta
  unfold Listing.resolve
  rw [hlocal, hpath]
  dsimp only
  rw [if_neg Bool.false_ne_true, hempty, if_neg Bool.false_ne_true, if_pos hmeta]
  cases ofGlob fs path recursive with
  | ok files => rfl
  | error fault => rfl

theorem resolve_directory {resource path : String} {top : NodeId}
    (hlocal : Resource.isRemote resource = false) (hpath : Resource.localPart resource = path)
    (hmeta : Glob.hasMeta path = false) (htop : fs.resolve path = .ok top)
    (hdirectory : fs.isDirectory top = true) :
    Listing.resolve fs resource recursive = (ofDirectory fs path recursive).map
      fun files => distinct (files.mergeSort fun a b => Path.le a.path b.path) := by
  have hempty : path.isEmpty = false :=
    String.isEmpty_eq_false_iff.2 (resolve_eq_ok_iff.1 htop).2.1
  unfold Listing.resolve
  rw [hlocal, hpath]
  dsimp only
  rw [if_neg Bool.false_ne_true, hempty, if_neg Bool.false_ne_true, hmeta,
    if_neg Bool.false_ne_true, htop]
  dsimp only
  rw [if_pos hdirectory]
  cases ofDirectory fs path recursive with
  | ok files => rfl
  | error fault => rfl

/-- a directory with a hidden file, a file, and a directory that holds a file -/
def shelf : FileSystem :=
  ⟨#[.directory 0 ⟨[("d", 1)], by decide⟩,
    .directory 0 ⟨[(".h", 2), ("b", 3), ("e", 4)], by decide⟩,
    .file ⟨#[1]⟩, .file ⟨#[1, 2]⟩, .directory 1 ⟨[("c", 5)], by decide⟩, .file ⟨#[1, 2, 3]⟩], 0,
    lastOffset⟩

theorem mem_entries_shelf {id child : NodeId} {name : String}
    (h : (name, child) ∈ shelf.entries id) :
    (id, name, child) ∈ [(0, "d", 1), (1, ".h", 2), (1, "b", 3), (1, "e", 4), (4, "c", 5)] := by
  rcases id with _ | _ | _ | _ | _ | _ | id <;> simp_all [entries, node?, shelf]

theorem isTree_shelf : IsTree shelf 1 := by
  refine isTree_of_rising rfl (fun id name child h => ?_) fun id name child h => ?_
  · have hmem := mem_entries_shelf h
    simp only [List.mem_cons, Prod.mk.injEq, List.not_mem_nil, or_false] at hmem
    obtain ⟨rfl, -, rfl⟩ | ⟨rfl, -, rfl⟩ | ⟨rfl, -, rfl⟩ | ⟨rfl, -, rfl⟩ | ⟨rfl, -, rfl⟩ := hmem
    · exact ⟨by decide, .inr rfl⟩
    · exact ⟨by decide, .inl ⟨_, rfl⟩⟩
    · exact ⟨by decide, .inl ⟨_, rfl⟩⟩
    · exact ⟨by decide, .inr rfl⟩
    · exact ⟨by decide, .inl ⟨_, rfl⟩⟩
  · have hnames : ∀ e ∈ [(0, "d", 1), (1, ".h", 2), (1, "b", 3), (1, "e", 4), (4, "c", 5)],
        Path.IsName e.2.1 ∧ e.2.1.utf8ByteSize ≤ nameLimit := by decide
    exact hnames _ (mem_entries_shelf h)

theorem resolve_shelf : shelf.resolve "/d" = .ok 1 := by
  have hentry : ("d", 1) ∈ shelf.entries 0 := by decide
  refine resolve_eq_ok_iff.2 ⟨by decide, by decide, by decide, ?_⟩
  have hsteps : steps "/d" = ["d"] := by decide
  rw [hsteps]
  exact walkFrom_entry (by decide) (by decide) hentry (isTree_shelf.not_link (.here 1))

/-- **What a listing holds.**  The listing of a directory is its visible files.  A pattern is cut
into a literal directory and patterns for the names below it; its listing is the files that these
lead to, and it is empty where the directory is missing.  Each file is listed once, in the order of
paths. -/
theorem resolve_exactly {resource path : String} (hlocal : Resource.isRemote resource = false)
    (hpath : Resource.localPart resource = path) :
    (Glob.hasMeta path = false → ∀ top, fs.resolve path = .ok top → fs.isDirectory top = true →
      IsTree fs top → Readable fs path top →
      Lists (Listing.resolve fs resource recursive) (InDirectory fs recursive path top)) ∧
    (Glob.hasMeta path = true → (∃ base patterns, IsCut path base patterns) ∧
      ∀ base patterns, IsCut path base patterns →
        (fs.isDirectoryAt base = false → Listing.resolve fs resource recursive = .ok []) ∧
        ∀ top, fs.resolve base = .ok top → fs.isDirectory top = true →
          IsTree fs top → Readable fs base top →
          Lists (Listing.resolve fs resource recursive)
            (InGlob fs recursive base patterns top)) := by
  refine ⟨fun hmeta top htop hdirectory ht hr => ?_, fun hmeta => ⟨exists_isCut hmeta, ?_⟩⟩
  · obtain ⟨files, hfiles, hmem⟩ := exists_ofDirectory recursive htop hdirectory ht hr
    rw [resolve_directory hlocal hpath hmeta htop hdirectory, hfiles]
    exact lists_of_fileAt htop ht hmem fun file => InDirectory.exists_fileAt
  · intro base patterns hcut
    obtain ⟨hsplit, hne⟩ := hcut.splitGlob_eq
    refine ⟨fun hmissing => ?_, fun top htop hdirectory ht hr => ?_⟩
    · rw [resolve_glob hlocal hpath hmeta, ofGlob_of_missing hsplit hmissing]
      simp [Except.map, distinct]
    · obtain ⟨files, hfiles, hmem⟩ := exists_ofGlob recursive hsplit hne htop hdirectory ht hr
      rw [resolve_glob hlocal hpath hmeta, hfiles]
      exact lists_of_fileAt htop ht hmem fun file => InGlob.exists_fileAt

/-- all files below a directory, and what one pattern finds in it -/
theorem resolve_exactly_shelf :
    Resource.isRemote "/d" = false ∧ Resource.isRemote "/d/?" = false ∧
      shelf.resolve "/d" = .ok 1 ∧ IsTree shelf 1 ∧ Readable shelf "/d" 1 ∧
      Lists (Listing.resolve shelf "/d" true) (InDirectory shelf true "/d" 1) ∧
      InDirectory shelf true "/d" 1 ⟨"/d/e/c", 3⟩ ∧
      Lists (Listing.resolve shelf "/d/?" false) (InGlob shelf false "/d" ["?"] 1) ∧
      InGlob shelf false "/d" ["?"] 1 ⟨"/d/e/c", 3⟩ := by
  have hr : Readable shelf "/d" 1 := isTree_shelf.readable (by decide)
  have hcut : IsCut "/d/?" "/d" ["?"] := ⟨["", "d"], "?", [], by decide⟩
  have he : Reaches shelf 1 ["e"] 4 := .down (by decide) (.here 4)
  have hc : Reaches shelf 4 ["c"] 5 := .down (by decide) (.here 5)
  have hplain : Resource.isRemote "/d" = false := by decide
  have hpattern : Resource.isRemote "/d/?" = false := by decide
  have hmatch : Glob.matches "?" "e" = true := by
    simp [Glob.matches, Glob.Token.ofPattern, Glob.Token.matchAll, Glob.Token.accepts]
  refine ⟨hplain, hpattern, resolve_shelf, isTree_shelf, hr, ?_, ?_, ?_, ?_⟩
  · exact (resolve_exactly hplain (by decide)).1 (by decide) 1 resolve_shelf rfl isTree_shelf hr
  · exact ⟨["e", "c"], ⟨5, _, he.append hc, rfl, by decide⟩, by decide, .inl rfl⟩
  · exact (((resolve_exactly hpattern (by decide)).2 (by decide)).2 "/d" ["?"] hcut).2 1
      resolve_shelf rfl isTree_shelf hr
  · exact ⟨["e"], .cons ⟨by decide, hmatch⟩ .nil,
      .inr ⟨4, he, rfl, ["c"], ⟨5, _, hc, rfl, by decide⟩, by decide, .inr rfl⟩⟩

end Splittable.Listing
