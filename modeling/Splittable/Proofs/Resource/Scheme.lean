import Splittable.Proofs.Resource.Hidden

/-!
# Local schemes

A resource with the scheme `file` is local in whatever letter case the scheme is spelled, but only
the spelling in lower case is taken off.  With any other the resource is looked for as the path that
it spells, below a directory such as `FILE:`.

* `Resource.splitScheme_append`, `scheme?_file`   where a scheme ends;
* `Resource.localPart_of_ne`         what is no scheme `file` is not taken off;
* `Walk.Told`, `Meets.told`          how the faults of a walk differ from a missing path;
* `Listing.resolve_spelled_literal`, `resolve_spelled_glob`   what the other spellings list;
* `Listing.resolve_scheme_iff`       which resources list what stands behind their scheme.
-/

namespace Splittable

/-! ## schemes -/

namespace Resource

variable {resource scheme rest : String}

theorem splitScheme_append {before : List Char} (h : ':' ∉ before) (after : List Char) :
    splitScheme (before ++ ':' :: '/' :: '/' :: after) = some (before, after) := by
  induction before with
  | nil => rfl
  | cons c before ih =>
    rw [List.mem_cons, not_or] at h
    rw [List.cons_append, splitScheme, ih h.2]
    · rfl
    · rintro _ rfl -
      exact h.1 rfl

theorem isSchemeChar_of_mem (h : scheme? resource = some scheme) {c : Char}
    (hc : c ∈ scheme.toList) : isSchemeChar c = true := by
  unfold scheme? at h
  split at h
  · split at h
    · rename_i hvalid
      cases h
      rw [Bool.and_eq_true, List.all_eq_true] at hvalid
      exact hvalid.2 c (by simpa using hc)
    · cases h
  · cases h

theorem not_mem_scheme (h : scheme? resource = some scheme) {c : Char}
    (hc : isSchemeChar c = false) : c ∉ scheme.toList := fun hmem => by
  rw [isSchemeChar_of_mem h hmem] at hc
  cases hc

theorem scheme?_file {cs : List Char} (h : resource.toList = "file://".toList ++ cs) :
    scheme? resource = some "file" := by
  have hsplit : splitScheme resource.toList = some ("file".toList, cs) := by
    have hcolon : ':' ∉ "file".toList := by decide
    rw [h]
    exact splitScheme_append hcolon cs
  unfold scheme?
  rw [hsplit]
  rfl

theorem localPart_file (rest : String) : localPart ("file://" ++ rest) = rest := by
  unfold localPart
  simp

/-- What has no scheme, or another spelling of one, is left as it is. -/
theorem localPart_of_ne (h : scheme? resource ≠ some "file") : localPart resource = resource := by
  unfold localPart
  rw [if_neg]
  intro hprefix
  obtain ⟨cs, hcs⟩ := List.isPrefixOf_iff_prefix.1 hprefix
  exact h (scheme?_file hcs.symm)

theorem isRemote_of_lower (h : scheme? resource = some scheme)
    (hlower : scheme.toList.map Char.toLower = "file".toList) : isRemote resource = false := by
  have hfile : Text.toAsciiLower scheme = "file" := by
    rw [← String.toList_inj, Text.toAsciiLower, String.toList_map, hlower]
  unfold isRemote
  rw [h]
  dsimp only
  rw [hfile]
  rfl

theorem isRemote_of_none (h : scheme? resource = none) : isRemote resource = false := by
  unfold isRemote
  rw [h]

end Resource

/-! ## faults told apart -/

theorem OsError.kind_ne_other (e : OsError) : e.kind ≠ .other := by
  cases e <;> decide

/-- the answer whose text, from the last character on, begins like this -/
def OsError.ofEnding? : List Char → Option OsError
  | ')' :: '2' :: ' ' :: _ => some .noEntry
  | ')' :: '7' :: '1' :: _ => some .alreadyExists
  | ')' :: '0' :: '2' :: _ => some .notADirectory
  | ')' :: '1' :: '2' :: _ => some .isADirectory
  | ')' :: '2' :: '2' :: _ => some .invalidArgument
  | ')' :: '6' :: '3' :: _ => some .nameTooLong
  | ')' :: '0' :: '4' :: _ => some .linkLoop
  | 'e' :: 't' :: 'y' :: _ => some .nulInName
  | _ => none

theorem OsError.ofEnding?_message (e : OsError) (cs : List Char) :
    ofEnding? (e.message.toList.reverse ++ cs) = some e := by
  cases e <;> rfl

/-- Texts that end with answers are the same only where the answers are. -/
theorem OsError.append_message_inj {s t : String} {a b : OsError}
    (h : s ++ a.message = t ++ b.message) : s = t ∧ a = b := by
  have hlist := congrArg (fun text : String => ofEnding? text.toList.reverse) h
  simp only [String.toList_append, List.reverse_append, ofEnding?_message] at hlist
  obtain rfl := Option.some.inj hlist
  exact ⟨by simpa using h, rfl⟩

/-- how the faults of a walk differ from that of a missing path: an answer of the system is told
as their cause, or they are loops -/
def Walk.Told (fault : Fault) : Prop := fault.cause ≠ none ∨ fault.kind = .other

namespace Walk

variable {walk : Walk} {fs : FileSystem} {fault : Fault}

theorem told_refused (path : String) (e : OsError) : Told (refused path e) :=
  .inl (Option.some_ne_none _)

theorem told_of_follow {inside : List (NodeId × String)} {path : String} {id : NodeId}
    (h : follow fs inside path id = .error fault) : Told fault := by
  unfold follow at h
  split at h
  · split at h
    · cases h
      exact told_refused ..
    · split at h
      · cases h
        exact .inr rfl
      · cases h
  · cases h

theorem Meets.told {inside way : List (NodeId × String)} {path : String} {id : NodeId} {e : Event}
    (h : Meets walk fs inside path way id e) (hanswer : e.answer = .error fault) : Told fault := by
  induction h with
  | lost _ hfollow =>
    cases hanswer
    exact told_of_follow hfollow
  | found => cases hanswer
  | long =>
    cases hanswer
    exact told_refused ..
  | deeper _ _ _ _ _ _ _ ih => exact ih hanswer

theorem mem_of_upTo_fault {events : List Event} (h : (upTo events).2 = some fault) :
    ∃ e ∈ events, e.answer = .error fault := by
  induction events with
  | nil => cases h
  | cons e rest ih =>
    obtain ⟨way, first | entry⟩ := e
    · cases h
      exact ⟨_, List.mem_cons_self, rfl⟩
    · obtain ⟨e, he, hanswer⟩ := ih h
      exact ⟨e, List.mem_cons_of_mem _ he, hanswer⟩

theorem told_of_run {path : String} (h : (walk.run fs path).2 = some fault) : Told fault := by
  rw [run_eq] at h
  obtain ⟨e, he, hanswer⟩ := mem_of_upTo_fault h
  unfold events at he
  split at he
  · cases List.mem_singleton.1 he
    cases hanswer
    exact told_refused ..
  · exact (meets_of_mem_survey he).told hanswer

end Walk

namespace Listing

open FileSystem

variable {fs : FileSystem} {recursive : Bool} {fault : Fault}

theorem told_of_status {entry : Walk.Entry} (h : status fs entry = .error fault) :
    Walk.Told fault := by
  unfold status at h
  split at h
  · cases h
    exact Walk.told_refused ..
  · cases h

theorem told_of_mapM_status {entries : List Walk.Entry}
    (h : entries.mapM (status fs) = .error fault) : Walk.Told fault := by
  induction entries with
  | nil => cases h
  | cons entry rest ih =>
    rw [List.mapM_cons] at h
    cases hstatus : status fs entry with
    | error first =>
      rw [hstatus] at h
      cases h
      exact told_of_status hstatus
    | ok file =>
      rw [hstatus] at h
      cases hrest : rest.mapM (status fs) with
      | error later =>
        rw [hrest] at h
        cases h
        exact ih hrest
      | ok files =>
        rw [hrest] at h
        cases h

theorem told_of_ofDirectory {path : String} (h : ofDirectory fs path recursive = .error fault) :
    Walk.Told fault := by
  unfold ofDirectory at h
  dsimp only at h
  rw [← directoryWalk] at h
  cases hfiles : ((((directoryWalk recursive).run fs path).1.filter fun e =>
      !fs.isDirectory e.node).mapM (status fs)) with
  | error first =>
    rw [hfiles] at h
    cases h
    exact told_of_mapM_status hfiles
  | ok files =>
    rw [hfiles] at h
    cases hend : ((directoryWalk recursive).run fs path).2 with
    | none =>
      rw [hend] at h
      cases h
    | some last =>
      rw [hend] at h
      cases h
      exact Walk.told_of_run hend

/-- the fault of a literal path that leads nowhere -/
def missing (path : String) (e : OsError) : Fault :=
  e.fault.withMessage s!"input path does not exist: {path}: {e.message}"

theorem not_told_missing (path : String) (e : OsError) : ¬Walk.Told (missing path e) := by
  rintro (hcause | hkind)
  · exact hcause rfl
  · exact e.kind_ne_other hkind

theorem head?_missing (path : String) (e : OsError) :
    (missing path e).message.toList.head? = some 'i' := by
  show ("input path does not exist: " ++ path ++ ": " ++ e.message).toList.head? = _
  simp

theorem missing_inj {path other : String} {e e' : OsError}
    (h : missing path e = missing other e') : path = other := by
  have hmessage : "input path does not exist: " ++ path ++ ": " ++ e.message =
      "input path does not exist: " ++ other ++ ": " ++ e'.message := congrArg Fault.message h
  obtain ⟨hfront, -⟩ := OsError.append_message_inj hmessage
  simpa using hfront

/-! ## listings -/

variable {resource path name : String} {more : List String}

theorem resolve_literal_missing {e : OsError} (hlocal : Resource.isRemote resource = false)
    (hpath : Resource.localPart resource = path) (hmeta : Glob.hasMeta path = false)
    (hne : path ≠ "") (h : fs.resolve path = .error e) :
    Listing.resolve fs resource recursive = .error (missing path e) := by
  unfold Listing.resolve
  rw [hlocal, hpath]
  dsimp only
  rw [if_neg Bool.false_ne_true, String.isEmpty_eq_false_iff.2 hne, if_neg Bool.false_ne_true,
    hmeta, if_neg Bool.false_ne_true, h]
  rfl

/-- A literal path fails because there is none, because it is missing, or in the walk below it. -/
theorem fault_of_literal (hlocal : Resource.isRemote resource = false)
    (hpath : Resource.localPart resource = path) (hmeta : Glob.hasMeta path = false)
    (h : Listing.resolve fs resource recursive = .error fault) :
    fault = .of .invalidInput "empty resource identifier" ∨ (∃ e, fault = missing path e) ∨
      Walk.Told fault := by
  by_cases hne : path = ""
  · subst hne
    unfold Listing.resolve at h
    rw [hlocal, hpath] at h
    cases h
    exact .inl rfl
  · cases hresolve : fs.resolve path with
    | error e =>
      rw [resolve_literal_missing hlocal hpath hmeta hne hresolve] at h
      cases h
      exact .inr (.inl ⟨e, rfl⟩)
    | ok id =>
      cases hdirectory : fs.isDirectory id with
      | true =>
        rw [resolve_directory hlocal hpath hmeta hresolve hdirectory] at h
        cases hfiles : ofDirectory fs path recursive with
        | error first =>
          rw [hfiles] at h
          cases h
          exact .inr (.inr (told_of_ofDirectory hfiles))
        | ok files =>
          rw [hfiles] at h
          cases h
      | false =>
        unfold Listing.resolve at h
        rw [hlocal, hpath] at h
        dsimp only at h
        rw [if_neg Bool.false_ne_true, String.isEmpty_eq_false_iff.2 hne,
          if_neg Bool.false_ne_true, hmeta, if_neg Bool.false_ne_true, hresolve] at h
        dsimp only at h
        rw [hdirectory, if_neg Bool.false_ne_true] at h
        cases h

/-- A pattern whose first name is literal and missing lists nothing. -/
theorem resolve_glob_missing (hlocal : Resource.isRemote resource = false)
    (hpath : Resource.localPart resource = path) (hmeta : Glob.hasMeta path = true)
    (hpieces : Path.pieces path = name :: more) (hname : Path.IsName name)
    (hliteral : Glob.hasMeta name = false)
    (hmissing : ∀ child, (name, child) ∉ fs.entries fs.workingDirectory) :
    Listing.resolve fs resource recursive = .ok [] := by
  let literal := more.takeWhile fun piece => !Glob.hasMeta piece
  obtain ⟨later, hbase⟩ := Path.pieces_intercalate hname.separator literal
  have hne : String.intercalate "/" (name :: literal) ≠ "" := by
    intro hempty
    rw [hempty] at hbase
    exact hname.ne_empty (List.cons.inj hbase).1.symm
  have hsplit : (splitGlob path).1 = String.intercalate "/" (name :: literal) := by
    unfold splitGlob
    dsimp only
    rw [hpieces, List.takeWhile_cons_of_pos (by rw [hliteral]; rfl),
      String.isEmpty_eq_false_iff.2 hne]
    rfl
  obtain ⟨e, he⟩ := resolve_first_missing hbase hname hmissing
  have hnone : fs.isDirectoryAt (splitGlob path).1 = false := by
    rw [hsplit]
    exact isDirectoryAt_of_error he
  rw [resolve_glob hlocal hpath hmeta, ofGlob_of_missing (Prod.eta _).symm hnone]
  simp [Except.map, distinct]

/-! ## resources with a scheme -/

variable {scheme rest : String}

theorem resolve_congr {other : String} (hlocal : Resource.isRemote resource = false)
    (hother : Resource.isRemote other = false)
    (hsame : Resource.localPart resource = Resource.localPart other) :
    Listing.resolve fs resource recursive = Listing.resolve fs other recursive := by
  unfold Listing.resolve
  rw [hlocal, hother, hsame]
  dsimp only
  rw [if_neg Bool.false_ne_true, if_neg Bool.false_ne_true]

/-- where a resource is looked for whose scheme is not taken off -/
theorem isName_scheme (h : Resource.scheme? resource = some scheme) :
    Path.IsName (scheme ++ ":") where
  ne_empty := by simp
  ne_current he := by
    have hlast := congrArg (fun s : String => s.toList.getLast?) he
    simp at hlast
  ne_parent he := by
    have hlast := congrArg (fun s : String => s.toList.getLast?) he
    simp at hlast
  separator := by
    have hscheme := Resource.not_mem_scheme h (c := '/') (by decide)
    simpa using hscheme
  nul := by
    have hscheme := Resource.not_mem_scheme h (c := '\x00') (by decide)
    simpa using hscheme

theorem hasMeta_append (s t : String) :
    Glob.hasMeta (s ++ t) = (Glob.hasMeta s || Glob.hasMeta t) := by
  unfold Glob.hasMeta
  rw [String.toList_append, List.any_append]

theorem hasMeta_scheme (h : Resource.scheme? resource = some scheme) :
    Glob.hasMeta scheme = false := by
  rw [Bool.eq_false_iff]
  intro hmeta
  obtain ⟨c, hc, hmeta⟩ := List.any_eq_true.1 hmeta
  have hvalid := Resource.isSchemeChar_of_mem h hc
  simp only [Bool.or_eq_true, beq_iff_eq] at hmeta
  obtain (rfl | rfl) | rfl := hmeta
  all_goals cases hvalid

section
variable (hscheme : Resource.scheme? resource = some scheme)
  (hlocal : Resource.isRemote resource = false) (hresource : resource = scheme ++ "://" ++ rest)
  (hrest : Resource.scheme? rest = none)
include hscheme hresource

theorem pieces_scheme : Path.pieces resource = (scheme ++ ":") :: Path.pieces ("/" ++ rest) := by
  have htext : resource = scheme ++ ":" ++ "/" ++ ("/" ++ rest) := by
    rw [hresource]
    simp [← String.toList_inj]
  rw [htext, Path.pieces_cons (isName_scheme hscheme).separator]

theorem hasMeta_resource : Glob.hasMeta resource = Glob.hasMeta rest := by
  rw [hresource, hasMeta_append, hasMeta_append, hasMeta_scheme hscheme]
  rfl

include hlocal

omit hscheme in
include hrest in
/-- Spelled in lower case a scheme is taken off. -/
theorem resolve_lower (h : scheme = "file") :
    Listing.resolve fs resource recursive = Listing.resolve fs rest recursive := by
  have htaken : Resource.localPart resource = rest := by
    rw [hresource, h]
    exact Resource.localPart_file rest
  refine resolve_congr hlocal (Resource.isRemote_of_none hrest) ?_
  rw [htaken, Resource.localPart_of_ne (by rw [hrest]; simp)]

variable (hne : scheme ≠ "file")
  (hmissing : ∀ child, (scheme ++ ":", child) ∉ fs.entries fs.workingDirectory)
include hne hmissing

/-- Spelled in another way the resource is a path that is missing. -/
theorem resolve_spelled_literal (hmeta : Glob.hasMeta rest = false) :
    ∃ e, Listing.resolve fs resource recursive = .error (missing resource e) := by
  have hkept : Resource.localPart resource = resource :=
    Resource.localPart_of_ne (by rw [hscheme]; simpa using hne)
  have hempty : resource ≠ "" := by
    rw [hresource]
    simp
  obtain ⟨e, he⟩ := resolve_first_missing (pieces_scheme hscheme hresource)
    (isName_scheme hscheme) hmissing
  exact ⟨e, resolve_literal_missing hlocal hkept ((hasMeta_resource hscheme hresource).trans hmeta)
    hempty he⟩

include hrest in
/-- The fault tells the whole resource, so it is none that the rest of it has. -/
theorem resolve_spelled_ne (hmeta : Glob.hasMeta rest = false) :
    Listing.resolve fs resource recursive ≠ Listing.resolve fs rest recursive := by
  have hspelled : ∃ e, Listing.resolve fs resource recursive = .error (missing resource e) :=
    resolve_spelled_literal hscheme hlocal hresource hne hmissing hmeta
  obtain ⟨e, he⟩ := hspelled
  have hplain : Resource.localPart rest = rest := Resource.localPart_of_ne (by rw [hrest]; simp)
  rw [he]
  intro hsame
  rcases fault_of_literal (Resource.isRemote_of_none hrest) hplain hmeta hsame.symm with
    hnone | ⟨e', hother⟩ | htold
  · -- the texts of the two faults begin with different letters
    have hhead := congrArg (fun fault : Fault => fault.message.toList.head?) hnone
    simp only [head?_missing] at hhead
    cases hhead
  · -- a missing path is told whole, and the resource is longer than what is behind its scheme
    have hlength := congrArg String.length (missing_inj hother)
    rw [hresource, String.length_append, String.length_append] at hlength
    have : "://".length = 3 := rfl
    omega
  · exact not_told_missing _ _ htold

/-- Spelled in another way a pattern has no directory to begin with. -/
theorem resolve_spelled_glob (hmeta : Glob.hasMeta rest = true) :
    Listing.resolve fs resource recursive = .ok [] := by
  have hkept : Resource.localPart resource = resource :=
    Resource.localPart_of_ne (by rw [hscheme]; simpa using hne)
  refine resolve_glob_missing hlocal hkept ((hasMeta_resource hscheme hresource).trans hmeta)
    (pieces_scheme hscheme hresource) (isName_scheme hscheme) ?_ hmissing
  rw [hasMeta_append, hasMeta_scheme hscheme]
  rfl

end

/-- **Which local resources list what stands behind their scheme.**  With the scheme `file` in
lower case all do.  With another spelling none does where the working directory has no entry of
that name, but for a pattern that finds nothing: the resource itself is then a missing path, or a
pattern without a directory.  So among resources without a pattern only those in lower case are
listed right in every file system. -/
theorem resolve_scheme_iff (hscheme : Resource.scheme? resource = some scheme)
    (hlocal : Resource.isRemote resource = false) (hresource : resource = scheme ++ "://" ++ rest)
    (hrest : Resource.scheme? rest = none) (recursive : Bool) :
    (scheme = "file" → ∀ fs,
      Listing.resolve fs resource recursive = Listing.resolve fs rest recursive) ∧
    (scheme ≠ "file" → ∀ fs : FileSystem,
      (∀ child, (scheme ++ ":", child) ∉ fs.entries fs.workingDirectory) →
      (Listing.resolve fs resource recursive = Listing.resolve fs rest recursive ↔
        Glob.hasMeta rest = true ∧ Listing.resolve fs rest recursive = .ok [])) ∧
    (Glob.hasMeta rest = false →
      ((∀ fs, Listing.resolve fs resource recursive = Listing.resolve fs rest recursive) ↔
        scheme = "file")) := by
  refine ⟨fun h fs => resolve_lower hlocal hresource hrest h,
    fun hne fs hmissing => ?_, fun hmeta => ⟨fun hall => ?_, fun h fs =>
      resolve_lower hlocal hresource hrest h⟩⟩
  · cases hmeta : Glob.hasMeta rest with
    | false =>
      have hdiffer : Listing.resolve fs resource recursive ≠ Listing.resolve fs rest recursive :=
        resolve_spelled_ne hscheme hlocal hresource hrest hne hmissing hmeta
      exact ⟨fun hsame => absurd hsame hdiffer, fun h => nomatch h.1⟩
    | true =>
      rw [resolve_spelled_glob hscheme hlocal hresource hne hmissing hmeta, eq_comm]
      exact ⟨fun h => ⟨rfl, h⟩, fun h => h.2⟩
  · by_contra hne
    have hmissing : ∀ child, (scheme ++ ":", child) ∉
        FileSystem.empty.entries FileSystem.empty.workingDirectory := fun _ h => nomatch h
    exact resolve_spelled_ne hscheme hlocal hresource hrest hne hmissing hmeta (hall .empty)

theorem missing_shelf (child : NodeId) :
    ("FILE" ++ ":", child) ∉ shelf.entries shelf.workingDirectory := by
  intro hentry
  have hmem : (0, "FILE:", child) ∈
      [(0, "d", 1), (1, ".h", 2), (1, "b", 3), (1, "e", 4), (4, "c", 5)] := mem_entries_shelf hentry
  simp at hmem

/-- a directory behind the scheme in lower case, and in capital letters -/
theorem resolve_scheme_iff_capital :
    Resource.scheme? "file:///d" = some "file" ∧ Resource.isRemote "file:///d" = false ∧
      "file:///d" = "file" ++ "://" ++ "/d" ∧
      Resource.scheme? "FILE:///d" = some "FILE" ∧ Resource.isRemote "FILE:///d" = false ∧
      "FILE:///d" = "FILE" ++ "://" ++ "/d" ∧ Resource.scheme? "/d" = none ∧
      (∀ child, ("FILE" ++ ":", child) ∉ shelf.entries shelf.workingDirectory) ∧
      Listing.resolve shelf "file:///d" true = Listing.resolve shelf "/d" true ∧
      ¬Listing.resolve shelf "FILE:///d" true = Listing.resolve shelf "/d" true := by
  have hlower : Resource.scheme? "file:///d" = some "file" := by decide
  have hscheme : Resource.scheme? "FILE:///d" = some "FILE" := by decide
  have hlocal : Resource.isRemote "file:///d" = false :=
    Resource.isRemote_of_lower hlower (by decide)
  have hlocal' : Resource.isRemote "FILE:///d" = false :=
    Resource.isRemote_of_lower hscheme (by decide)
  have hresource : "file:///d" = "file" ++ "://" ++ "/d" := by decide
  have hresource' : "FILE:///d" = "FILE" ++ "://" ++ "/d" := by decide
  have hrest : Resource.scheme? "/d" = none := by decide
  obtain ⟨htaken, -⟩ := resolve_scheme_iff hlower hlocal hresource hrest true
  obtain ⟨-, hspelled, -⟩ := resolve_scheme_iff hscheme hlocal' hresource' hrest true
  refine ⟨hlower, hlocal, hresource, hscheme, hlocal', hresource', hrest, missing_shelf,
    htaken rfl shelf, fun hsame => ?_⟩
  obtain ⟨hglob, -⟩ := (hspelled (by decide) shelf missing_shelf).1 hsame
  cases hglob

/-- **The scheme in capital letters loses a directory**: it is local, and its listing fails. -/
theorem listing_lost_capital :
    Resource.scheme? "FILE:///d" = some "FILE" ∧ Resource.isRemote "FILE:///d" = false ∧
      Resource.scheme? "/d" = none ∧ (∃ files, Listing.resolve shelf "/d" true = .ok files) ∧
      ∃ e, Listing.resolve shelf "FILE:///d" true = .error (missing "FILE:///d" e) := by
  have hscheme : Resource.scheme? "FILE:///d" = some "FILE" := by decide
  have hlocal : Resource.isRemote "FILE:///d" = false :=
    Resource.isRemote_of_lower hscheme (by decide)
  have hresource : "FILE:///d" = "FILE" ++ "://" ++ "/d" := by decide
  have hrest : Resource.scheme? "/d" = none := by decide
  exact ⟨hscheme, hlocal, hrest, exists_resolve_shelf true,
    resolve_spelled_literal hscheme hlocal hresource (by decide) missing_shelf (by decide)⟩

end Listing

end Splittable
