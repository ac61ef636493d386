import Splittable.Proofs.FileSystem.Survey

/-!
# Walks before and after an entry is added

A directory gets one more entry.  A walk meets what it met before, and in between what is at the
new entry and below it.

* `Walk.follow_grown`    an entry that was there is followed as before;
* `Walk.look_grown`, `survey_grown`, `events_grown`   what is met off the new entry is what was met;
* `Walk.Trips`           a fault is met at an entry or below it;
* `Walk.trips_of_lost`   such as at a link that leads nowhere;
* `Walk.Trips.link_or_directory`   and only at a link, or where the walk passes through a directory.
-/

namespace Splittable.Walk

open FileSystem

variable {walk : Walk} {fs after : FileSystem} {directory child : NodeId} {name : String}

/-! ## what is met off the new entry -/

theorem follow_grown (ha : Adds fs after directory name child) {inside : List (NodeId × String)}
    {path : String} {id : NodeId} (hid : id < fs.nodes.size)
    (hlink : ∀ target, fs.node? id = some (.link target) →
      after.resolve path = fs.resolve path) :
    follow after inside path id = follow fs inside path id := by
  by_cases htarget : ∃ target, fs.node? id = some (.link target)
  · obtain ⟨target, htarget⟩ := htarget
    unfold follow
    rw [htarget, (ha.link_iff hid).2 htarget]
    dsimp only
    rw [hlink target htarget]
  · rw [not_exists] at htarget
    rw [follow_of_not_link htarget,
      follow_of_not_link fun target h => htarget target ((ha.link_iff hid).1 h)]

theorem look_grown (ha : Adds fs after directory name child) {inside : List (NodeId × String)}
    {path : String} {way : List (NodeId × String)} {item : String × NodeId}
    {below below' : List (NodeId × String) → String → List (NodeId × String) → NodeId → List Event}
    (hway : (directory, name) ∉ way)
    (hfollow : follow after inside path item.2 = follow fs inside path item.2)
    (hlt : ∀ id, follow fs inside path item.2 = .ok id → id < fs.nodes.size)
    (hbelow : ∀ id, follow fs inside path item.2 = .ok id →
      (∀ e ∈ below ((id, path) :: inside) path way id,
        e ∈ walk.look fs inside path way below item) →
      path.utf8ByteSize < pathLimit →
      below ((id, path) :: inside) path way id =
        (below' ((id, path) :: inside) path way id).filter fun e => (directory, name) ∉ e.way) :
    walk.look fs inside path way below item =
      (walk.look after inside path way below' item).filter fun e => (directory, name) ∉ e.way := by
  unfold look at hbelow ⊢
  rw [hfollow]
  cases hid : follow fs inside path item.2 with
  | error fault => simp [hway]
  | ok id =>
    dsimp only
    rw [ha.isDirectory_eq (hlt id hid)]
    have hhere : ∀ es : List Event, ((if walk.least ≤ way.length then
        [(⟨way, .ok ⟨path, way.map (·.2), id⟩⟩ : Event)] else []) ++ es).filter
          (fun e => (directory, name) ∉ e.way) =
        (if walk.least ≤ way.length then [⟨way, .ok ⟨path, way.map (·.2), id⟩⟩] else []) ++
          es.filter fun e => (directory, name) ∉ e.way := by
      intro es
      split <;> simp [hway]
    split
    · rfl
    · split
      · split
        · rw [hhere]
          simp [hway]
        · rename_i hvisible henters hshort
          rw [hhere, ← hbelow id hid ?_ (Nat.not_le.1 hshort)]
          intro e he
          rw [hid]
          dsimp only
          rw [if_neg hvisible, if_pos henters, if_neg hshort]
          exact List.mem_append_right _ he
      · simpa using (hhere []).symm

/-- **Below a directory, what is met off the new entry is what was met.**  No link that was there
may lead elsewhere, which is so where all of them led somewhere. -/
theorem survey_grown (ha : Adds fs after directory name child) (hw : WellFormed fs) {fuel : Nat}
    {inside way : List (NodeId × String)} {path : String} {id : NodeId}
    (hpath : fs.resolve path = .ok id) (hway : (directory, name) ∉ way)
    (hlinks : KeepsLinks fs after ∨ ∀ e ∈ walk.survey fs fuel inside path way id, ¬e.Ends) :
    walk.survey fs fuel inside path way id =
      (walk.survey after fuel inside path way id).filter fun e => (directory, name) ∉ e.way := by
  induction fuel generalizing inside way path id with
  | zero => rfl
  | succ fuel ih =>
    -- an entry that was there
    have hitem : ∀ item ∈ fs.entries id, (directory, name) ≠ (id, item.1) →
        look walk fs inside (Path.join path item.1) (way ++ [(id, item.1)]) (walk.survey fs fuel)
            item =
          (look walk after inside (Path.join path item.1) (way ++ [(id, item.1)])
            (walk.survey after fuel) item).filter fun e => (directory, name) ∉ e.way := by
      intro item hitem hne
      have hnew : (directory, name) ∉ way ++ [(id, item.1)] := by
        simpa [hway] using hne
      have hmet : ∀ e ∈ look walk fs inside (Path.join path item.1) (way ++ [(id, item.1)])
          (walk.survey fs fuel) item, e ∈ walk.survey fs (fuel + 1) inside path way id :=
        fun e he => List.mem_flatMap.2 ⟨item, hitem, he⟩
      refine look_grown ha hnew (follow_grown ha (hw.child hitem) fun target htarget => ?_)
        (fun target h => (resolve_of_follow hw hpath hitem h).1) fun target h hsub hshort =>
        ih ((resolve_of_follow hw hpath hitem h).2 hshort) hnew
          (hlinks.imp_right fun hquiet e he => hquiet e (hmet e (hsub e he)))
      rcases hlinks with hkeeps | hquiet
      · exact hkeeps path id item.1 item.2 target hpath hitem htarget
      · cases hfollow : follow fs inside (Path.join path item.1) item.2 with
        | error fault =>
          exact (hquiet _ (hmet _ (mem_look_iff.2 (.inl ⟨fault, hfollow, rfl⟩))) ⟨fault, rfl⟩).elim
        | ok target =>
          rcases follow_eq_ok hfollow with ⟨hlink, -⟩ | ⟨-, hresolve, -⟩
          · exact (hlink _ htarget).elim
          · rw [hresolve, ha.resolve_eq hw hresolve]
    rw [survey, survey, List.filter_flatMap]
    by_cases hid : id = directory
    · subst hid
      obtain ⟨front, back, hbefore, hafter, hnames⟩ := ha.exists_entries
      have hold : ∀ items : List (String × NodeId), (∀ item ∈ items, item ∈ fs.entries id) →
          (items.flatMap fun item => look walk fs inside (Path.join path item.1)
              (way ++ [(id, item.1)]) (walk.survey fs fuel) item) =
            items.flatMap fun item => (look walk after inside (Path.join path item.1)
              (way ++ [(id, item.1)]) (walk.survey after fuel) item).filter
                fun e => (id, name) ∉ e.way :=
        fun items hitems => List.flatMap_congr fun item h => hitem item (hitems item h) fun e =>
          hnames item (hitems item h) (Prod.mk.inj e).2.symm
      -- all that is met at the new entry has it on the way
      have hnew : (look walk after inside (Path.join path name) (way ++ [(id, name)])
          (walk.survey after fuel) (name, child)).filter (fun e => (id, name) ∉ e.way) = [] := by
        refine List.filter_eq_nil_iff.2 fun e he => ?_
        have hprefix : way ++ [(id, name)] <+: e.way := by
          rcases mem_look_iff.1 he with ⟨_, -, rfl⟩ | ⟨_, -, -, ⟨-, rfl⟩ | ⟨-, -, ⟨-, rfl⟩ | h⟩⟩
          · exact List.prefix_refl _
          · exact List.prefix_refl _
          · exact List.prefix_refl _
          · exact (meets_of_mem_survey h.2).prefix_way
        simpa using hprefix.subset (List.mem_append_right _ (List.mem_singleton_self _))
      rw [hafter, List.flatMap_append, List.flatMap_cons, hnew, List.nil_append, hbefore,
        List.flatMap_append, hold front fun i hi => hbefore ▸ List.mem_append_left _ hi,
        hold back fun i hi => hbefore ▸ List.mem_append_right _ hi]
    · rw [ha.entries_eq (hw.resolve_lt hpath) hid]
      exact List.flatMap_congr fun item h => hitem item h fun e => hid (Prod.mk.inj e).1.symm

theorem depthLimit_le (ha : Adds fs after directory name child) :
    depthLimit fs ≤ depthLimit after := by
  have h := Nat.succ_le_succ ha.size_le
  exact Nat.mul_le_mul h h

/-- **A walk from a directory that was there meets off the new entry what it met.** -/
theorem events_grown (walk : Walk) (ha : Adds fs after directory name child) (hw : WellFormed fs)
    {path : String} (hpath : (∃ id, fs.resolve path = .ok id) ∨ pathLimit ≤ path.utf8ByteSize)
    (hlinks : KeepsLinks fs after ∨ ∀ e ∈ walk.events fs path, ¬e.Ends) :
    walk.events fs path =
      (walk.events after path).filter fun e => (directory, name) ∉ e.way := by
  unfold events at hlinks ⊢
  rcases hpath with ⟨id, hid⟩ | hlong
  · rw [hid] at hlinks
    rw [hid, ha.resolve_eq hw hid]
    dsimp only at hlinks ⊢
    rw [← survey_of_le hw (depthLimit_le ha)] at hlinks ⊢
    exact survey_grown ha hw hid List.not_mem_nil hlinks
  · obtain ⟨e, he⟩ := locate_of_long hlong
    unfold resolve
    rw [he, he]
    simp

/-! ## faults at the new entry -/

/-- A walk meets a fault at an entry or below it. -/
def Trips (walk : Walk) (fs : FileSystem) (path : String) (step : NodeId × String) : Prop :=
  ∃ e ∈ walk.events fs path, step ∈ e.way ∧ e.Ends

/-- Where a walk trips it has a fault, that one or one before. -/
theorem Trips.run_ne {path : String} {step : NodeId × String} (h : walk.Trips fs path step) :
    (walk.run fs path).2 ≠ none := by
  obtain ⟨e, he, -, hends⟩ := h
  rw [run_eq]
  exact fun hquiet => upTo_quiet_iff.1 hquiet e he hends

/-- A link that the system refuses to follow, in the directory where the walk starts. -/
theorem trips_of_lost {path target : String} {fault : OsError}
    (hpath : fs.resolve path = .ok directory) (hentry : (name, child) ∈ fs.entries directory)
    (hlink : fs.node? child = some (.link target))
    (hlost : fs.resolve (Path.join path name) = .error fault) :
    walk.Trips fs path (directory, name) := by
  have hfollow : follow fs [(directory, path)] (Path.join path name) child =
      .error (refused (Path.join path name) fault) := by
    unfold follow
    rw [hlink]
    dsimp only
    rw [hlost]
  obtain ⟨fuel, hfuel⟩ : ∃ fuel, depthLimit fs = fuel + 1 :=
    ⟨_, (Nat.succ_pred_eq_of_pos (Nat.mul_pos (Nat.succ_pos _) (Nat.succ_pos _))).symm⟩
  refine ⟨⟨[(directory, name)], .error (refused (Path.join path name) fault)⟩, ?_,
    List.mem_singleton_self _, _, rfl⟩
  unfold events
  rw [hpath, hfuel]
  exact List.mem_flatMap.2 ⟨(name, child), hentry, mem_look_iff.2 (.inl ⟨_, hfollow, rfl⟩)⟩

/-- The last entry of a way, or one before it. -/
theorem mem_way_append {way : List (NodeId × String)} {id c : NodeId} {n : String}
    (hentry : (name, child) ∈ fs.entries directory) (hmem : (n, c) ∈ fs.entries id)
    (h : (directory, name) ∈ way ++ [(id, n)]) :
    (directory, name) ∈ way ∨ (n = name ∧ c = child) := by
  rcases List.mem_append.1 h with h | h
  · exact .inl h
  · cases List.mem_singleton.1 h
    exact .inr ⟨rfl, (Reaches.down hmem (.here c)).unique (.down hentry (.here child))⟩

theorem Meets.link_or_directory {inside way : List (NodeId × String)} {path : String}
    {id : NodeId} {e : Event} (h : Meets walk fs inside path way id e) (hends : e.Ends)
    (hstep : (directory, name) ∈ e.way) (hentry : (name, child) ∈ fs.entries directory)
    (hhidden : walk.visible name = false) :
    (directory, name) ∈ way ∨ (∃ target, fs.node? child = some (.link target)) ∨
      (fs.isDirectory child = true ∧ 1 < walk.least) := by
  -- what is passed through without a look at its name is a directory, or a link to one
  have hpass : ∀ {inside : List (NodeId × String)} {path : String} {depth : Nat} {target : NodeId},
      follow fs inside path child = .ok target →
      (walk.least ≤ depth + 1 → walk.visible name = true) → fs.isDirectory target = true →
      (∃ target, fs.node? child = some (.link target)) ∨
        (fs.isDirectory child = true ∧ 1 < walk.least) := by
    intro inside path depth target hfollow hvisible hdirectory
    rcases follow_eq_ok hfollow with ⟨-, rfl⟩ | ⟨hlink, -⟩
    · refine .inr ⟨hdirectory, Nat.lt_of_not_le fun hleast => ?_⟩
      rw [hvisible (hleast.trans (Nat.le_add_left _ _))] at hhidden
      cases hhidden
    · exact .inl hlink
  induction h with
  | lost hmem hfollow =>
    refine (mem_way_append hentry hmem hstep).imp_right ?_
    rintro ⟨rfl, rfl⟩
    by_contra hnot
    rw [follow_of_not_link fun target h => hnot (.inl ⟨target, h⟩)] at hfollow
    cases hfollow
  | found =>
    obtain ⟨fault, hfault⟩ := hends
    cases hfault
  | long hmem hfollow hvisible hdirectory =>
    refine (mem_way_append hentry hmem hstep).imp_right ?_
    rintro ⟨rfl, rfl⟩
    exact hpass hfollow hvisible hdirectory
  | deeper hmem hfollow hvisible hdirectory _ _ _ ih =>
    rcases ih hends hstep with h | h
    · refine (mem_way_append hentry hmem h).imp_right ?_
      rintro ⟨rfl, rfl⟩
      exact hpass hfollow hvisible hdirectory
    · exact .inr h

/-- At an entry that is not visible a walk trips only over a link, or where the entry is a directory
that it passes through. -/
theorem Trips.link_or_directory {path : String} (h : walk.Trips fs path (directory, name))
    (hentry : (name, child) ∈ fs.entries directory) (hhidden : walk.visible name = false) :
    (∃ target, fs.node? child = some (.link target)) ∨
      (fs.isDirectory child = true ∧ 1 < walk.least) := by
  obtain ⟨e, he, hstep, hends⟩ := h
  unfold events at he
  split at he
  · cases List.mem_singleton.1 he
    cases hstep
  · exact ((meets_of_mem_survey he).link_or_directory hends hstep hentry hhidden).resolve_left
      List.not_mem_nil

end Splittable.Walk
