import Splittable.FileSystem.Path
import Mathlib.Data.List.Lex
import Mathlib.Data.Prod.Lex
import Mathlib.Data.String.Basic

/-!
# Names joined to paths

A path that grows by names grows by these steps, and paths are in a total order of their steps.

* `Path.IsName`            what a name below a directory can be;
* `Path.joinAll`           the path that names lead to from a directory;
* `Path.names_join`, `components_joinAll`   its pieces and its steps;
* `Path.key`               the place of a path in a linear order;
* `Path.le_iff`, `same_iff`   listings are sorted by it.
-/

namespace Splittable.Path

/-! ## pieces -/

theorem splitAt_ne_nil (separator : Char) (cs : List Char) : splitAt separator cs ≠ [] := by
  cases cs with
  | nil => exact List.cons_ne_nil _ _
  | cons c cs =>
    unfold splitAt
    split
    · exact List.cons_ne_nil _ _
    · split
      · exact List.cons_ne_nil _ _
      · exact List.cons_ne_nil _ _

theorem splitAt_append (separator : Char) (cs ds : List Char) :
    splitAt separator (cs ++ separator :: ds) =
      splitAt separator cs ++ splitAt separator ds := by
  induction cs with
  | nil =>
    rw [List.nil_append]
    simp [splitAt]
  | cons c cs ih =>
    rw [List.cons_append, splitAt, splitAt, ih]
    by_cases hc : c = separator
    · rw [if_pos hc, if_pos hc]
      rfl
    · rw [if_neg hc, if_neg hc]
      cases hcs : splitAt separator cs with
      | nil => exact absurd hcs (splitAt_ne_nil separator cs)
      | cons piece rest => rfl

theorem splitAt_of_not_mem {separator : Char} {cs : List Char} (h : separator ∉ cs) :
    splitAt separator cs = [cs] := by
  induction cs with
  | nil => rfl
  | cons c cs ih =>
    rw [List.mem_cons, not_or] at h
    rw [splitAt, if_neg (Ne.symm h.1), ih h.2]

/-- Every other character is in one of the pieces. -/
theorem exists_mem_splitAt {separator c : Char} {cs : List Char} (h : c ∈ cs)
    (hne : c ≠ separator) : ∃ piece ∈ splitAt separator cs, c ∈ piece := by
  induction cs with
  | nil => cases h
  | cons d ds ih =>
    unfold splitAt
    by_cases hd : d = separator
    · rw [if_pos hd]
      obtain ⟨piece, hpiece, hc⟩ := ih ((List.mem_cons.1 h).resolve_left (by rwa [hd]))
      exact ⟨piece, List.mem_cons_of_mem _ hpiece, hc⟩
    · rw [if_neg hd]
      cases hds : splitAt separator ds with
      | nil => exact absurd hds (splitAt_ne_nil separator ds)
      | cons piece rest =>
        rcases List.mem_cons.1 h with rfl | hmem
        · exact ⟨_, List.mem_cons_self, List.mem_cons_self⟩
        · obtain ⟨found, hfound, hc⟩ := ih hmem
          rw [hds] at hfound
          rcases List.mem_cons.1 hfound with rfl | hfound
          · exact ⟨_, List.mem_cons_self, List.mem_cons_of_mem _ hc⟩
          · exact ⟨found, List.mem_cons_of_mem _ hfound, hc⟩

/-- The pieces of a path and those of a name below it: the name comes behind, in place of the
empty piece where the path ends with a separator. -/
theorem pieces_join (path : String) {name : String} (hname : '/' ∉ name.toList) :
    ∃ front, (pieces path = front ∨ pieces path = front ++ [""]) ∧
      pieces (join path name) = front ++ [name] ∧ front ≠ [] := by
  have hlast : (splitAt '/' name.toList).map String.ofList = [name] := by
    rw [splitAt_of_not_mem hname]
    simp
  unfold join pieces
  split
  · rename_i hslash
    obtain ⟨front, hfront⟩ := List.getLast?_eq_some_iff.1 hslash
    refine ⟨(splitAt '/' front).map String.ofList, .inr ?_, ?_, ?_⟩
    · rw [hfront, splitAt_append, List.map_append]
      rfl
    · rw [String.toList_append, hfront, List.append_assoc, List.singleton_append, splitAt_append,
        List.map_append, hlast]
    · simp [splitAt_ne_nil]
  · refine ⟨(splitAt '/' path.toList).map String.ofList, .inl rfl, ?_, ?_⟩
    · have htext : (path ++ "/" ++ name).toList = path.toList ++ '/' :: name.toList := by simp
      rw [htext, splitAt_append, List.map_append, hlast]
    · simp [splitAt_ne_nil]

theorem pieces_cons {name : String} (hname : '/' ∉ name.toList) (rest : String) :
    pieces (name ++ "/" ++ rest) = name :: pieces rest := by
  have htext : (name ++ "/" ++ rest).toList = name.toList ++ '/' :: rest.toList := by simp
  unfold pieces
  rw [htext, splitAt_append, splitAt_of_not_mem hname, List.map_append]
  simp

/-- Joined names begin with the first of them. -/
theorem pieces_intercalate {name : String} (hname : '/' ∉ name.toList) (names : List String) :
    ∃ more, pieces (String.intercalate "/" (name :: names)) = name :: more := by
  cases names with
  | nil =>
    refine ⟨[], ?_⟩
    rw [String.intercalate_singleton]
    unfold pieces
    rw [splitAt_of_not_mem hname]
    simp
  | cons second names =>
    rw [String.intercalate_cons_cons]
    exact ⟨_, pieces_cons hname _⟩

theorem isAbsolute_of_pieces {path name : String} {more : List String}
    (h : pieces path = name :: more) (hname : name ≠ "") : isAbsolute path = false := by
  rw [Bool.eq_false_iff]
  intro habsolute
  obtain ⟨cs, hcs⟩ : ∃ cs, path.toList = '/' :: cs := by
    unfold isAbsolute at habsolute
    rw [beq_iff_eq] at habsolute
    exact ⟨_, (List.cons_head?_tail habsolute).symm⟩
  unfold pieces at h
  rw [hcs, ← List.nil_append ('/' :: cs), splitAt_append] at h
  exact hname (List.cons.inj h).1.symm

/-! ## steps -/

/-- What an entry of a directory can be called. -/
structure IsName (name : String) : Prop where
  ne_empty : name ≠ ""
  ne_current : name ≠ "."
  ne_parent : name ≠ ".."
  separator : '/' ∉ name.toList
  nul : '\x00' ∉ name.toList

instance (name : String) : Decidable (IsName name) :=
  decidable_of_iff
    (name ≠ "" ∧ name ≠ "." ∧ name ≠ ".." ∧ '/' ∉ name.toList ∧ '\x00' ∉ name.toList)
    ⟨fun ⟨h₁, h₂, h₃, h₄, h₅⟩ => ⟨h₁, h₂, h₃, h₄, h₅⟩,
      fun ⟨h₁, h₂, h₃, h₄, h₅⟩ => ⟨h₁, h₂, h₃, h₄, h₅⟩⟩

theorem toList_ne_nil {path : String} (h : path ≠ "") : path.toList ≠ [] :=
  fun e => h (String.toList_eq_nil_iff.1 e)

theorem isAbsolute_join {path : String} (h : path ≠ "") (name : String) :
    isAbsolute (join path name) = isAbsolute path := by
  have hhead : ∀ rest : List Char, (path.toList ++ rest).head? = path.toList.head? := by
    intro rest
    cases hpath : path.toList with
    | nil => exact absurd hpath (toList_ne_nil h)
    | cons c cs => rfl
  unfold isAbsolute join
  split
  · rw [String.toList_append, hhead]
  · rw [String.toList_append, String.toList_append, List.append_assoc, hhead]

theorem toList_join (path name : String) :
    ∃ front, path.toList <+: front ∧ (join path name).toList = front ++ name.toList := by
  unfold join
  split
  · exact ⟨path.toList, List.prefix_refl _, String.toList_append⟩
  · exact ⟨path.toList ++ ['/'], List.prefix_append _ _, by simp⟩

theorem utf8ByteSize_join (path name : String) :
    (join path name).utf8ByteSize ≤ path.utf8ByteSize + 1 + name.utf8ByteSize := by
  unfold join
  split
  · rw [String.utf8ByteSize_append]
    omega
  · rw [String.utf8ByteSize_append, String.utf8ByteSize_append]
    exact Nat.le_refl _

theorem join_ne_empty (path : String) {name : String} (h : name ≠ "") : join path name ≠ "" := by
  intro e
  obtain ⟨front, -, hjoin⟩ := toList_join path name
  rw [e] at hjoin
  exact toList_ne_nil h (List.append_eq_nil_iff.1 hjoin.symm).2

/-- No path that ends in a name asks for a directory. -/
theorem getLast?_join (path : String) {name : String} (h : IsName name) :
    (join path name).toList.getLast? ≠ some '/' := by
  obtain ⟨front, -, hjoin⟩ := toList_join path name
  rw [hjoin, List.getLast?_append_of_ne_nil _ (toList_ne_nil h.ne_empty)]
  exact fun e => h.separator (List.mem_of_getLast? e)

theorem nul_join {path name : String} (hpath : '\x00' ∉ path.toList) (hname : IsName name) :
    '\x00' ∉ (join path name).toList := by
  unfold join
  split
  · simp [hpath, hname.nul]
  · simp [hpath, hname.nul]

/-- The names in a path that grows by a name. -/
theorem names_join (path : String) {name : String} (h : IsName name) :
    (pieces (join path name)).filter (· ≠ "") = (pieces path).filter (· ≠ "") ++ [name] := by
  obtain ⟨front, hpath | hpath, hjoin, -⟩ := pieces_join path h.separator
  · rw [hjoin, hpath]
    simp [h.ne_empty]
  · rw [hjoin, hpath]
    simp [h.ne_empty]

theorem laterComponents_append (ps qs : List String) :
    laterComponents (ps ++ qs) = laterComponents ps ++ laterComponents qs := by
  unfold laterComponents
  rw [List.filter_append, List.map_append]

theorem laterComponents_name {name : String} (h : IsName name) :
    laterComponents [name] = [.name name] := by
  simp [laterComponents, h.ne_empty, h.ne_current, h.ne_parent]

/-- A name is one more step. -/
theorem components_join {path name : String} (hpath : path ≠ "") (hname : IsName name) :
    components (join path name) = components path ++ [.name name] := by
  obtain ⟨front, hpieces, hjoin, hne⟩ := pieces_join path hname.separator
  have hlater : laterComponents (pieces (join path name)) =
      laterComponents (pieces path) ++ [.name name] := by
    rw [hjoin, laterComponents_append, laterComponents_name hname]
    rcases hpieces with hpieces | hpieces
    · rw [hpieces]
    · rw [hpieces, laterComponents_append]
      simp [laterComponents]
  have hhead : (pieces (join path name)).head? = (pieces path).head? := by
    rw [hjoin, List.head?_append_of_ne_nil _ hne]
    rcases hpieces with hpieces | hpieces
    · rw [hpieces]
    · rw [hpieces, List.head?_append_of_ne_nil _ hne]
  unfold components
  dsimp only
  rw [isAbsolute_join hpath, hhead, hlater]
  split
  · rfl
  · split
    · rfl
    · rfl

/-! ## many names -/

/-- the path that names lead to, from the directory at a path -/
def joinAll (path : String) (names : List String) : String := names.foldl join path

@[simp] theorem joinAll_cons (path name : String) (names : List String) :
    joinAll path (name :: names) = joinAll (join path name) names := rfl

theorem joinAll_append (path : String) (names more : List String) :
    joinAll path (names ++ more) = joinAll (joinAll path names) more := List.foldl_append

theorem components_joinAll {path : String} {names : List String} (hpath : path ≠ "")
    (hnames : ∀ name ∈ names, IsName name) :
    components (joinAll path names) = components path ++ names.map .name := by
  induction names generalizing path with
  | nil => exact (List.append_nil _).symm
  | cons name names ih =>
    have hname := hnames name List.mem_cons_self
    rw [joinAll_cons, ih (join_ne_empty path hname.ne_empty)
      (fun n hn => hnames n (List.mem_cons_of_mem _ hn)), components_join hpath hname,
      List.append_assoc]
    rfl

/-- Names that make the same steps from one directory are the same. -/
theorem joinAll_inj {path : String} {names more : List String} (hpath : path ≠ "")
    (hnames : ∀ name ∈ names, IsName name) (hmore : ∀ name ∈ more, IsName name)
    (h : same (joinAll path names) (joinAll path more) = true) : names = more := by
  unfold same at h
  rw [beq_iff_eq, components_joinAll hpath hnames, components_joinAll hpath hmore] at h
  exact List.map_injective_iff.2 (fun _ _ e => Component.name.inj e) (List.append_cancel_left h)

/-! ## the order of paths -/

/-- the place of a step: its rank, and for names their characters -/
def Component.key (c : Component) : ℕ ×ₗ String :=
  toLex (c.rank, match c with | .name n => n | _ => "")

/-- the place of a path in the order of listings -/
def key (path : String) : List (ℕ ×ₗ String) := (components path).map Component.key

theorem Component.key_injective : Function.Injective Component.key := by
  intro a b h
  cases a <;> cases b <;> simp_all [Component.key, Component.rank]

theorem Component.lt_iff (a b : Component) : a.lt b = true ↔ a.key < b.key := by
  cases a <;> cases b <;>
    simp [Component.lt, Component.key, Component.rank, Prod.Lex.toLex_lt_toLex]

theorem componentsLt_iff (as bs : List Component) :
    componentsLt as bs = true ↔ as.map Component.key < bs.map Component.key := by
  induction as generalizing bs with
  | nil =>
    cases bs with
    | nil => simp [componentsLt]
    | cons b bs => simp [componentsLt]
  | cons a as ih =>
    cases bs with
    | nil => simp [componentsLt]
    | cons b bs =>
      rw [List.map_cons, List.map_cons, List.cons_lt_cons_iff, ← ih, ← Component.lt_iff,
        Component.key_injective.eq_iff]
      simp [componentsLt]

theorem le_iff (a b : String) : le a b = true ↔ key a ≤ key b := by
  unfold le
  rw [Bool.not_eq_true', ← Bool.not_eq_true, componentsLt_iff]
  exact not_lt

theorem same_iff (a b : String) : same a b = true ↔ key a = key b := by
  unfold same key
  rw [beq_iff_eq]
  exact (List.map_injective_iff.2 Component.key_injective).eq_iff.symm

/-- One path comes before another in the order of their components. -/
def Before (a b : String) : Prop := componentsLt (components a) (components b) = true

theorem before_iff (a b : String) : Before a b ↔ key a < key b := componentsLt_iff _ _

end Splittable.Path
