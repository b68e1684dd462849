import Interpose.Proofs.ClassPaths
import Interpose.Proofs.Directories
/-!
# Searching directories

Roots are searched in order, and the first that holds the file of a class decides. What else a root
may be like is told apart by the first location on the way to the file that is no directory. If
there is nothing at that location, the root lacks the file and the search goes on. If something else
is in the way, a file where a directory is due or a directory in place of the file, then the root is
not passed over, though it does not hold the file either: the search ends there with an error,
whatever the roots behind it hold. A name or a path that is too long ends it as well.

A way is said here by names from a location, and a place on it by how many of the names have been
followed. Nothing is assumed of the tree, which may have entries that no way leads to.

## Main definitions

* `FileTree.Opens`: names lead through directories
* `FileTree.Holds`, `FileTree.Lacks`, `FileTree.Obstructs`: what there may be along a path
* `Resources.Reaches`: a search comes to a root
* `classFileNames`: the names that lead from a root to the file of a class

## Main results

* `FileTree.walk_eq_error_iff`: where a walk ends too early
* `FileTree.read_eq_ok_iff`, `FileTree.read_eq_notFound_iff`, `FileTree.read_eq_error_iff`
* `Resources.readBelow_eq_some_iff`, `Resources.readBelow_eq_none_iff`,
  `Resources.readBelow_eq_error_iff`
* `read_directories_in_order`: where a class is read from
-/

namespace Interpose

/-- A path that the file system takes. -/
def Path.IsAdmissible (p : Path) : Prop :=
  '\x00' ∉ p ∧ p.text.utf8ByteSize ≤ FileTree.maxPath

namespace FileTree

/-- Where the first names of a way lead. -/
def stop (place : Location) (names : List String) (i : Nat) : Location :=
  (names.take i).foldl step place

/-- The first names of a way lead through directories, and none of them is too long. -/
structure Opens (t : FileTree) (place : Location) (names : List String) (i : Nat) : Prop where
  directory : ∀ j < i, t.entry? (stop place names j) = some .directory
  fits : ∀ name ∈ names.take i, name.utf8ByteSize ≤ maxName

/-- Why a walk cannot go on from a location to a name in it. -/
inductive Bars (t : FileTree) (place : Location) (name : String) : FileError → Prop
  | absent (h : t.entry? place = none) : Bars t place name .notFound
  | file {content : Bytes} (h : t.entry? place = some (.file content)) :
    Bars t place name .notADirectory
  | long (hd : t.entry? place = some .directory) (h : maxName < name.utf8ByteSize) :
    Bars t place name .nameTooLong

/-- A path leads through directories to a file. -/
structure Holds (t : FileTree) (p : Path) (content : Bytes) : Prop where
  admissible : p.IsAdmissible
  opens : t.Opens [] p.names p.names.length
  file : t.entry? (stop [] p.names p.names.length) = some (.file content)

/-- A path leads through directories to where nothing is, at its end or before. -/
def Lacks (t : FileTree) (p : Path) : Prop :=
  p.IsAdmissible ∧
    ∃ i ≤ p.names.length, t.Opens [] p.names i ∧ t.entry? (stop [] p.names i) = none

/-- Something is in the way of a path. -/
inductive Obstructs (t : FileTree) (p : Path) : FileError → Prop
  | file {i : Nat} {content : Bytes} (hp : p.IsAdmissible) (hi : i < p.names.length)
    (hopens : t.Opens [] p.names i)
    (h : t.entry? (stop [] p.names i) = some (.file content)) : Obstructs t p .notADirectory
  | directory (hp : p.IsAdmissible) (hopens : t.Opens [] p.names p.names.length)
    (h : t.entry? (stop [] p.names p.names.length) = some .directory) :
    Obstructs t p .isADirectory
  | longName {i : Nat} (hp : p.IsAdmissible) (hi : i < p.names.length)
    (hopens : t.Opens [] p.names i) (hd : t.entry? (stop [] p.names i) = some .directory)
    (h : maxName < p.names[i].utf8ByteSize) : Obstructs t p .nameTooLong
  | longPath (hp : '\x00' ∉ p) (h : maxPath < p.text.utf8ByteSize) : Obstructs t p .nameTooLong
  | nul (h : '\x00' ∈ p) : Obstructs t p .invalidName

variable {t : FileTree} {p : Path} {place q : Location} {name : String} {rest names : List String}
  {i : Nat} {entry : Option Entry} {content : Bytes} {e : FileError}

/-! ### Ways -/

theorem stop_length (place : Location) (names : List String) :
    stop place names names.length = names.foldl step place := by
  rw [stop, List.take_length]

theorem opens_zero (t : FileTree) (place : Location) (names : List String) :
    t.Opens place names 0 :=
  ⟨nofun, nofun⟩

/-- A way opens if its first location is a directory and the way from there opens. -/
theorem opens_cons : t.Opens place (name :: rest) (i + 1) ↔
    t.entry? place = some .directory ∧ name.utf8ByteSize ≤ maxName ∧
      t.Opens (step place name) rest i := by
  constructor
  · rintro ⟨hdirectory, hfits⟩
    refine ⟨hdirectory 0 (Nat.succ_pos i), hfits name List.mem_cons_self, ?_, ?_⟩
    · exact fun j hj => hdirectory (j + 1) (Nat.succ_lt_succ hj)
    · exact fun other hmem => hfits other (List.mem_cons_of_mem name hmem)
  · rintro ⟨hplace, hname, hdirectory, hfits⟩
    constructor
    · rintro (_ | j) hj
      · exact hplace
      · exact hdirectory j (Nat.lt_of_succ_lt_succ hj)
    · intro other hmem
      rcases List.mem_cons.1 hmem with rfl | hmem
      · exact hname
      · exact hfits other hmem

/-- A walk goes on from a directory under a name that is not too long, and from nowhere else. -/
theorem walk_cons (hd : t.entry? place = some .directory) (hname : name.utf8ByteSize ≤ maxName) :
    t.walk place (name :: rest) = t.walk (step place name) rest := by
  rw [walk, hd]
  exact if_neg (Nat.not_lt_of_le hname)

/-- From every location a walk goes on, or something bars it. -/
theorem walk_goes_on_or_bars (t : FileTree) (place : Location) (name : String) :
    (t.entry? place = some .directory ∧ name.utf8ByteSize ≤ maxName) ∨
      ∃ e, t.Bars place name e ∧ ∀ rest, t.walk place (name :: rest) = .error e := by
  cases hplace : t.entry? place with
  | none => exact .inr ⟨_, .absent hplace, fun rest => by rw [walk, hplace]⟩
  | some x =>
    cases x with
    | file content => exact .inr ⟨_, .file hplace, fun rest => by rw [walk, hplace]⟩
    | directory =>
      rcases Nat.lt_or_ge maxName name.utf8ByteSize with hlong | hname
      · refine .inr ⟨_, .long hplace hlong, fun rest => ?_⟩
        rw [walk, hplace]
        exact if_pos hlong
      · exact .inl ⟨rfl, hname⟩

theorem Bars.not_goes_on (h : t.Bars place name e) :
    ¬ (t.entry? place = some .directory ∧ name.utf8ByteSize ≤ maxName) := by
  rintro ⟨hplace, hname⟩
  rcases h with h | h | ⟨-, h⟩
  · rw [hplace] at h
    cases h
  · rw [hplace] at h
    cases h
  · exact Nat.not_lt_of_le hname h

/-- Only one thing bars a walk. -/
theorem Bars.unique {e' : FileError} (h : t.Bars place name e) (h' : t.Bars place name e') :
    e = e' := by
  rcases h with h | h | ⟨h, -⟩ <;> rcases h' with h' | h' | ⟨h', -⟩ <;> first
    | rfl
    | (rw [h] at h'; cases h')

/-- **Walks that arrive.** A walk arrives exactly if it leads through directories. -/
theorem walk_eq_ok_iff : t.walk place names = .ok (q, entry) ↔
    t.Opens place names names.length ∧ q = names.foldl step place ∧ entry = t.entry? q := by
  induction names generalizing place with
  | nil =>
    rw [walk]
    constructor
    · intro h
      cases h
      exact ⟨opens_zero t _ [], rfl, rfl⟩
    · rintro ⟨-, rfl, rfl⟩
      rfl
  | cons name rest ih =>
    rw [List.length_cons, opens_cons]
    rcases walk_goes_on_or_bars t place name with ⟨hplace, hname⟩ | ⟨e, hbars, hwalk⟩
    · rw [walk_cons hplace hname, ih]
      simp [hplace, hname]
    · rw [hwalk rest]
      have hne : Except.error e ≠ Except.ok (q, entry) := by simp
      exact iff_of_false hne fun h => hbars.not_goes_on ⟨h.1.1, h.1.2.1⟩

/-- **Walks that end too early.** A walk fails for what bars it at the end of the part that leads
through directories. -/
theorem walk_eq_error_iff : t.walk place names = .error e ↔
    ∃ i, ∃ hi : i < names.length, t.Opens place names i ∧
      t.Bars (stop place names i) names[i] e := by
  induction names generalizing place with
  | nil => exact iff_of_false nofun fun ⟨_, hi, _⟩ => absurd hi (Nat.not_lt_zero _)
  | cons name rest ih =>
    rcases walk_goes_on_or_bars t place name with ⟨hplace, hname⟩ | ⟨e', hbars, hwalk⟩
    · rw [walk_cons hplace hname, ih]
      constructor
      · rintro ⟨i, hi, hopens, h⟩
        exact ⟨i + 1, Nat.succ_lt_succ hi, opens_cons.2 ⟨hplace, hname, hopens⟩, h⟩
      · rintro ⟨_ | i, hi, hopens, h⟩
        · exact absurd ⟨hplace, hname⟩ h.not_goes_on
        · exact ⟨i, Nat.lt_of_succ_lt_succ hi, (opens_cons.1 hopens).2.2, h⟩
    · rw [hwalk rest]
      constructor
      · intro h
        cases h
        exact ⟨0, Nat.succ_pos _, opens_zero t place _, hbars⟩
      · rintro ⟨_ | i, hi, hopens, h⟩
        · rw [hbars.unique h]
        · obtain ⟨hplace, hname, -⟩ := opens_cons.1 hopens
          exact absurd ⟨hplace, hname⟩ hbars.not_goes_on

/-! ### What is read along a path -/

theorem resolve_of_isAdmissible (hp : p.IsAdmissible) (hd : p.namesDirectory = false) :
    t.resolve p = t.walk [] p.names := by
  obtain ⟨hnul, hlength⟩ := hp
  rw [resolve, if_neg (by simpa using hnul), if_neg (Nat.not_lt_of_le hlength)]
  split
  · next hwalk => rw [if_neg (by simp [hd]), hwalk]
  · rfl

theorem Holds.read (h : t.Holds p content) (hd : p.namesDirectory = false) :
    t.read p = .ok content := by
  have hwalk := walk_eq_ok_iff.2 ⟨h.opens, rfl, rfl⟩
  rw [← stop_length, h.file] at hwalk
  rw [FileTree.read, resolve_of_isAdmissible h.admissible hd, hwalk]

theorem Lacks.read (h : t.Lacks p) (hd : p.namesDirectory = false) :
    t.read p = .error .notFound := by
  obtain ⟨hp, i, hi, hopens, hnone⟩ := h
  rw [FileTree.read, resolve_of_isAdmissible hp hd]
  rcases Nat.lt_or_eq_of_le hi with hi | rfl
  · rw [walk_eq_error_iff.2 ⟨i, hi, hopens, .absent hnone⟩]
  · have hwalk := walk_eq_ok_iff.2 ⟨hopens, rfl, rfl⟩
    rw [← stop_length, hnone] at hwalk
    rw [hwalk]

theorem Obstructs.read (h : t.Obstructs p e) (hd : p.namesDirectory = false) :
    t.read p = .error e := by
  rw [FileTree.read]
  cases h with
  | file hp hi hopens h =>
    rw [resolve_of_isAdmissible hp hd, walk_eq_error_iff.2 ⟨_, hi, hopens, .file h⟩]
  | directory hp hopens h =>
    have hwalk := walk_eq_ok_iff.2 ⟨hopens, rfl, rfl⟩
    rw [← stop_length, h] at hwalk
    rw [resolve_of_isAdmissible hp hd, hwalk]
  | longName hp hi hopens hplace h =>
    rw [resolve_of_isAdmissible hp hd, walk_eq_error_iff.2 ⟨_, hi, hopens, .long hplace h⟩]
  | longPath hp h => rw [resolve, if_neg (by simpa using hp), if_pos h]
  | nul h => rw [resolve, if_pos (by simpa using h)]

theorem Obstructs.ne_notFound (h : t.Obstructs p e) : e ≠ .notFound := by
  rcases h <;> exact nofun

/-- **What there is along a path.** A tree holds a file there, or lacks it, or something is in the
way. -/
theorem holds_or_lacks_or_obstructs (t : FileTree) (p : Path) :
    (∃ content, t.Holds p content) ∨ t.Lacks p ∨ ∃ e, t.Obstructs p e := by
  by_cases hnul : '\x00' ∈ p
  · exact .inr (.inr ⟨_, .nul hnul⟩)
  rcases Nat.lt_or_ge maxPath p.text.utf8ByteSize with hlong | hlength
  · exact .inr (.inr ⟨_, .longPath hnul hlong⟩)
  have hp : p.IsAdmissible := ⟨hnul, hlength⟩
  cases hwalk : t.walk [] p.names with
  | error e =>
    obtain ⟨i, hi, hopens, hbars⟩ := walk_eq_error_iff.1 hwalk
    rcases hbars with h | h | ⟨hplace, h⟩
    · exact .inr (.inl ⟨hp, i, hi.le, hopens, h⟩)
    · exact .inr (.inr ⟨_, .file hp hi hopens h⟩)
    · exact .inr (.inr ⟨_, .longName hp hi hopens hplace h⟩)
  | ok arrival =>
    obtain ⟨hopens, -, -⟩ := walk_eq_ok_iff.1 hwalk
    cases hentry : t.entry? (stop [] p.names p.names.length) with
    | none => exact .inr (.inl ⟨hp, _, le_rfl, hopens, hentry⟩)
    | some x =>
      cases x with
      | file content => exact .inl ⟨content, hp, hopens, hentry⟩
      | directory => exact .inr (.inr ⟨_, .directory hp hopens hentry⟩)

variable (hd : p.namesDirectory = false)
include hd

theorem read_eq_ok_iff : t.read p = .ok content ↔ t.Holds p content := by
  refine ⟨fun hread => ?_, fun h => h.read hd⟩
  rcases holds_or_lacks_or_obstructs t p with ⟨content', h⟩ | h | ⟨e, h⟩
  · rw [h.read hd] at hread
    cases hread
    exact h
  · rw [h.read hd] at hread
    cases hread
  · rw [h.read hd] at hread
    cases hread

theorem read_eq_notFound_iff : t.read p = .error .notFound ↔ t.Lacks p := by
  refine ⟨fun hread => ?_, fun h => h.read hd⟩
  rcases holds_or_lacks_or_obstructs t p with ⟨content, h⟩ | h | ⟨e, h⟩
  · rw [h.read hd] at hread
    cases hread
  · exact h
  · rw [h.read hd] at hread
    cases hread
    exact absurd rfl h.ne_notFound

theorem read_eq_error_iff : t.read p = .error e ∧ e ≠ .notFound ↔ t.Obstructs p e := by
  refine ⟨fun ⟨hread, he⟩ => ?_, fun h => ⟨h.read hd, h.ne_notFound⟩⟩
  rcases holds_or_lacks_or_obstructs t p with ⟨content, h⟩ | h | ⟨e', h⟩
  · rw [h.read hd] at hread
    cases hread
  · rw [h.read hd] at hread
    cases hread
    exact absurd rfl he
  · rw [h.read hd] at hread
    cases hread
    exact h

/-- A file that is not there and that nothing is in the way of is lacking. -/
theorem lacks_iff_of_not_obstructs (h : ∀ e, ¬ t.Obstructs p e) :
    t.Lacks p ↔ ∀ content, ¬ t.Holds p content := by
  constructor
  · intro hlacks content hholds
    have hread := hholds.read hd
    rw [hlacks.read hd] at hread
    cases hread
  · intro hnone
    rcases holds_or_lacks_or_obstructs t p with ⟨content, hholds⟩ | hlacks | ⟨e, hobstructs⟩
    · exact absurd hholds (hnone content)
    · exact hlacks
    · exact absurd hobstructs (h e)

end FileTree

/-! ### Roots in order -/

namespace Resources

variable {files : FileTree} {file root : Path} {roots : List Path} {content : Bytes}
  {fault : ReadFault}

/-- A search comes to a root: all the roots before it lack the file. -/
def Reaches (files : FileTree) (file : Path) (roots : List Path) (root : Path) : Prop :=
  ∃ before after, roots = before ++ root :: after ∧ ∀ other ∈ before, files.Lacks (other.join file)

/-- A search comes to the first root, and to those it comes to behind it if that one lacks the
file. -/
theorem exists_reaches_cons {P : Path → Prop} :
    (∃ other, Reaches files file (root :: roots) other ∧ P other) ↔ P root ∨
      files.Lacks (root.join file) ∧ ∃ other, Reaches files file roots other ∧ P other := by
  constructor
  · rintro ⟨other, ⟨_ | ⟨first, before⟩, after, heq, hlacks⟩, hother⟩
    · cases heq
      exact .inl hother
    · cases heq
      obtain ⟨hfirst, hbefore⟩ := List.forall_mem_cons.1 hlacks
      exact .inr ⟨hfirst, other, ⟨before, after, rfl, hbefore⟩, hother⟩
  · rintro (hroot | ⟨hlacks, other, ⟨before, after, rfl, hbefore⟩, hother⟩)
    · exact ⟨root, ⟨[], roots, rfl, nofun⟩, hroot⟩
    · exact ⟨other, ⟨root :: before, after, rfl, List.forall_mem_cons.2 ⟨hlacks, hbefore⟩⟩, hother⟩

variable (hfile : ∀ root : Path, (root.join file).namesDirectory = false)
include hfile

/-- **First hit.** A search finds what is below the first root that it comes to and that holds the
file. -/
theorem readBelow_eq_some_iff : readBelow files file roots = .ok (some content) ↔
    ∃ root, Reaches files file roots root ∧ files.Holds (root.join file) content := by
  induction roots with
  | nil => exact iff_of_false nofun fun ⟨_, ⟨before, _, h, _⟩, _⟩ => by simp at h
  | cons root rest ih =>
    rw [exists_reaches_cons, ← ih, ← FileTree.read_eq_ok_iff (hfile root),
      ← FileTree.read_eq_notFound_iff (hfile root), readBelow]
    split
    · next hread => simp [hread]
    · next hread => simp [hread]
    · next e he hread =>
      have hne : ¬ e = .notFound := he
      simp [hread, hne]

theorem readBelow_eq_none_iff : readBelow files file roots = .ok none ↔
    ∀ root ∈ roots, files.Lacks (root.join file) := by
  induction roots with
  | nil => exact iff_of_true rfl nofun
  | cons root rest ih =>
    rw [List.forall_mem_cons, ← ih, ← FileTree.read_eq_notFound_iff (hfile root), readBelow]
    split
    · next hread => simp [hread]
    · next hread => simp [hread]
    · next e he hread =>
      have hne : ¬ e = .notFound := he
      simp [hread, hne]

/-- **What ends a search.** A search fails for what is in the way below a root that it comes to. -/
theorem readBelow_eq_error_iff : readBelow files file roots = .error fault ↔
    ∃ root, Reaches files file roots root ∧
      ∃ e, fault = .file e ∧ files.Obstructs (root.join file) e := by
  induction roots with
  | nil => exact iff_of_false nofun fun ⟨_, ⟨before, _, h, _⟩, _⟩ => by simp at h
  | cons root rest ih =>
    simp only [exists_reaches_cons, ← ih, ← FileTree.read_eq_error_iff (hfile root),
      ← FileTree.read_eq_notFound_iff (hfile root)]
    rw [readBelow]
    split
    · next hread => simp [hread]
    · next hread =>
      rw [hread]
      constructor
      · exact fun h => .inr ⟨rfl, h⟩
      · rintro (⟨e, -, heq, hne⟩ | ⟨-, h⟩)
        · cases heq
          exact absurd rfl hne
        · exact h
    · next e he hread =>
      rw [hread]
      constructor
      · intro h
        cases h
        exact .inl ⟨e, rfl, rfl, he⟩
      · rintro (⟨e', rfl, heq, -⟩ | ⟨heq, -⟩)
        · cases heq
          rfl
        · cases heq
          exact absurd rfl he

end Resources

/-! ### Names of classes -/

namespace Path

variable {base p x : Path}

/-- The end of a path tells whether it denotes a directory. -/
theorem namesDirectory_append (hx : x ≠ []) (p : Path) :
    namesDirectory (p ++ x) = x.namesDirectory := by
  obtain ⟨init, c, rfl⟩ := (List.eq_nil_or_concat x).resolve_left hx
  simp [namesDirectory]

theorem namesDirectory_join_of_ne_nil (hx : x ≠ []) :
    (base.join x).namesDirectory = x.namesDirectory := by
  rw [join]
  split
  · rfl
  split
  · rw [← List.singleton_append, ← List.append_assoc, namesDirectory_append hx]
  · exact namesDirectory_append hx base

theorem trimmed_of_not_namesDirectory (h : p.namesDirectory = false) : p.trimmed = p := by
  rcases List.eq_nil_or_concat p with rfl | ⟨init, c, rfl⟩
  · rfl
  · have hc : (c == '/') = false := by simpa [namesDirectory] using h
    simp [trimmed, hc]

/-- The names along names that are joined one after the other. -/
theorem names_foldl_join {parts : List Path} (h : ∀ part ∈ parts, part.IsName) (base : Path) :
    (parts.foldl join base).names = base.names ++ parts.map String.ofList := by
  induction parts generalizing base with
  | nil => exact (List.append_nil _).symm
  | cons part parts ih =>
    obtain ⟨hpart, hparts⟩ := List.forall_mem_cons.1 h
    rw [List.foldl_cons, ih hparts, names_join hpart, List.append_assoc]
    rfl

/-- An extension of a path is one of its last name. -/
theorem withExtension_join (hx : x.IsName) (extension : String) :
    (base.join x).withExtension extension = base.join (x ++ '.' :: extension.toList) := by
  have hlong : ¬ isAbsolute (x ++ '.' :: extension.toList) := by
    rw [isAbsolute_append hx.ne_nil]
    exact hx.not_isAbsolute
  have hne : base.join x ≠ [] := by
    intro h
    have hnames : (base.join x).names = base.names ++ [String.ofList x] := names_join hx
    simp [h] at hnames
  rw [withExtension, trimmed_of_not_namesDirectory (namesDirectory_join hx),
    if_neg (by simpa using hne), join, join, if_neg hx.not_isAbsolute, if_neg hlong]
  by_cases hs : base.needsSlash
  · rw [if_pos hs, if_pos hs, List.append_assoc]
    rfl
  · rw [if_neg hs, if_neg hs, List.append_assoc]

end Path

/-- The segments of a class name are names: none is empty, and none holds a slash. -/
def IsPlainName (name : String) : Prop :=
  ∀ segment ∈ Text.split '.' name.toList, segment ≠ [] ∧ '/' ∉ segment

instance (name : String) : Decidable (IsPlainName name) :=
  inferInstanceAs (Decidable (∀ segment ∈ Text.split '.' name.toList, segment ≠ [] ∧ '/' ∉ segment))

/-- The names that lead from a root to the file of a class: its segments, the last one with an
extension. -/
def classFileNames (name : String) : List String :=
  let segments := Text.split '.' name.toList
  (segments.dropLast ++ [segments.getLastD [] ++ '.' :: classFileExtension.toList]).map
    String.ofList

section ClassFileNames

variable {name : String}

theorem IsPlainName.isName (h : IsPlainName name) {segment : Path}
    (hmem : segment ∈ Text.split '.' name.toList) : segment.IsName := by
  obtain ⟨hne, hslash⟩ := h segment hmem
  have hdot := Text.not_mem_of_mem_split hmem
  refine ⟨hne, ?_, ?_, hslash⟩
  · rintro rfl
    exact hdot List.mem_cons_self
  · rintro rfl
    exact hdot List.mem_cons_self

/-- The path of a class file ends in a single name. -/
theorem IsPlainName.classFilePath_eq (h : IsPlainName name) :
    ∃ lead last : Path, classFilePath name = lead.join last ∧ ¬ lead.isAbsolute ∧ last.IsName ∧
      lead.names ++ [String.ofList last] = classFileNames name := by
  obtain ⟨init, last, hsplit⟩ :=
    (List.eq_nil_or_concat (Text.split '.' name.toList)).resolve_left (Text.split_ne_nil _ _)
  rw [List.concat_eq_append] at hsplit
  have hinit : ∀ segment ∈ init, Path.IsName segment := fun segment hmem =>
    h.isName (hsplit ▸ List.mem_append_left [last] hmem)
  have hlast : Path.IsName last := h.isName (hsplit ▸ List.mem_append_right init List.mem_cons_self)
  refine ⟨init.foldl Path.join [], last ++ '.' :: classFileExtension.toList, ?_, ?_, ?_, ?_⟩
  · rw [classFilePath, hsplit, List.foldl_append]
    exact Path.withExtension_join hlast classFileExtension
  · rw [Path.isAbsolute_foldl_join, Bool.or_eq_true, List.any_eq_true]
    rintro (hnil | ⟨segment, hmem, habsolute⟩)
    · cases hnil
    · exact (hinit segment hmem).not_isAbsolute habsolute
  · exact Disk.isName_of_extension hlast.no_slash (by decide) (by decide)
  · rw [Path.names_foldl_join hinit, classFileNames, hsplit]
    simp

/-- Below a root, the names of a class come behind those of the root. -/
theorem IsPlainName.names_join_classFilePath (h : IsPlainName name) (root : Path) :
    (root.join (classFilePath name)).names = root.names ++ classFileNames name := by
  obtain ⟨lead, last, heq, hlead, hlast, hnames⟩ := h.classFilePath_eq
  have hrelative : ¬ (lead.join last).isAbsolute := by
    rw [Path.isAbsolute_join, Bool.or_eq_true]
    exact not_or.2 ⟨hlead, hlast.not_isAbsolute⟩
  rw [heq, Path.names_join_of_relative hrelative, Path.names_join hlast, hnames]

theorem IsPlainName.namesDirectory_join (h : IsPlainName name) (root : Path) :
    (root.join (classFilePath name)).namesDirectory = false := by
  obtain ⟨lead, last, heq, -, hlast, -⟩ := h.classFilePath_eq
  have hne : lead.join last ≠ [] := by
    intro hnil
    have hnames : (lead.join last).names = lead.names ++ [String.ofList last] :=
      Path.names_join hlast
    simp [hnil] at hnames
  rw [heq, Path.namesDirectory_join_of_ne_nil hne, Path.namesDirectory_join hlast]

end ClassFileNames

/-- **Where a class is read from.** The roots are searched in order. A root that lacks the file is
passed over, and what is at the first other root decides: the content of the file if the root holds
it, and an error if something is in the way. No class is found if every root lacks the file. Where
nothing is in the way below any root, the first root that holds the file is the one that is read. -/
theorem read_directories_in_order {r : Resources} {roots : List Path}
    (hsource : r.source = .directories roots) {name : String} (hname : IsPlainName name)
    (files : FileTree) :
    (∀ root : Path, (root.join (classFilePath name)).names = root.names ++ classFileNames name) ∧
    (∀ content, r.read files name = .ok (some content) ↔
      ∃ root, Resources.Reaches files (classFilePath name) roots root ∧
        files.Holds (root.join (classFilePath name)) content) ∧
    (r.read files name = .ok none ↔
      ∀ root ∈ roots, files.Lacks (root.join (classFilePath name))) ∧
    (∀ fault, r.read files name = .error fault ↔
      ∃ root, Resources.Reaches files (classFilePath name) roots root ∧
        ∃ e, fault = .file e ∧ files.Obstructs (root.join (classFilePath name)) e) ∧
    ((∀ root ∈ roots, ∀ e, ¬ files.Obstructs (root.join (classFilePath name)) e) →
      (∀ content, r.read files name = .ok (some content) ↔
        ∃ before root after, roots = before ++ root :: after ∧
          (∀ other ∈ before, ∀ c, ¬ files.Holds (other.join (classFilePath name)) c) ∧
          files.Holds (root.join (classFilePath name)) content) ∧
      (r.read files name = .ok none ↔
        ∀ root ∈ roots, ∀ c, ¬ files.Holds (root.join (classFilePath name)) c)) := by
  have hread : r.read files name = Resources.readBelow files (classFilePath name) roots := by
    rw [Resources.read, hsource]
  have hfile := hname.namesDirectory_join
  rw [hread]
  refine ⟨hname.names_join_classFilePath, fun content => Resources.readBelow_eq_some_iff hfile,
    Resources.readBelow_eq_none_iff hfile, fun fault => Resources.readBelow_eq_error_iff hfile,
    fun hclear => ?_⟩
  have hlacks : ∀ root ∈ roots, (files.Lacks (root.join (classFilePath name)) ↔
      ∀ c, ¬ files.Holds (root.join (classFilePath name)) c) := fun root hmem =>
    FileTree.lacks_iff_of_not_obstructs (hfile root) (hclear root hmem)
  constructor
  · intro content
    rw [Resources.readBelow_eq_some_iff hfile]
    constructor
    · rintro ⟨root, ⟨before, after, rfl, hbefore⟩, hholds⟩
      refine ⟨before, root, after, rfl, fun other hmem => ?_, hholds⟩
      exact (hlacks other (List.mem_append_left _ hmem)).1 (hbefore other hmem)
    · rintro ⟨before, root, after, rfl, hbefore, hholds⟩
      refine ⟨root, ⟨before, after, rfl, fun other hmem => ?_⟩, hholds⟩
      exact (hlacks other (List.mem_append_left _ hmem)).2 (hbefore other hmem)
  · rw [Resources.readBelow_eq_none_iff hfile]
    exact forall₂_congr hlacks

/-- A root with a class, behind an empty one. -/
def secondRootTree : FileTree :=
  ⟨[(["x"], .directory), (["y"], .directory), (["y", "a"], .directory),
    (["y", "a", "B.umbc"], .file [2])]⟩

/-- The same with a file in the first root, where a directory is due. -/
def barredRootTree : FileTree :=
  ⟨(["x", "a"], .file [1]) :: secondRootTree.entries⟩

/-- The resources below both roots. -/
def twoRoots : Resources where
  source := .directories ["/x".toList, "/y".toList]

theorem secondRootTree_read : twoRoots.source = .directories ["/x".toList, "/y".toList] ∧
    IsPlainName "a.B" ∧ (Path.join "/x".toList (classFilePath "a.B")).names = ["x", "a", "B.umbc"] ∧
    twoRoots.read secondRootTree "a.B" = .ok (some [2]) ∧
    ∃ root, Resources.Reaches secondRootTree (classFilePath "a.B") ["/x".toList, "/y".toList] root ∧
      secondRootTree.Holds (root.join (classFilePath "a.B")) [2] := by
  have hplain : IsPlainName "a.B" := by decide +kernel
  have hsource : twoRoots.source = .directories ["/x".toList, "/y".toList] := rfl
  have hread : twoRoots.read secondRootTree "a.B" = .ok (some [2]) := by decide +kernel
  obtain ⟨hnames, hsome, -⟩ := read_directories_in_order hsource hplain secondRootTree
  refine ⟨hsource, hplain, ?_, hread, (hsome [2]).1 hread⟩
  rw [hnames]
  decide +kernel

/-- A file in the first root hides what is in the second one. -/
theorem barredRootTree_read : IsPlainName "a.B" ∧
    barredRootTree.Holds (Path.join "/y".toList (classFilePath "a.B")) [2] ∧
    (∀ content, ¬ barredRootTree.Holds (Path.join "/x".toList (classFilePath "a.B")) content) ∧
    twoRoots.read barredRootTree "a.B" = .error (.file .notADirectory) := by
  have hplain : IsPlainName "a.B" := by decide +kernel
  refine ⟨hplain, ?_, fun content hholds => ?_, by decide +kernel⟩
  · rw [← FileTree.read_eq_ok_iff (hplain.namesDirectory_join _)]
    decide +kernel
  · have hread := hholds.read (hplain.namesDirectory_join _)
    rw [show barredRootTree.read (Path.join "/x".toList (classFilePath "a.B")) =
      .error .notADirectory by decide +kernel] at hread
    cases hread

end Interpose
