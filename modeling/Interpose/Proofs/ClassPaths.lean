import Interpose.Loading.Resources
import Interpose.Proofs.FileTrees
import Mathlib.Data.List.TakeWhile
/-!
# Paths of class files

The path of a class file is put together from the segments of the class name, as they are. No
segment holds a dot, since dots are where the name is split, and the extension brings in one dot
only. So the two dots that lead back up are on no such path, whatever the class is called.

Slashes are another matter. A segment that begins with one is an absolute path, and an absolute path
replaces what it is joined to: the segments before it, and then the root. A class with such a
segment in its name is read from where the name says, and where the class path is has no say in it.
These are all the names that lead away. With any other name, what is read lies below a root.

## Main results

* `dots_not_mem_names_classFilePath`: no class file is above a root
* `isAbsolute_classFilePath_iff`: the class names that roots are no bound for
* `class_files_stay_below`: where class files are read
-/

namespace Interpose

namespace Text

theorem sublist_of_mem_split {sep : Char} {cs segment : List Char} (h : segment ∈ split sep cs) :
    segment.Sublist cs := by
  induction cs generalizing segment with
  | nil =>
    rw [split, List.mem_singleton] at h
    exact h ▸ .refl []
  | cons c rest ih =>
    obtain ⟨s, ss, hs⟩ := List.exists_cons_of_ne_nil (split_ne_nil sep rest)
    rw [split, hs] at h
    split at h
    · rcases List.mem_cons.1 h with rfl | hmem
      · exact List.nil_sublist _
      · exact (ih (hs ▸ hmem)).cons c
    · rcases List.mem_cons.1 h with rfl | hmem
      · exact (ih (hs ▸ List.mem_cons_self)).cons_cons c
      · exact (ih (hs ▸ List.mem_cons_of_mem s hmem)).cons c

/-- What is no separator is in a segment. -/
theorem exists_mem_split {sep c : Char} {cs : List Char} (h : c ∈ cs) (hc : c ≠ sep) :
    ∃ segment ∈ split sep cs, c ∈ segment := by
  induction cs with
  | nil => exact nomatch h
  | cons d rest ih =>
    obtain ⟨s, ss, hs⟩ := List.exists_cons_of_ne_nil (split_ne_nil sep rest)
    rw [hs] at ih
    rw [split, hs]
    by_cases hd : d = sep
    · rw [if_pos hd]
      have hrest : c ∈ rest := (List.mem_cons.1 h).resolve_left fun hcd => hc (hcd.trans hd)
      obtain ⟨segment, hmem, hseg⟩ := ih hrest
      exact ⟨segment, List.mem_cons_of_mem _ hmem, hseg⟩
    · rw [if_neg hd]
      rcases List.mem_cons.1 h with rfl | hrest
      · exact ⟨c :: s, List.mem_cons_self, List.mem_cons_self⟩
      · obtain ⟨segment, hmem, hseg⟩ := ih hrest
        rcases List.mem_cons.1 hmem with rfl | hmem
        · exact ⟨d :: segment, List.mem_cons_self, List.mem_cons_of_mem d hseg⟩
        · exact ⟨segment, List.mem_cons_of_mem _ hmem, hseg⟩

end Text

namespace Path

variable {base p x : Path} {c : Char}

/-! ### Joining -/

/-- The beginning of a path tells whether it is absolute. -/
theorem isAbsolute_append (hp : p ≠ []) (x : Path) : isAbsolute (p ++ x) = p.isAbsolute := by
  obtain ⟨c, cs, rfl⟩ := List.exists_cons_of_ne_nil hp
  rfl

theorem isAbsolute_join (base x : Path) :
    (base.join x).isAbsolute = (base.isAbsolute || x.isAbsolute) := by
  rw [join]
  by_cases hx : x.isAbsolute
  · rw [if_pos hx, hx, Bool.or_true]
  rw [if_neg hx, Bool.eq_false_iff.2 hx, Bool.or_false]
  by_cases hs : base.needsSlash
  · have hbase : base ≠ [] := by
      rintro rfl
      exact absurd hs (by decide)
    rw [if_pos hs, isAbsolute_append hbase]
  rw [if_neg hs]
  rcases eq_of_not_needsSlash hs with rfl | ⟨q, rfl⟩
  · exact Bool.eq_false_iff.2 hx
  · exact isAbsolute_append (by simp) x

/-- Paths that are joined one after the other are absolute if one of them is. -/
theorem isAbsolute_foldl_join (parts : List Path) (base : Path) :
    (parts.foldl join base).isAbsolute = (base.isAbsolute || parts.any isAbsolute) := by
  induction parts generalizing base with
  | nil => exact (Bool.or_false _).symm
  | cons part parts ih => rw [List.foldl_cons, ih, isAbsolute_join, List.any_cons, Bool.or_assoc]

/-- Joining adds slashes and nothing else. -/
theorem mem_join (h : c ∈ base.join x) : c ∈ base ∨ c = '/' ∨ c ∈ x := by
  rw [join] at h
  split at h
  · exact .inr (.inr h)
  split at h
  · rcases List.mem_append.1 h with hbase | hrest
    · exact .inl hbase
    · exact .inr (List.mem_cons.1 hrest)
  · exact (List.mem_append.1 h).imp id .inr

theorem mem_foldl_join {parts : List Path} (h : c ∈ parts.foldl join base) :
    c ∈ base ∨ c = '/' ∨ ∃ part ∈ parts, c ∈ part := by
  induction parts generalizing base with
  | nil => exact .inl h
  | cons part parts ih =>
    rcases ih h with hbase | hc | ⟨part', hmem, hc⟩
    · rcases mem_join hbase with hbase | hc | hc
      · exact .inl hbase
      · exact .inr (.inl hc)
      · exact .inr (.inr ⟨part, List.mem_cons_self, hc⟩)
    · exact .inr (.inl hc)
    · exact .inr (.inr ⟨part', List.mem_cons_of_mem part hmem, hc⟩)

/-! ### Extensions -/

theorem trimmed_isPrefix (p : Path) : p.trimmed <+: p := by
  have hsuffix := List.dropWhile_suffix (l := p.reverse) (· == '/')
  have hprefix := List.reverse_prefix.2 hsuffix
  rwa [List.reverse_reverse] at hprefix

/-- Without slashes at its end a path is still as absolute as it was. -/
theorem isAbsolute_trimmed (h : p.trimmed ≠ []) : p.trimmed.isAbsolute = p.isAbsolute := by
  obtain ⟨rest, hrest⟩ := p.trimmed_isPrefix
  have happend := isAbsolute_append h rest
  rw [hrest] at happend
  exact happend.symm

theorem isAbsolute_withExtension (p : Path) (extension : String) :
    (p.withExtension extension).isAbsolute = p.isAbsolute := by
  rw [withExtension]
  split
  · rfl
  · next h =>
    have hne : p.trimmed ≠ [] := fun hnil => h (List.isEmpty_iff.2 hnil)
    rw [isAbsolute_append hne, isAbsolute_trimmed hne]

/-! ### Ways that lead down -/

/-- Only two dots lead back up. -/
theorem foldl_step_of_not_mem {names : List String} (h : ".." ∉ names) (place : Location) :
    names.foldl FileTree.step place = place ++ names := by
  induction names generalizing place with
  | nil => exact (List.append_nil place).symm
  | cons name names ih =>
    obtain ⟨hname, hnames⟩ := not_or.1 fun hor => h (List.mem_cons.2 hor)
    rw [List.foldl_cons, ih hnames, FileTree.step, if_neg (Ne.symm hname), List.append_assoc]
    rfl

theorem location_join_of_relative (hx : ¬ x.isAbsolute) (hdots : ".." ∉ x.names) :
    (base.join x).location = base.location ++ x.names := by
  rw [location, names_join_of_relative hx, List.foldl_append, foldl_step_of_not_mem hdots]
  rfl

/-- A path with one dot at most does not lead back up. -/
theorem dots_not_mem_names (h : p.count '.' ≤ 1) : ".." ∉ p.names := by
  intro hmem
  obtain ⟨segment, hsegment, htext⟩ := List.mem_map.1 hmem
  obtain rfl : segment = ['.', '.'] := by simpa using congrArg String.toList htext
  have hsub := Text.sublist_of_mem_split (List.mem_filter.1 hsegment).1
  have htwo : 2 ≤ p.count '.' := hsub.count_le '.'
  omega

/-- There are no names along a path of slashes and dots only. -/
theorem names_ne_nil (h : c ∈ p) (hslash : c ≠ '/') (hdot : c ≠ '.') : p.names ≠ [] := by
  obtain ⟨segment, hsegment, hc⟩ := Text.exists_mem_split h hslash
  have hkept : segment ≠ [] ∧ segment ≠ ['.'] := by
    constructor
    · rintro rfl
      exact nomatch hc
    · rintro rfl
      exact hdot (List.mem_singleton.1 hc)
  have hmem : String.ofList segment ∈ p.names :=
    List.mem_map_of_mem (List.mem_filter.2 ⟨hsegment, by simpa using hkept⟩)
  exact List.ne_nil_of_mem hmem

end Path

/-! ### Class files -/

section ClassFiles

variable {name : String}

/-- The extension brings the only dot. -/
theorem count_dot_classFilePath (name : String) : (classFilePath name).count '.' ≤ 1 := by
  obtain ⟨joined, hjoined⟩ : ∃ joined, joined = (Text.split '.' name.toList).foldl Path.join [] :=
    ⟨_, rfl⟩
  have hdot : '.' ∉ joined := by
    intro hmem
    rw [hjoined] at hmem
    rcases Path.mem_foldl_join hmem with hnil | hslash | ⟨segment, hsegment, hc⟩
    · exact nomatch hnil
    · exact absurd hslash (by decide)
    · exact Text.not_mem_of_mem_split hsegment hc
  have htrimmed : '.' ∉ joined.trimmed := fun hmem => hdot (joined.trimmed_isPrefix.subset hmem)
  rw [classFilePath, ← hjoined, Path.withExtension]
  split
  · rw [List.count_eq_zero.2 hdot]
    exact Nat.zero_le 1
  · rw [List.count_append, List.count_eq_zero.2 htrimmed]
    decide

/-- **No way up.** Two dots are on the path of no class file. -/
theorem dots_not_mem_names_classFilePath (name : String) : ".." ∉ (classFilePath name).names :=
  Path.dots_not_mem_names (count_dot_classFilePath name)

/-- **The ways out.** The path of a class file is absolute exactly if a segment of the class name
is. -/
theorem isAbsolute_classFilePath_iff : (classFilePath name).isAbsolute ↔
    ∃ segment ∈ Text.split '.' name.toList, Path.isAbsolute segment := by
  rw [classFilePath, Path.isAbsolute_withExtension, Path.isAbsolute_foldl_join, ← List.any_eq_true]
  rfl

/-- A relative path of a class file has names on it, unless it is empty. -/
theorem names_classFilePath_ne_nil (h : ¬ (classFilePath name).isAbsolute)
    (hne : classFilePath name ≠ []) : (classFilePath name).names ≠ [] := by
  obtain ⟨joined, hjoined⟩ : ∃ joined, joined = (Text.split '.' name.toList).foldl Path.join [] :=
    ⟨_, rfl⟩
  rw [classFilePath, ← hjoined, Path.withExtension] at h hne ⊢
  split at hne
  · next hslashes =>
    -- Nothing but slashes, and so the first of them.
    rw [if_pos hslashes] at h
    obtain ⟨c, cs, rfl⟩ := List.exists_cons_of_ne_nil hne
    refine absurd ?_ h
    have hall : ∀ d ∈ c :: cs, d = '/' := by
      intro d hd
      have hnil := List.isEmpty_iff.1 hslashes
      rw [Path.trimmed, List.reverse_eq_nil_iff, List.dropWhile_eq_nil_iff] at hnil
      simpa using hnil d (List.mem_reverse.2 hd)
    rw [hall c List.mem_cons_self]
    rfl
  · next hname =>
    rw [if_neg hname]
    have hc : 'c' ∈ joined.trimmed ++ '.' :: classFileExtension.toList :=
      List.mem_append_right _ (by decide)
    exact Path.names_ne_nil hc (by decide) (by decide)

end ClassFiles

/-- Nothing is read under a path that ends in a slash. -/
theorem FileTree.read_of_namesDirectory {t : FileTree} {p : Path} {content : Bytes}
    (hp : p.namesDirectory) : t.read p ≠ .ok content := by
  intro h
  rw [read] at h
  split at h
  · cases h
  · cases h
  · cases h
  next hresolve =>
  rw [resolve] at hresolve
  split at hresolve
  · cases hresolve
  split at hresolve
  · cases hresolve
  split at hresolve
  · cases hresolve
  · next hfile => exact hfile _ _ hresolve

namespace Resources

variable {files : FileTree} {file root : Path} {roots : List Path} {content : Bytes} {name : String}

/-- What is found below roots has been read below one of them. -/
theorem exists_read_of_readBelow (h : readBelow files file roots = .ok (some content)) :
    ∃ root ∈ roots, files.read (root.join file) = .ok content := by
  induction roots with
  | nil => cases h
  | cons root rest ih =>
    rw [readBelow] at h
    split at h
    · next hread =>
      cases h
      exact ⟨root, List.mem_cons_self, hread⟩
    · obtain ⟨root', hmem, hread⟩ := ih h
      exact ⟨root', List.mem_cons_of_mem root hmem, hread⟩
    · cases h

/-- Below a root, the empty path is that of a directory. -/
theorem ne_nil_of_read (h : files.read (root.join file) = .ok content) : file ≠ [] := by
  rintro rfl
  have hrelative : ¬ Path.isAbsolute [] := by decide
  rw [Path.join, if_neg hrelative] at h
  by_cases hs : root.needsSlash
  · rw [if_pos hs] at h
    exact FileTree.read_of_namesDirectory (by simp [Path.namesDirectory]) h
  rw [if_neg hs, List.append_nil] at h
  rcases Path.eq_of_not_needsSlash hs with rfl | ⟨q, rfl⟩
  · cases h
  · exact FileTree.read_of_namesDirectory (by simp [Path.namesDirectory]) h

/-- Roots that all lead to one place are as good as one of them. -/
theorem readBelow_of_join (h : ∀ root ∈ roots, root.join file = file) :
    readBelow files file roots = .ok (some content) ↔
      roots ≠ [] ∧ files.read file = .ok content := by
  induction roots with
  | nil => exact iff_of_false nofun fun hroots => hroots.1 rfl
  | cons root rest ih =>
    have hrest := ih fun root' hmem => h root' (List.mem_cons_of_mem root hmem)
    rw [readBelow, h root List.mem_cons_self]
    split
    · next hread => simp [hread]
    · next hread => simp [hrest, hread]
    · next hread => simp [hread]

end Resources

/-- **Where class files are read.** The path of a class file never leads up, and is absolute exactly
if a segment of the class name begins with a slash. If it is relative, it leads from every root to
places below, and what is read from directories is the content of a file below one of them. If it is
absolute, the file is the one that the path denotes, for any directories there may be. -/
theorem class_files_stay_below (name : String) :
    ".." ∉ (classFilePath name).names ∧
    ((classFilePath name).isAbsolute ↔
      ∃ segment ∈ Text.split '.' name.toList, Path.isAbsolute segment) ∧
    (¬ (classFilePath name).isAbsolute →
      (∀ root : Path, (root.join (classFilePath name)).location =
        root.location ++ (classFilePath name).names) ∧
      ∀ (r : Resources) (roots : List Path) (files : FileTree) (content : Bytes),
        r.source = .directories roots → r.read files name = .ok (some content) →
          (classFilePath name).names ≠ [] ∧ ∃ root ∈ roots,
            files.entry? (root.location ++ (classFilePath name).names) = some (.file content)) ∧
    ((classFilePath name).isAbsolute →
      ∀ (r : Resources) (roots : List Path) (files : FileTree) (content : Bytes),
        r.source = .directories roots → (r.read files name = .ok (some content) ↔
          roots ≠ [] ∧ files.read (classFilePath name) = .ok content)) := by
  have hdots := dots_not_mem_names_classFilePath name
  refine ⟨hdots, isAbsolute_classFilePath_iff, fun hrelative => ⟨fun root => ?_, ?_⟩, ?_⟩
  · exact Path.location_join_of_relative hrelative hdots
  · intro r roots files content hsource hread
    rw [Resources.read, hsource] at hread
    obtain ⟨root, hroot, hread⟩ := Resources.exists_read_of_readBelow hread
    refine ⟨names_classFilePath_ne_nil hrelative (Resources.ne_nil_of_read hread), root, hroot, ?_⟩
    rw [← Path.location_join_of_relative hrelative hdots]
    exact FileTree.read_eq_ok hread
  · intro habsolute r roots files content hsource
    rw [Resources.read, hsource]
    refine Resources.readBelow_of_join fun root _ => ?_
    rw [Path.join, if_pos habsolute]

/-- A class file below a root, and one beside it. -/
def besideTree : FileTree :=
  ⟨[(["r"], .directory), (["r", "a"], .directory), (["r", "a", "B.umbc"], .file [1]),
    (["b"], .directory), (["b", "C.umbc"], .file [2])]⟩

/-- The resources below the root. -/
def besideResources : Resources where
  source := .directories ["/r".toList]

theorem besideTree_read_below : besideResources.read besideTree "a.B" = .ok (some [1]) ∧
    (classFilePath "a.B").names = ["a", "B.umbc"] ∧
    ∃ root ∈ ["/r".toList],
      besideTree.entry? (Path.location root ++ ["a", "B.umbc"]) = some (.file [1]) := by
  have hread : besideResources.read besideTree "a.B" = .ok (some [1]) := by decide +kernel
  have hnames : (classFilePath "a.B").names = ["a", "B.umbc"] := by decide +kernel
  obtain ⟨-, -, hbelow, -⟩ := class_files_stay_below "a.B"
  obtain ⟨-, hfile⟩ :=
    (hbelow (by decide +kernel)).2 besideResources ["/r".toList] besideTree [1] rfl hread
  exact ⟨hread, hnames, hnames ▸ hfile⟩

/-- A class whose name begins with a slash is read from beside the root. -/
theorem besideTree_read_beside : (classFilePath "/b.C").isAbsolute ∧
    besideResources.read besideTree "/b.C" = .ok (some [2]) ∧
    besideTree.entry? ["b", "C.umbc"] = some (.file [2]) ∧
    ¬ Path.location "/r".toList <+: ["b", "C.umbc"] := by
  decide +kernel

end Interpose
