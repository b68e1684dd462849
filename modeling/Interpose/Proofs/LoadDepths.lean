import Interpose.Proofs.Transformations
/-!
# How deep loads nest

While a loader loads a class it loads the superclass, and so on. The names that it is in the middle
of loading are different names of classes that can be read, so there are never more of them than
classes, and the depth that a load starts with is enough: what comes of it does not depend on how
much more there would have been.

Classes in memory are counted by their names, classes in files by the files, of which each is the
class file of at most one name.

## Main definitions

* `Realm.Readable`: a name whose class can be read
* `Realm.Room`: the depth that is left is enough for the classes that are not yet being loaded

## Main results

* `Realm.room_of_bound`: there is room at the depth that loads start with
-/

namespace Interpose

namespace Realm

variable {r r₀ : Realm} {name : String} {names loading : List String} {depth : Nat}

/-- There is a class file to read for the name. -/
def Readable (r : Realm) (name : String) : Prop := ∃ file, r.classFile name = .ok file

/-- What is read is a verified class file of the name that it is read under. -/
theorem exists_bytes_of_classFile {file : ClassFile} (h : r.classFile name = .ok file) :
    ∃ bytes, r.resources.read r.files name = .ok (some bytes) ∧
      ClassFile.decode bytes = .ok file ∧ file.name = name ∧ file.verify = .ok () := by
  rw [classFile] at h
  cases hread : r.resources.read r.files name with
  | error e =>
    rw [hread] at h
    cases h
  | ok found =>
    rw [hread] at h
    cases found with
    | none => cases h
    | some bytes =>
      dsimp only [ClassFile.ofRead] at h
      split at h
      · cases h
      rename_i file' hdecode
      split at h
      · cases h
      rename_i hname
      split at h
      · cases h
      rename_i hverify
      cases h
      exact ⟨bytes, rfl, hdecode, Decidable.of_not_not hname, hverify⟩

end Realm

/-! ### Counting classes -/

theorem mem_of_lookup {α β : Type} [BEq α] [LawfulBEq α] {a : α} {b : β} {entries : List (α × β)}
    (h : entries.lookup a = some b) : (a, b) ∈ entries := by
  obtain ⟨before, after, hentries, -⟩ := List.lookup_eq_some_iff.1 h
  rw [hentries]
  exact List.mem_append_right _ List.mem_cons_self

theorem Resources.mem_of_held {resources : Resources} {name : String} {bytes : Bytes}
    (h : resources.held name = .ok (some bytes)) : (name, bytes) ∈ resources.classes := by
  rw [held] at h
  split at h
  · cases h
  exact mem_of_lookup (Except.ok.inj h)

/-- What is found below some roots is a file of the tree. -/
theorem Resources.file_of_readBelow {files : FileTree} {file : Path} {roots : List Path}
    {bytes : Bytes} (h : readBelow files file roots = .ok (some bytes)) :
    ∃ place, files.entry? place = some (.file bytes) := by
  induction roots with
  | nil => cases h
  | cons root rest ih =>
    rw [readBelow] at h
    split at h
    · next hread =>
      cases h
      exact ⟨_, FileTree.read_eq_ok hread⟩
    · exact ih h
    · cases h

/-- The names of the class files in a tree, wherever they lie. -/
def FileTree.classNames (t : FileTree) : List String :=
  t.entries.filterMap fun x =>
    match x.2 with
    | .directory => none
    | .file content => (ClassFile.decode content).toOption.map ClassFile.name

theorem FileTree.length_classNames_le (t : FileTree) : t.classNames.length ≤ t.fileCount := by
  rw [classNames, List.length_filterMap_eq_countP, fileCount]
  refine List.countP_mono_left fun x _ hx => ?_
  rcases x with ⟨place, content | -⟩
  · simp
  · cases hx

theorem FileTree.mem_classNames {t : FileTree} {place : Location} {content : Bytes}
    {file : ClassFile} (h : t.entry? place = some (.file content))
    (hfile : ClassFile.decode content = .ok file) : file.name ∈ t.classNames := by
  unfold entry? at h
  split at h
  · cases h
  refine List.mem_filterMap.2 ⟨(place, .file content), mem_of_lookup h, ?_⟩
  simp [hfile, Except.toOption]

namespace Realm

variable {r r₀ : Realm} {name : String} {names loading : List String} {depth : Nat}

/-- The names of all the classes that can be read are among these. -/
def allNames (r : Realm) : List String :=
  match r.resources.source with
  | .memory => r.resources.classes.map Prod.fst
  | .directories _ => r.files.classNames

theorem length_allNames_le (r : Realm) : r.allNames.length ≤ r.resources.bound r.files := by
  rw [allNames, Resources.bound]
  cases r.resources.source with
  | memory => exact Nat.le_of_eq (List.length_map _)
  | directories roots => exact r.files.length_classNames_le

theorem Readable.mem_allNames (h : r.Readable name) : name ∈ r.allNames := by
  obtain ⟨file, hfile⟩ := h
  obtain ⟨bytes, hread, hdecode, rfl, -⟩ := exists_bytes_of_classFile hfile
  rw [Resources.read] at hread
  rw [allNames]
  cases hsource : r.resources.source with
  | memory =>
    rw [hsource] at hread
    exact List.mem_map.2 ⟨_, Resources.mem_of_held hread, rfl⟩
  | directories roots =>
    rw [hsource] at hread
    obtain ⟨place, hplace⟩ := Resources.file_of_readBelow hread
    exact FileTree.mem_classNames hplace hdecode

/-! ### Room -/

/-- The names being loaded are different names of classes that can be read, and the depth is above
the number of other such names. -/
structure Room (r : Realm) (depth : Nat) (loading : List String) : Prop where
  nodup : loading.Nodup
  readable : ∀ name ∈ loading, r.Readable name
  room : ∀ names : List String, names.Nodup → (∀ name ∈ names, r.Readable name) →
    names.length < depth + loading.length

/-- Depth does not run out. -/
theorem Room.ne_zero (h : r.Room depth loading) : depth ≠ 0 := by
  rintro rfl
  have hroom := h.room loading h.nodup h.readable
  rw [Nat.zero_add] at hroom
  exact Nat.lt_irrefl _ hroom

/-- One more class is being loaded, one level down. -/
theorem Room.cons (h : r.Room (depth + 1) loading) (hreadable : r.Readable name)
    (hnew : name ∉ loading) : r.Room depth (name :: loading) := by
  refine ⟨List.nodup_cons.2 ⟨hnew, h.nodup⟩, ?_, fun names hnodup hnames => ?_⟩
  · rintro n hn
    rcases List.mem_cons.1 hn with rfl | hn
    · exact hreadable
    · exact h.readable n hn
  · have hroom := h.room names hnodup hnames
    rw [List.length_cons]
    omega

/-- **Depth.** Where no class is being loaded, the depth that loads start with leaves room. -/
theorem room_of_bound (r : Realm) : r.Room (r.resources.bound r.files + 1) [] := by
  refine ⟨List.nodup_nil, fun _ h => absurd h List.not_mem_nil, fun names hnodup hnames => ?_⟩
  have hlength : names.length ≤ r.allNames.length :=
    hnodup.length_le_of_subset fun name hname => (hnames name hname).mem_allNames
  exact Nat.lt_succ_of_le (Nat.le_trans hlength r.length_allNames_le)

/-- Room depends on what there is to be read. -/
theorem Room.congr (h : r.Room depth loading)
    (hread : ∀ name, r.classFile name = r₀.classFile name) : r₀.Room depth loading := by
  have hiff : ∀ name, r.Readable name ↔ r₀.Readable name := fun name => by
    rw [Readable, Readable, hread]
  refine ⟨h.nodup, fun name hname => (hiff name).1 (h.readable name hname), ?_⟩
  intro names hnodup hnames
  exact h.room names hnodup fun name hname => (hiff name).2 (hnames name hname)

end Realm

end Interpose
