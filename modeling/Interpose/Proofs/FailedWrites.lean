import Interpose.Proofs.Caches
import Interpose.Proofs.DiskCaches
/-!
# What failed writes leave

An entry is written under a temporary name and moved into place, in five steps, each of which can
fail. A failed write may have made directories, and it may have touched one file, the one under the
temporary name; entries of whatever name and version are as they were.

Every step that fails behind the first written byte takes the temporary file away again, but one:
where the directory of the version cannot be made, because a file is in the way, the temporary file
stays. So a failed write leaves all files as they were exactly if it did not break off there.

## Main definitions

* `FileTree.fileAt?`: the content of the file at a location
* `Disk.Strands`: a write breaks off between its file and the directory for it

## Main results

* `FileTree.exists_createDirectory_join_iff`: what decides whether a directory can be made in another
* `ClassCache.failed_put_leaves_files_iff`: the files after a failed write
-/

namespace Interpose

namespace FileTree

variable {t t' t₁ : FileTree} {p : Path} {place : Location} {names : List String} {content : Bytes}
  {e : FileError}

/-- The content of the file at a location, if there is a file. -/
def fileAt? (t : FileTree) (place : Location) : Option Bytes :=
  match t.entry? place with
  | some (.file content) => some content
  | _ => none

theorem fileAt?_eq_some :
    t.fileAt? place = some content ↔ t.entry? place = some (.file content) := by
  rw [fileAt?]
  split
  · next h => rw [h, Option.some.injEq, Option.some.injEq, Entry.file.injEq]
  · next h => exact ⟨fun hn => (by cases hn), fun hc => absurd hc (h content)⟩

theorem fileAt?_eq_none :
    t.fileAt? place = none ↔ ∀ content, t.entry? place ≠ some (.file content) := by
  simp only [Option.eq_none_iff_forall_ne_some, ne_eq, fileAt?_eq_some]

theorem fileAt?_congr (h : t'.entry? place = t.entry? place) :
    t'.fileAt? place = t.fileAt? place := by
  rw [fileAt?, fileAt?, h]

/-- Taking something away takes one file away. -/
theorem fileAt?_erase (place q : Location) :
    FileTree.fileAt? (t.erase place) q = if q = place then none else t.fileAt? q := by
  by_cases hq : q = place
  · rw [if_pos hq, fileAt?, entry?_erase]
    by_cases hnil : q = []
    · rw [if_neg fun h => h.1 hnil, hnil]
      rfl
    · rw [if_pos ⟨hnil, hq⟩]
  · rw [if_neg hq]
    exact fileAt?_congr (by rw [entry?_erase, if_neg fun h => hq h.2])

/-- Making directories changes no file. -/
theorem fileAt?_makeDirectories (h : t.makeDirectories place names = .ok t') (q : Location) :
    t'.fileAt? q = t.fileAt? q := by
  refine Option.ext fun content => ?_
  rw [fileAt?_eq_some, fileAt?_eq_some]
  refine ⟨fun hc => ?_, (makeDirectories_eq_ok h).1 q _⟩
  have hadds : t.Adds t' fun _ _ => False := adds_makeDirectories h
  exact (hadds q content hc).elim id False.elim

theorem fileAt?_createDirectory (h : t.createDirectory p = .ok t') (q : Location) :
    t'.fileAt? q = t.fileAt? q :=
  fileAt?_makeDirectories (createDirectory_eq_ok h) q

/-- Writing changes one file. -/
theorem fileAt?_write (h : t.write p content = .ok t') (q : Location) :
    t'.fileAt? q = if q = p.location then some content else t.fileAt? q := by
  by_cases hq : q = p.location
  · rw [if_pos hq, hq, fileAt?_eq_some, entry?_of_write h]
  · rw [if_neg hq]
    refine fileAt?_congr ?_
    rw [(write_eq_ok h).1, entry?_put, if_neg fun hp => hq hp.2]

/-! ### Taking away what was written -/

theorem exists_resolve_of_write (h : t.write p content = .ok t') :
    ∃ e, t.resolve p = .ok (p.location, e) := by
  rw [write] at h
  split at h
  · cases h
  · cases h
  · next hr =>
    obtain ⟨rfl, -⟩ := resolve_eq_ok hr
    exact ⟨_, hr⟩
  · next hr =>
    obtain ⟨rfl, -⟩ := resolve_eq_ok hr
    exact ⟨_, hr⟩

/-- Where no file can be written, there is none to take away. -/
theorem remove_of_write_error (h : t.write p content = .error e) : t.remove p = t := by
  rw [remove]
  split
  · next hr =>
    rw [write, hr] at h
    cases h
  · rfl

/-- What was written can be taken away, also after directories have been made. -/
theorem remove_of_write (hp : p.namesDirectory = false) (h : t.write p content = .ok t₁)
    (hgrows : t₁.Grows t') : t'.remove p = t'.erase p.location := by
  obtain ⟨e, hr⟩ := exists_resolve_of_write h
  have hkeeps : t.Keeps t' := (keeps_write h).trans hgrows.keeps
  have hr' := resolve_of_keeps hkeeps hp hr
  rw [hgrows _ _ (entry?_of_write h)] at hr'
  rw [remove, hr']

/-! ### What is in the way of a directory -/

/-- **A directory in a directory** can be made if the path is one, the directories above it can be
made, and there is no file in its place. -/
theorem exists_createDirectory_join_iff {base x : Path} (hx : x.IsName) :
    (∃ t', t.createDirectory (base.join x) = .ok t') ↔
      ¬ (base.join x).contains '\x00' ∧ ¬ maxPath < (base.join x).text.utf8ByteSize ∧
        ¬ maxName < (String.ofList x).utf8ByteSize ∧
          (∃ t₁, t.makeDirectories [] base.names = .ok t₁) ∧
            t.fileAt? (base.join x).location = none := by
  have hlocation : (base.join x).location = step (base.names.foldl step []) (String.ofList x) := by
    rw [Path.location, Path.names_join hx, List.foldl_append]
    rfl
  simp only [createDirectory_eq_ok_iff, Path.names_join hx, makeDirectories_append_eq_ok, hlocation]
  constructor
  · rintro ⟨t', hnul, hlength, t₁, h₁, h⟩
    have hd := (walk_eq_ok (makeDirectories_eq_ok h₁).2).2.symm
    obtain ⟨hname, hplace⟩ := (makeDirectories_singleton hd).1 h
    refine ⟨hnul, hlength, hname, ⟨t₁, h₁⟩, ?_⟩
    rw [← fileAt?_makeDirectories h₁, fileAt?]
    rcases hplace with ⟨hplace, -⟩ | ⟨hplace, -⟩ <;> rw [hplace]
  · rintro ⟨hnul, hlength, hname, ⟨t₁, h₁⟩, hplace⟩
    have hd := (walk_eq_ok (makeDirectories_eq_ok h₁).2).2.symm
    rw [← fileAt?_makeDirectories h₁, fileAt?_eq_none] at hplace
    cases he : t₁.entry? (step (base.names.foldl step []) (String.ofList x)) with
    | none =>
      exact ⟨_, hnul, hlength, t₁, h₁, (makeDirectories_singleton hd).2 ⟨hname, .inr ⟨he, rfl⟩⟩⟩
    | some entry =>
      cases entry with
      | file content => exact absurd he (hplace content)
      | directory =>
        exact ⟨_, hnul, hlength, t₁, h₁, (makeDirectories_singleton hd).2 ⟨hname, .inl ⟨he, rfl⟩⟩⟩

end FileTree

namespace Disk

open FileTree

variable {d d' : Disk} {files₁ files₂ files₃ : FileTree} {root : Path} {version : UInt32}
  {name : String} {bytes : Bytes} {e : CacheError}

/-- A write of an entry breaks off between its file and the directory for it: the temporary file can
be written, and the directory of the version cannot be made. -/
def Strands (d : Disk) (root : Path) (version : UInt32) (name : String) (bytes : Bytes) : Prop :=
  isEntryName name ∧
    (∃ files₁ files₂, d.files.createDirectory (temporaryDirectory root) = .ok files₁ ∧
      files₁.write (d.temporaryPath root name) (withChecksum bytes) = .ok files₂) ∧
    ∀ files, d.files.createDirectory (versionDirectory root version) ≠ .ok files

/-- The temporary file is in the temporary directory, so it is not in the way of the directory of a
version. -/
theorem exists_createDirectory_version_iff (hname : isEntryName name)
    (hmade : d.files.createDirectory (temporaryDirectory root) = .ok files₁)
    (hwrite : files₁.write (d.temporaryPath root name) (withChecksum bytes) = .ok files₂) :
    (∃ files, files₂.createDirectory (versionDirectory root version) = .ok files) ↔
      ∃ files, d.files.createDirectory (versionDirectory root version) = .ok files := by
  have hfile : files₂.fileAt? (versionDirectory root version).location =
      d.files.fileAt? (versionDirectory root version).location := by
    rw [fileAt?_write hwrite, if_neg, fileAt?_createDirectory hmade]
    obtain ⟨stem, hstem⟩ : ∃ stem, (d.temporaryPath root name).location =
        (temporaryDirectory root).location ++ [stem ++ ".tmp"] := location_temporaryPath d hname
    rw [hstem, location_versionDirectory, location_temporaryDirectory, List.append_assoc,
      List.append_cancel_left_eq]
    exact fun h => by simpa using congrArg List.length h
  have hroot : ∃ t, d.files.makeDirectories [] root.names = .ok t := by
    obtain ⟨-, -, -, h, -⟩ := (exists_createDirectory_join_iff isName_tmp).1 ⟨_, hmade⟩
    exact h
  have hroot₂ : ∃ t, files₂.makeDirectories [] root.names = .ok t := by
    have hagain := createDirectory_again hmade
      ((hasDirectory_createDirectory hmade).keeps (keeps_write hwrite))
    obtain ⟨-, -, -, h, -⟩ := (exists_createDirectory_join_iff isName_tmp).1 ⟨_, hagain⟩
    exact h
  rw [versionDirectory] at hfile ⊢
  simp only [exists_createDirectory_join_iff (isName_version version), hfile, hroot, hroot₂]

theorem namesDirectory_temporaryPath (d : Disk) (hname : isEntryName name) :
    (d.temporaryPath root name).namesDirectory = false :=
  Path.namesDirectory_join (d.isName_temporary hname)

/-- What a failed write may have done to the files. -/
structure Spares (d d' : Disk) (root : Path) (version : UInt32) (name : String) (bytes : Bytes) :
    Prop where
  keeps : d.files.Keeps d'.files
  /-- At most the file under the temporary name has changed, and that only under an entry name. -/
  elsewhere : ∀ place, (isEntryName name → place ≠ (d.temporaryPath root name).location) →
    d'.files.fileAt? place = d.files.fileAt? place
  stays : d.Strands root version name bytes →
    d'.files.fileAt? (d.temporaryPath root name).location = some (withChecksum bytes)
  /-- Nothing is left under the temporary name, unless it was there before. -/
  goes : ¬ d.Strands root version name bytes →
    d'.files.fileAt? (d.temporaryPath root name).location = none ∨
      d'.files.fileAt? (d.temporaryPath root name).location =
        d.files.fileAt? (d.temporaryPath root name).location

theorem Spares.of_sameFiles (hkeeps : d.files.Keeps d'.files)
    (hsame : ∀ place, d'.files.fileAt? place = d.files.fileAt? place)
    (hstrands : ¬ d.Strands root version name bytes) : Spares d d' root version name bytes where
  keeps := hkeeps
  elsewhere place _ := hsame place
  stays h := absurd h hstrands
  goes _ := .inr (hsame _)

/-- A write that breaks off behind its temporary file leaves that file. -/
theorem spares_of_stranded (hstrands : d.Strands root version name bytes)
    (hmade : d.files.createDirectory (temporaryDirectory root) = .ok files₁)
    (hwrite : files₁.write (d.temporaryPath root name) (withChecksum bytes) = .ok d'.files) :
    Spares d d' root version name bytes where
  keeps := (grows_createDirectory hmade).keeps.trans (keeps_write hwrite)
  elsewhere place hplace := by
    rw [fileAt?_write hwrite, if_neg (hplace hstrands.1), fileAt?_createDirectory hmade]
  stays _ := by rw [fileAt?_write hwrite, if_pos rfl]
  goes h := absurd hstrands h

/-- A write that takes its temporary file away again, once there is a directory for the entry, leaves
no file but those that were there. -/
theorem spares_of_removed (hname : isEntryName name)
    (hmade : d.files.createDirectory (temporaryDirectory root) = .ok files₁)
    (hwrite : files₁.write (d.temporaryPath root name) (withChecksum bytes) = .ok files₂)
    (hmade₃ : files₂.createDirectory (versionDirectory root version) = .ok files₃)
    (hremoved : d'.files = files₃.remove (d.temporaryPath root name)) :
    Spares d d' root version name bytes := by
  have hgrows₃ := grows_createDirectory hmade₃
  have hstrands : ¬ d.Strands root version name bytes := by
    rintro ⟨-, -, hblocked⟩
    obtain ⟨files, hfiles⟩ :=
      (exists_createDirectory_version_iff hname hmade hwrite).1 ⟨files₃, hmade₃⟩
    exact hblocked files hfiles
  have herased : d'.files = files₃.erase (d.temporaryPath root name).location :=
    hremoved.trans (remove_of_write (d.namesDirectory_temporaryPath hname) hwrite hgrows₃)
  have hkeeps₂ := (grows_createDirectory hmade).keeps.trans (keeps_write hwrite)
  refine ⟨?_, fun place hplace => ?_, fun h => absurd h hstrands, fun _ => .inl ?_⟩
  · rw [herased]
    exact (hkeeps₂.trans hgrows₃.keeps).trans
      (keeps_erase_file (hgrows₃ _ _ (entry?_of_write hwrite)))
  · rw [herased, fileAt?_erase, if_neg (hplace hname), fileAt?_createDirectory hmade₃,
      fileAt?_write hwrite, if_neg (hplace hname), fileAt?_createDirectory hmade]
  · rw [herased, fileAt?_erase, if_pos rfl]

/-- **A failed write.** It may break off at each of its steps; all but one leave the files as they
were, or take the temporary file away. -/
theorem spares_of_writeEntry (h : d.writeEntry root version name bytes = (.error e, d')) :
    Spares d d' root version name bytes := by
  rw [writeEntry] at h
  split at h
  · next hname =>
    cases h
    exact .of_sameFiles (fun _ hd => hd) (fun _ => rfl) fun hs => by simp [hs.1] at hname
  next hname =>
  have hname : isEntryName name := by simpa using hname
  split at h
  · next hmade =>
    cases h
    refine .of_sameFiles (fun _ hd => hd) (fun _ => rfl) ?_
    rintro ⟨-, ⟨files₁, -, hmade₁, -⟩, -⟩
    cases hmade.symm.trans hmade₁
  next files₁ hmade =>
  dsimp only at h
  split at h
  · next hwrite =>
    cases h
    have hremove := remove_of_write_error hwrite
    refine .of_sameFiles (hremove.symm ▸ (grows_createDirectory hmade).keeps)
      (hremove.symm ▸ fileAt?_createDirectory hmade) ?_
    rintro ⟨-, ⟨files₁', files₂, hmade', hwrite'⟩, -⟩
    obtain rfl := Except.ok.inj (hmade.symm.trans hmade')
    cases hwrite.symm.trans hwrite'
  next files₂ hwrite =>
  split at h
  · next hblocked =>
    cases h
    refine spares_of_stranded ⟨hname, ⟨files₁, files₂, hmade, hwrite⟩, fun files hfiles => ?_⟩
      hmade hwrite
    obtain ⟨files', hfiles'⟩ :=
      (exists_createDirectory_version_iff hname hmade hwrite).2 ⟨files, hfiles⟩
    cases hblocked.symm.trans hfiles'
  next files₃ hmade₃ =>
  rw [settle] at h
  split at h
  · cases h
    exact spares_of_removed hname hmade hwrite hmade₃ rfl
  · cases h

end Disk

namespace ClassCache

variable {c : ClassCache} {s s' : Storage} {root : Path} {name : String} {bytes : Bytes}
  {e : CacheError}

/-- Only writing to a disk can fail. -/
theorem exists_writeEntry_of_put (h : c.put s name bytes = (.error e, s')) :
    ∃ root d', c.backend = .disk root ∧ c.writing ∧
      s.disk.writeEntry root c.version name bytes = (.error e, d') ∧
        s' = { s with disk := d' } := by
  rw [put] at h
  split at h
  · cases h
  next hwriting =>
  split at h
  · cases h
  next root hbackend =>
  cases hwrite : s.disk.writeEntry root c.version name bytes with
  | mk result d' =>
    rw [hwrite] at h
    cases h
    exact ⟨root, d', hbackend, by simpa using hwriting, hwrite, rfl⟩

/-- **A failed put.** Only a view of a disk that is open for writing fails. Whatever the disk is like,
no store in memory changes, no directory goes, and entries of whatever root, name and version are as
they were, as is every file but the one under the temporary name. Where no file had that name, all
files are as they were exactly if the write did not break off between the temporary file and the
directory of the version; if it did, the temporary file is left behind. -/
theorem failed_put_leaves_files_iff (h : c.put s name bytes = (.error e, s')) :
    ∃ root, c.backend = .disk root ∧ c.writing ∧ s'.stores = s.stores ∧
      s.disk.files.Keeps s'.disk.files ∧
      (∀ root' version name', Disk.isEntryName name' →
        s'.disk.files.fileAt? (Disk.entryPath root' version name').location =
          s.disk.files.fileAt? (Disk.entryPath root' version name').location) ∧
      (∀ place ≠ (s.disk.temporaryPath root name).location,
        s'.disk.files.fileAt? place = s.disk.files.fileAt? place) ∧
      (s.disk.files.fileAt? (s.disk.temporaryPath root name).location = none →
        ((∀ place, s'.disk.files.fileAt? place = s.disk.files.fileAt? place) ↔
          ¬ s.disk.Strands root c.version name bytes)) ∧
      (s.disk.Strands root c.version name bytes →
        s'.disk.files.fileAt? (s.disk.temporaryPath root name).location =
          some (Disk.withChecksum bytes)) := by
  obtain ⟨root, d', hbackend, hwriting, hwrite, rfl⟩ := exists_writeEntry_of_put h
  have hspares := Disk.spares_of_writeEntry hwrite
  refine ⟨root, hbackend, hwriting, rfl, hspares.keeps, fun root' version name' hname' => ?_,
    fun place hplace => hspares.elsewhere place fun _ => hplace, fun hunused => ?_, hspares.stays⟩
  · exact hspares.elsewhere _ fun hname =>
      Disk.location_entryPath_ne_temporaryPath s.disk root hname' hname
  constructor
  · intro hsame hstrands
    have hstays := hspares.stays hstrands
    rw [hsame, hunused] at hstays
    cases hstays
  · intro hstrands place
    by_cases hplace : place = (s.disk.temporaryPath root name).location
    · subst hplace
      rcases hspares.goes hstrands with hgone | hsame
      · rw [hgone, hunused]
      · exact hsame
    · exact hspares.elsewhere place fun _ => hplace

/-- A disk with a root in which a file has the name of a version's directory. -/
def blocked : Storage where
  disk :=
    { files := ⟨[(["c"], .directory), (["c", "v2"], .file [0])]⟩
      writer := 2 }

/-- A disk with a root in which a directory has the name of an entry. -/
def occupied : Storage where
  disk :=
    { files := ⟨[(["c"], .directory), (["c", "v2"], .directory),
        (["c", "v2", "a.B.umbc"], .directory)]⟩
      writer := 2 }

/-- A failed put where the entry's name is taken: the temporary file was written, and is gone. -/
theorem failed_put_leaves_files_occupied :
    (put ⟨.disk ['/', 'c'], 2, true⟩ occupied "a.B" [1]).1 = .error (.io .isADirectory) ∧
    ∀ place, (put ⟨.disk ['/', 'c'], 2, true⟩ occupied "a.B" [1]).2.disk.files.fileAt? place =
      occupied.disk.files.fileAt? place := by
  have hput : (put ⟨.disk ['/', 'c'], 2, true⟩ occupied "a.B" [1]).1 =
      .error (.io .isADirectory) := by
    decide +kernel
  obtain ⟨root, hroot, -, -, -, -, -, hiff, -⟩ := failed_put_leaves_files_iff (Prod.ext hput rfl)
  cases hroot
  have hunused : occupied.disk.files.fileAt?
      (occupied.disk.temporaryPath ['/', 'c'] "a.B").location = none := by
    decide +kernel
  refine ⟨hput, (hiff hunused).2 ?_⟩
  rintro ⟨-, -, hblocked⟩
  exact hblocked occupied.disk.files (by decide +kernel)

/-- A failed put where the directory of the version cannot be made: the temporary file is new. -/
theorem failed_put_strands_file :
    (put ⟨.disk ['/', 'c'], 2, true⟩ blocked "a.B" [1]).1 = .error (.io .alreadyExists) ∧
    blocked.disk.files.fileAt? ["c", "tmp", "a.B.2.0.tmp"] = none ∧
    (put ⟨.disk ['/', 'c'], 2, true⟩ blocked "a.B" [1]).2.disk.files.fileAt?
      ["c", "tmp", "a.B.2.0.tmp"] = some (Disk.withChecksum [1]) := by
  decide +kernel

end ClassCache

end Interpose
