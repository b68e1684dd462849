import Mathlib.Logic.Function.Basic
import Interpose.Proofs.Caches
import Interpose.Proofs.Directories
/-!
# A cache on disk is a map

Several views may be open on one root, each at its own version, for writing or not. As long as the
writes succeed and nobody else touches the root, they answer as views of one store in memory do, and
both answer as a map from names and versions to bytes.

The argument is about single entries. An entry's place tells its name and version, so entries of
different keys are different files. Where directories are made already, a successful write comes to
one change at one place: making directories again does nothing, the unfinished file is gone when the
finished one is there, and the checksum in front is taken off on reading.

A fresh root is one that can be made and has nothing in it then. This says nothing about where the
root is, and lets it be there already.

## Main definitions

* `ClassCache.openEach`: opens several views of one root
* `ClassCache.Call`, `ClassCache.performAll`: calls of views, one after the other
* `ClassCache.answers`: what a map answers to calls
* `Disk.Mirrors`: a root holds the entries of a map

## Main results

* `Disk.writeEntry_eq_ok`: a successful write is one change
* `ClassCache.answers_memory`: views of a store answer as a map does
* `ClassCache.disk_refines_memory`: views of a root answer as views of a store do
-/

namespace Interpose

namespace Disk

variable {d d' : Disk} {t t' : FileTree} {root : Path} {version version' : UInt32}
  {name name' : String} {bytes : Bytes}

/-! ### Places -/

theorem isName_version (version : UInt32) :
    Path.IsName ("v" ++ toString version.toNat).toList := by
  have hv : ("v" ++ toString version.toNat).toList = 'v' :: (toString version.toNat).toList := by
    rw [String.toList_append]
    rfl
  rw [hv]
  refine ⟨by simp, by simp, by simp, ?_⟩
  rw [List.mem_cons, not_or]
  exact ⟨by decide, slash_not_mem_toString _⟩

theorem isName_tmp : Path.IsName "tmp".toList :=
  ⟨by decide, by decide, by decide, by decide⟩

theorem isName_entry (h : isEntryName name) : Path.IsName (name ++ ".umbc").toList := by
  rw [String.toList_append]
  exact isName_of_extension (not_mem_of_isEntryName h) (by decide) (by decide)

theorem location_versionDirectory (root : Path) (version : UInt32) :
    (versionDirectory root version).location = root.location ++ ["v" ++ toString version.toNat] := by
  rw [versionDirectory, Path.location_join (isName_version version), String.ofList_toList]

theorem location_temporaryDirectory (root : Path) :
    (temporaryDirectory root).location = root.location ++ ["tmp"] :=
  Path.location_join isName_tmp

theorem version_ne_tmp (version : UInt32) : "v" ++ toString version.toNat ≠ "tmp" := by
  intro h
  have hhead := congrArg (fun s => s.toList.head?) h
  rw [String.toList_append] at hhead
  exact absurd hhead (by simp)

/-- An entry's place, from the root's. -/
theorem location_entry (h : isEntryName name) : (entryPath root version name).location =
    root.location ++ ["v" ++ toString version.toNat, name ++ ".umbc"] := by
  rw [location_entryPath h, location_versionDirectory, List.append_assoc]
  rfl

/-- **Places tell keys apart.** -/
theorem entryPath_inj (h : isEntryName name) (h' : isEntryName name')
    (heq : (entryPath root version name).location = (entryPath root version' name').location) :
    (name, version) = (name', version') := by
  rw [location_entry h, location_entry h'] at heq
  have hlist := List.append_cancel_left heq
  simp only [List.cons.injEq, String.append_right_inj, String.append_left_inj, and_true] at hlist
  obtain ⟨hversion, rfl⟩ := hlist
  have hnumber := congrArg (fun s => Nat.ofDigitChars 10 s.toList 0) hversion
  have hnat : version.toNat = version'.toNat := by
    simpa [Nat.toString_eq_ofList_toDigits] using hnumber
  rw [UInt32.toNat_inj.1 hnat]

/-! ### One write -/

/-- A directory that is there and has nothing in it. -/
structure IsBare (t : FileTree) (p : Path) : Prop where
  hasDirectory : t.HasDirectory p
  entry? : ∀ {below}, below ≠ [] → t.entry? (p.location ++ below) = none

/-- **One write.** Where the directories are there and nothing is unfinished, writing an entry with
success changes what is in the entry's place, and nothing else. The place can be read then. -/
theorem writeEntry_eq_ok (hbare : IsBare d.files (temporaryDirectory root))
    (hdirectory : d.files.HasDirectory (versionDirectory root version))
    (h : d.writeEntry root version name bytes = (.ok (), d')) :
    d.files.Keeps d'.files ∧
      (∀ q, d'.files.entry? q =
        if q = (entryPath root version name).location then some (.file (withChecksum bytes))
        else d.files.entry? q) ∧
      d'.files.resolve (entryPath root version name) =
        .ok ((entryPath root version name).location, some (.file (withChecksum bytes))) := by
  rw [writeEntry] at h
  split at h
  · cases h
  next hname =>
  have hname : isEntryName name := by simpa using hname
  split at h
  · cases h
  next files₁ hmade =>
  obtain rfl := FileTree.createDirectory_of_hasDirectory hbare.hasDirectory hmade
  dsimp only at h
  split at h
  · cases h
  next files₂ hwrite =>
  have hkeeps := FileTree.keeps_write hwrite
  split at h
  · cases h
  next files₃ hmade =>
  obtain rfl := FileTree.createDirectory_of_hasDirectory (hdirectory.keeps hkeeps) hmade
  rw [settle] at h
  split at h
  · cases h
  next files₄ hrename =>
  dsimp only at hrename
  cases h
  obtain ⟨content, hcontent, hentries⟩ := FileTree.entry?_of_rename hrename
  obtain rfl : withChecksum bytes = content := by
    have hwritten := (FileTree.entry?_of_write hwrite).symm.trans hcontent
    simpa using hwritten
  obtain ⟨e, hresolve, -⟩ := FileTree.resolve_of_rename hrename
  have hkeeps' := FileTree.keeps_rename hrename
  have hslash : (entryPath root version name).namesDirectory = false :=
    Path.namesDirectory_join (isName_entry hname)
  refine ⟨hkeeps.trans hkeeps', fun q => ?_, ?_⟩
  · rw [hentries]
    by_cases hq : q = (entryPath root version name).location
    · rw [if_pos hq, if_pos hq]
    rw [if_neg hq, if_neg hq]
    obtain ⟨stem, hstem⟩ := location_temporaryPath d hname
    have hnone : d.files.entry? (d.temporaryPath root name).location = none := by
      rw [hstem]
      exact hbare.entry? (List.cons_ne_nil _ _)
    split
    · next hq => rw [hq, hnone]
    · next hq => rw [(FileTree.write_eq_ok hwrite).1, FileTree.entry?_put, if_neg fun h => hq h.2]
  · rw [FileTree.resolve_of_keeps hkeeps' hslash hresolve, hentries, if_pos rfl]

/-! ### Opening -/

/-- A root that can be made, and has nothing in it then. -/
def Fresh (t : FileTree) (root : Path) : Prop :=
  ∃ made, t.createDirectory root = .ok made ∧ IsBare made root

/-- A root that can be made, and has nothing in it then but directories. -/
def Unfilled (t : FileTree) (root : Path) : Prop :=
  ∃ made, t.createDirectory root = .ok made ∧ ∀ below e, below ≠ [] →
    made.entry? (root.location ++ below) = some e → below.length = 1 ∧ e = .directory

theorem Fresh.unfilled (h : Fresh t root) : Unfilled t root := by
  obtain ⟨made, hmade, hbare⟩ := h
  refine ⟨made, hmade, fun below e hne he => ?_⟩
  cases (hbare.entry? hne).symm.trans he

theorem Unfilled.entry? (h : Unfilled t root) {below : Location} (hlength : 1 < below.length) :
    t.entry? (root.location ++ below) = none := by
  obtain ⟨made, hmade, hbelow⟩ := h
  cases he : t.entry? (root.location ++ below) with
  | none => rfl
  | some e =>
    have hne : below ≠ [] := List.ne_nil_of_length_pos (by omega)
    have hone := (hbelow below e hne (FileTree.grows_createDirectory hmade _ _ he)).1
    omega

/-- Directories in the root may come. -/
theorem Unfilled.createDirectory {x : Path} (hx : x.IsName) (h : Unfilled t root)
    (hmade : t.createDirectory (root.join x) = .ok t') : Unfilled t' root := by
  obtain ⟨made, hroot, hbelow⟩ := h
  have hd := FileTree.hasDirectory_createDirectory hroot
  rcases FileTree.createDirectory_join hx hroot hmade with rfl | rfl
  · exact ⟨t', FileTree.createDirectory_again hroot hd, hbelow⟩
  · have hgrows : made.Keeps (made.put (root.join x).location .directory) := by
      intro q hq
      rw [FileTree.entry?_put]
      split
      · rfl
      · exact hq
    refine ⟨_, FileTree.createDirectory_again hroot (hd.keeps hgrows), fun below e hne he => ?_⟩
    rw [FileTree.entry?_put] at he
    split at he
    · next hq =>
      rw [Path.location_join hx, List.append_cancel_left_eq] at hq
      cases he
      exact ⟨by rw [hq.2]; rfl, rfl⟩
    · exact hbelow below e hne he

theorem openRoot_eq_ok (h : Unfilled d.files root)
    (hopen : d.openRoot root version = (.ok (), d')) :
    Unfilled d'.files root ∧ d.files.Keeps d'.files ∧
      d'.files.HasDirectory (versionDirectory root version) ∧
      d'.files.HasDirectory (temporaryDirectory root) := by
  rw [openRoot] at hopen
  split at hopen
  · cases hopen
  next files₁ hversion =>
  split at hopen
  · cases hopen
  next files₂ htemporary =>
  cases hopen
  have hkeeps := (FileTree.grows_createDirectory htemporary).keeps
  exact ⟨(h.createDirectory (isName_version version) hversion).createDirectory isName_tmp htemporary,
    (FileTree.grows_createDirectory hversion).keeps.trans hkeeps,
    (FileTree.hasDirectory_createDirectory hversion).keeps hkeeps,
    FileTree.hasDirectory_createDirectory htemporary⟩

theorem Unfilled.isBare (h : Unfilled t root) (hd : t.HasDirectory (temporaryDirectory root)) :
    IsBare t (temporaryDirectory root) := by
  refine ⟨hd, fun {below} hne => ?_⟩
  rw [location_temporaryDirectory, List.append_assoc]
  refine h.entry? ?_
  have hpos := List.length_pos_iff.2 hne
  rw [List.length_append, List.length_singleton]
  omega

end Disk

namespace ClassCache

-- Without this the equations below walk the directories of a root that is not known.
attribute [local irreducible] Disk.openRoot

/-- Opens views of one root, one after the other, each at its own version and for writing or not. -/
def openEach (s : Storage) (root : Path) :
    List (UInt32 × Bool) → Except CacheError (List ClassCache) × Storage
  | [] => (.ok [], s)
  | (version, writing) :: rest =>
    match openDisk s root version with
    | (.error e, s) => (.error e, s)
    | (.ok c, s) =>
      match openEach s root rest with
      | (.error e, s) => (.error e, s)
      | (.ok handles, s) => (.ok ((if writing then c else c.readOnly) :: handles), s)

/-- What a view is asked for. -/
inductive Query
  | get
  | put (bytes : Bytes)
  deriving DecidableEq, Repr

/-- A call of a view. -/
structure Call where
  cache : ClassCache
  name : String
  query : Query
  deriving DecidableEq, Repr

/-- What a view answers. -/
inductive Answer
  | got (entry : Option Bytes)
  | stored (result : Except CacheError Unit)
  deriving DecidableEq

/-- Whether a write failed. -/
def Answer.failed : Answer → Bool
  | .stored (.error _) => true
  | _ => false

/-- The same call of a view of something else. -/
def Call.over (b : Backend) (call : Call) : Call :=
  { call with cache := { call.cache with backend := b } }

/-- The answer to a call, and what it leaves. -/
def Call.perform (s : Storage) (call : Call) : Answer × Storage :=
  match call.query with
  | .get => (.got (call.cache.get? s call.name), s)
  | .put bytes => (call.cache.put s call.name bytes).map .stored id

/-- The answer to each of some calls, and what it leaves. -/
def performAll (s : Storage) : List Call → List (Answer × Storage)
  | [] => []
  | call :: rest => call.perform s :: performAll (call.perform s).2 rest

/-! ### What a map answers -/

/-- Bytes by name and version. -/
abbrev Held := String × UInt32 → Option Bytes

/-- The answer of a map to a call. -/
def Call.answer (held : Held) (call : Call) : Answer :=
  match call.query with
  | .get => .got (held (call.name, call.cache.version))
  | .put _ => .stored (.ok ())

/-- The map after a call. -/
def Call.update (held : Held) (call : Call) : Held :=
  match call.query with
  | .get => held
  | .put bytes =>
    if call.cache.writing then
      Function.update held (call.name, call.cache.version) (some bytes)
    else held

/-- The answers of a map to some calls. -/
def answers (held : Held) : List Call → List Answer
  | [] => []
  | call :: rest => call.answer held :: answers (call.update held) rest

variable {c : ClassCache} {call : Call} {calls : List Call} {handles : List ClassCache}
  {held : Held} {s s' : Storage} {root : Path} {store : StoreRef} {views : List (UInt32 × Bool)}
  {name : String} {bytes : Bytes}

/-! ### Views of a store -/

/-- A store in memory holds what a map does. -/
structure Holds (s : Storage) (store : StoreRef) (held : Held) : Prop where
  exists_store : store.index < s.stores.size
  get? : ∀ name version, (s.store store).get? name version = held (name, version)

theorem perform_memory (h : Holds s store held) (call : Call) :
    ((call.over (.memory store)).perform s).1 = call.answer held ∧
      Holds ((call.over (.memory store)).perform s).2 store (call.update held) := by
  obtain ⟨⟨backend, version, writing⟩, name, query⟩ := call
  cases query with
  | get => exact ⟨congrArg Answer.got (h.get? name version), h⟩
  | put bytes =>
    cases writing with
    | false => exact ⟨rfl, h⟩
    | true =>
      have hupdate : Call.update held ⟨⟨backend, version, true⟩, name, .put bytes⟩ =
          Function.update held (name, version) (some bytes) := rfl
      rw [hupdate]
      refine ⟨rfl, (Array.size_modify ..).symm ▸ h.exists_store, fun name' version' => ?_⟩
      have hstore := Storage.store_modify_self h.exists_store (·.insert name version bytes)
      refine (congrArg (·.get? name' version') hstore).trans ?_
      by_cases hkey : (name', version') = (name, version)
      · obtain ⟨rfl, rfl⟩ := Prod.ext_iff.1 hkey
        rw [MemoryStore.get?_insert_self, Function.update_self]
      · rw [MemoryStore.get?_insert_of_ne _ _ hkey, h.get?, Function.update_of_ne hkey]

/-- **Views of a store** answer as a map does. -/
theorem answers_memory (h : Holds s store held) (calls : List Call) :
    (performAll s (calls.map (·.over (.memory store)))).map Prod.fst = answers held calls := by
  induction calls generalizing s held with
  | nil => rfl
  | cons call rest ih =>
    obtain ⟨hanswer, hholds⟩ := perform_memory h call
    rw [List.map_cons, performAll, List.map_cons, answers, hanswer, ih hholds]

/-! ### Views of a root -/

theorem openEach_eq_ok (h : Disk.Unfilled s.disk.files root)
    (hopen : openEach s root views = (.ok handles, s')) :
    handles = views.map (fun v => ⟨.disk root, v.1, v.2⟩) ∧ Disk.Unfilled s'.disk.files root ∧
      s.disk.files.Keeps s'.disk.files ∧ ∀ c ∈ handles,
        s'.disk.files.HasDirectory (Disk.versionDirectory root c.version) ∧
        s'.disk.files.HasDirectory (Disk.temporaryDirectory root) := by
  induction views generalizing s handles with
  | nil =>
    cases hopen
    exact ⟨rfl, h, fun _ hd => hd, by simp⟩
  | cons view rest ih =>
    obtain ⟨version, writing⟩ := view
    rw [openEach, openDisk] at hopen
    cases hroot : s.disk.openRoot root version with
    | mk result d =>
      rw [hroot] at hopen
      cases result with
      | error e => cases hopen
      | ok _ =>
        obtain ⟨hunfilled, hkeeps, hversion, htemporary⟩ := Disk.openRoot_eq_ok h hroot
        dsimp only at hopen
        split at hopen
        · cases hopen
        next others _ hrest =>
        cases hopen
        obtain ⟨rfl, hunfilled', hkeeps', hothers⟩ := ih hunfilled hrest
        refine ⟨?_, hunfilled', hkeeps.trans hkeeps', ?_⟩
        · cases writing <;> rfl
        · intro c hc
          rcases List.mem_cons.1 hc with rfl | hc
          · cases writing <;> exact ⟨hversion.keeps hkeeps', htemporary.keeps hkeeps'⟩
          · exact hothers c hc

end ClassCache

namespace Disk

variable {t t' : FileTree} {root : Path} {handles : List ClassCache} {held : ClassCache.Held}
  {version : UInt32} {name : String} {bytes : Bytes}

/-- The entries of a root are those of a map, and nothing is unfinished. -/
structure Mirrors (t : FileTree) (root : Path) (handles : List ClassCache)
    (held : ClassCache.Held) : Prop where
  isBare : ∀ c ∈ handles, IsBare t (temporaryDirectory root)
  hasDirectory : ∀ c ∈ handles, t.HasDirectory (versionDirectory root c.version)
  resolve : ∀ {version name bytes}, isEntryName name → held (name, version) = some bytes →
    t.resolve (entryPath root version name) =
      .ok ((entryPath root version name).location, some (.file (withChecksum bytes)))
  vacant : ∀ {version name content}, isEntryName name → held (name, version) = none →
    t.entry? (entryPath root version name).location ≠ some (.file content)

theorem Unfilled.mirrors (h : Unfilled t root)
    (hd : ∀ c ∈ handles, t.HasDirectory (versionDirectory root c.version) ∧
      t.HasDirectory (temporaryDirectory root)) : Mirrors t root handles fun _ => none where
  isBare c hc := h.isBare (hd c hc).2
  hasDirectory c hc := (hd c hc).1
  resolve _ he := nomatch he
  vacant {version name content} hname _ he := by
    rw [location_entry hname, h.entry? (by simp)] at he
    cases he

theorem Mirrors.readEntry {d : Disk} (h : Mirrors d.files root handles held)
    (hname : isEntryName name) (hheld : held (name, version) = some bytes) :
    d.readEntry root version name = .ok (some bytes) := by
  have hread : d.files.read (entryPath root version name) = .ok (withChecksum bytes) := by
    rw [FileTree.read, h.resolve hname hheld]
  simp [Disk.readEntry, hname, hread, checkedBody_withChecksum, Except.map]

/-- Reading answers as the map does. Names that are too long for a file are no exception: reading
fails, and nothing was written. -/
theorem Mirrors.get? {s : Storage} (h : Mirrors s.disk.files root handles held)
    (hname : isEntryName name) (writing : Bool) :
    ClassCache.get? ⟨.disk root, version, writing⟩ s name = held (name, version) := by
  rw [ClassCache.get?]
  dsimp only
  cases hheld : held (name, version) with
  | some bytes => rw [h.readEntry hname hheld]
  | none =>
    cases hread : s.disk.readEntry root version name with
    | error e => rfl
    | ok entry =>
      cases entry with
      | none => rfl
      | some bytes =>
        obtain ⟨-, content, hcontent, -⟩ := readEntry_eq_ok hread
        exact absurd hcontent (h.vacant hname hheld)

/-- One change at the place of a key is one change of the map. -/
theorem Mirrors.update (h : Mirrors t root handles held) (hname : isEntryName name)
    (hkeeps : t.Keeps t')
    (hentries : ∀ q, t'.entry? q = if q = (entryPath root version name).location
      then some (.file (withChecksum bytes)) else t.entry? q)
    (hresolve : t'.resolve (entryPath root version name) =
      .ok ((entryPath root version name).location, some (.file (withChecksum bytes)))) :
    Mirrors t' root handles (Function.update held (name, version) (some bytes)) where
  isBare c hc := by
    have hbare := h.isBare c hc
    refine ⟨hbare.hasDirectory.keeps hkeeps, fun {below} hne => ?_⟩
    rw [hentries, if_neg, hbare.entry? hne]
    rw [location_temporaryDirectory, location_entry hname, List.append_assoc,
      List.append_cancel_left_eq]
    intro heq
    exact version_ne_tmp version (List.cons.inj heq).1.symm
  hasDirectory c hc := (h.hasDirectory c hc).keeps hkeeps
  resolve {version' name' bytes'} hname' hheld := by
    by_cases hkey : (name', version') = (name, version)
    · obtain ⟨rfl, rfl⟩ := Prod.ext_iff.1 hkey
      rw [Function.update_self] at hheld
      cases hheld
      exact hresolve
    rw [Function.update_of_ne hkey] at hheld
    have hslash : (entryPath root version' name').namesDirectory = false :=
      Path.namesDirectory_join (isName_entry hname')
    have hold := h.resolve hname' hheld
    rw [FileTree.resolve_of_keeps hkeeps hslash hold, hentries,
      if_neg fun heq => hkey (entryPath_inj hname' hname heq), (FileTree.resolve_eq_ok hold).2]
  vacant {version' name' content} hname' hheld := by
    by_cases hkey : (name', version') = (name, version)
    · rw [hkey, Function.update_self] at hheld
      cases hheld
    rw [Function.update_of_ne hkey] at hheld
    rw [hentries, if_neg fun heq => hkey (entryPath_inj hname' hname heq)]
    exact h.vacant hname' hheld

end Disk

namespace ClassCache

variable {c : ClassCache} {call : Call} {calls : List Call} {handles : List ClassCache}
  {held : Held} {s s₀ : Storage} {root : Path} {views : List (UInt32 × Bool)}

/-- **One call.** A view of a root that holds the entries of a map answers as the map does, and the
root holds the entries of the map after the call, unless a write fails. -/
theorem perform_disk (h : Disk.Mirrors s.disk.files root handles held)
    (hcache : call.cache ∈ handles) (hbackend : call.cache.backend = .disk root)
    (hname : Disk.isEntryName call.name)
    (hstored : (call.perform s).1.failed = false) :
    (call.perform s).1 = call.answer held ∧
      Disk.Mirrors (call.perform s).2.disk.files root handles (call.update held) := by
  obtain ⟨⟨backend, version, writing⟩, name, query⟩ := call
  obtain rfl : backend = .disk root := hbackend
  cases query with
  | get => exact ⟨congrArg Answer.got (h.get? hname writing), h⟩
  | put bytes =>
    cases writing with
    | false => exact ⟨rfl, h⟩
    | true =>
      have hupdate : Call.update held ⟨⟨.disk root, version, true⟩, name, .put bytes⟩ =
          Function.update held (name, version) (some bytes) := rfl
      rw [hupdate]
      cases hwrite : s.disk.writeEntry root version name bytes with
      | mk result d =>
        have hperform : Call.perform s ⟨⟨.disk root, version, true⟩, name, .put bytes⟩ =
            (.stored result, { s with disk := d }) := by
          rw [Call.perform]
          simp only [put, hwrite]
          rfl
        rw [hperform] at hstored ⊢
        cases result with
        | error e => cases hstored
        | ok _ =>
          obtain ⟨hkeeps, hentries, hresolve⟩ :=
            Disk.writeEntry_eq_ok (h.isBare _ hcache) (h.hasDirectory _ hcache) hwrite
          exact ⟨rfl, h.update hname hkeeps hentries hresolve⟩

theorem answers_disk (h : Disk.Mirrors s.disk.files root handles held)
    (hbackend : ∀ c ∈ handles, c.backend = .disk root) (hcaches : ∀ call ∈ calls, call.cache ∈ handles)
    (hnames : ∀ call ∈ calls, Disk.isEntryName call.name)
    (hstored : ∀ x ∈ performAll s calls, x.1.failed = false) :
    (performAll s calls).map Prod.fst = answers held calls ∧
      ∀ x ∈ performAll s calls, Disk.IsBare x.2.disk.files (Disk.temporaryDirectory root) := by
  induction calls generalizing s held with
  | nil => exact ⟨rfl, by simp [performAll]⟩
  | cons call rest ih =>
    rw [List.forall_mem_cons] at hcaches hnames
    rw [performAll, List.forall_mem_cons] at hstored
    obtain ⟨hanswer, hmirrors⟩ :=
      perform_disk h hcaches.1 (hbackend _ hcaches.1) hnames.1 hstored.1
    obtain ⟨hanswers, hbare⟩ := ih hmirrors hcaches.2 hnames.2 hstored.2
    refine ⟨?_, ?_⟩
    · rw [performAll, List.map_cons, answers, hanswer, hanswers]
    · rw [performAll, List.forall_mem_cons]
      exact ⟨hmirrors.isBare _ hcaches.1, hbare⟩

/-- **Caches on disk refine caches in memory.** Views are opened on a fresh root, each at its own
version and for writing or not. Then, as long as no write fails, calls of them under names that can
be files are answered as the same calls of views of an empty store in memory, which is as a map
answers them, and no unfinished file is there after any call. -/
theorem disk_refines_memory {store : StoreRef} {m : Storage} (hfresh : Disk.Fresh s.disk.files root)
    (hopen : openEach s root views = (.ok handles, s₀))
    (hstore : store.index < m.stores.size) (hempty : m.store store = {})
    (hcaches : ∀ call ∈ calls, call.cache ∈ handles)
    (hnames : ∀ call ∈ calls, Disk.isEntryName call.name)
    (hstored : ∀ x ∈ performAll s₀ calls, x.1.failed = false) :
    handles = views.map (fun v => ⟨.disk root, v.1, v.2⟩) ∧
      (performAll s₀ calls).map Prod.fst =
        (performAll m (calls.map (·.over (.memory store)))).map Prod.fst ∧
      (performAll s₀ calls).map Prod.fst = answers (fun _ => none) calls ∧
      ∀ x ∈ performAll s₀ calls, Disk.IsBare x.2.disk.files (Disk.temporaryDirectory root) := by
  obtain ⟨rfl, hunfilled, -, hdirectories⟩ := openEach_eq_ok hfresh.unfilled hopen
  have hbackend : ∀ c ∈ views.map fun v => (⟨.disk root, v.1, v.2⟩ : ClassCache),
      c.backend = .disk root := by
    intro c hc
    obtain ⟨v, -, rfl⟩ := List.mem_map.1 hc
    rfl
  obtain ⟨hanswers, hbare⟩ :=
    answers_disk (hunfilled.mirrors hdirectories) hbackend hcaches hnames hstored
  have hholds : Holds m store fun _ => none := ⟨hstore, fun _ _ => by rw [hempty]; rfl⟩
  exact ⟨rfl, hanswers.trans (answers_memory hholds calls).symm, hanswers, hbare⟩

/-- Two versions open for writing, and the first of them once more, closed for it. -/
def twoVersions : List (UInt32 × Bool) := [(2, true), (3, true), (2, false)]

/-- The second version does not see what the first one stored, the closed view does, and storing
through it does nothing. -/
def crossedCalls : List Call :=
  let at2 : ClassCache := ⟨.disk ['/', 'c'], 2, true⟩
  let at3 : ClassCache := ⟨.disk ['/', 'c'], 3, true⟩
  [⟨at2, "a.B", .put [1]⟩, ⟨at3, "a.B", .get⟩, ⟨at2.readOnly, "a.B", .put [2]⟩,
    ⟨at2.readOnly, "a.B", .get⟩, ⟨at2, "a.B", .put [3]⟩, ⟨at2.readOnly, "a.B", .get⟩]

theorem answers_crossedCalls :
    (performAll (openEach {} ['/', 'c'] twoVersions).2 crossedCalls).map Prod.fst =
      [.stored (.ok ()), .got none, .stored (.ok ()), .got (some [1]), .stored (.ok ()),
        .got (some [3])] := by
  have hfresh : Disk.Fresh {} ['/', 'c'] := by
    have hlocation : Path.location ['/', 'c'] = ["c"] := by decide +kernel
    have hmade : FileTree.createDirectory {} ['/', 'c'] = .ok ⟨[(["c"], .directory)]⟩ := by
      decide +kernel
    refine ⟨_, hmade, FileTree.hasDirectory_createDirectory hmade, fun {below} hne => ?_⟩
    obtain ⟨name, rest, rfl⟩ := List.exists_cons_of_ne_nil hne
    rw [FileTree.entry?, hlocation, List.cons_append, List.nil_append, List.lookup_cons]
    rfl
  have hopen : (openEach {} ['/', 'c'] twoVersions).1 =
      .ok (twoVersions.map fun v => ⟨.disk ['/', 'c'], v.1, v.2⟩) := by decide +kernel
  have hstore : (⟨0⟩ : StoreRef).index < (Storage.addStore {}).2.stores.size := by decide
  have hcaches : ∀ call ∈ crossedCalls, call.cache ∈
      twoVersions.map fun v => (⟨.disk ['/', 'c'], v.1, v.2⟩ : ClassCache) := by decide +kernel
  have hanswers := disk_refines_memory hfresh (Prod.ext hopen rfl) hstore rfl hcaches
    (by decide +kernel) (by decide +kernel)
  exact hanswers.2.2.1.trans (by decide +kernel)

end ClassCache

end Interpose
