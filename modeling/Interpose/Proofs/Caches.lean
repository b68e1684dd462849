import Interpose.Cache.Basic
import Interpose.Proofs.ClassFiles
import Interpose.Proofs.FileTrees
/-!
# What caches hold

Caches may be views of the same storage, and writing to one can be writing to another: two names for
one directory, or two stores that are the same. What makes this harmless is that an entry's place
tells the class that it is for. A bound on what entries are, class by class, therefore holds of all
caches or can be broken in all of them by one entry, whichever cache that was put into. Only entries
at a cache's own version count for it.

On disk the bound is on every file that lies where an entry could be read from, whether or not the
directories on the way are there: a later write may make them.

## Main definitions

* `ClassCache.HoldsOnly`: a bound on the entries of a cache
* `ClassCache.Vacant`: a cache without entries
* `ClassCache.find?`: the class file that a cache holds

## Main results

* `ClassCache.HoldsOnly.put`: writing a bounded entry to any cache keeps the bound of every cache
-/

namespace Interpose

namespace Disk

variable {d : Disk} {root root' : Path} {version version' : UInt32} {name name' : String}
  {bytes content : Bytes}

theorem checkedBody_withChecksum (file : Path) (bytes : Bytes) :
    checkedBody file (withChecksum bytes) = .ok bytes := by
  have hlength : ¬ (withChecksum bytes).length < checksumSize := by
    simp [withChecksum, checksumSize]
  rw [checkedBody, if_neg hlength]
  simp [withChecksum, checksumSize]

/-- An entry that is read lies in its place, with the right checksum. -/
theorem readEntry_eq_ok (h : d.readEntry root version name = .ok (some bytes)) :
    isEntryName name ∧ ∃ content,
      d.files.entry? (entryPath root version name).location = some (.file content) ∧
        checkedBody (entryPath root version name) content = .ok bytes := by
  rw [readEntry] at h
  split at h
  · cases h
  rename_i hname
  dsimp only at h
  split at h
  · cases h
  · cases h
  rename_i content hread
  refine ⟨by simpa using hname, content, FileTree.read_eq_ok hread, ?_⟩
  cases hbody : checkedBody (entryPath root version name) content with
  | error e =>
    rw [hbody] at h
    cases h
  | ok body =>
    rw [hbody] at h
    cases h
    rfl

/-- The last name of an entry's place. -/
theorem eq_last_of_location {place : Location} {last : String} (hname : isEntryName name)
    (h : (entryPath root version name).location = place ++ [last]) : name ++ ".umbc" = last := by
  rw [location_entryPath hname] at h
  exact List.singleton_inj.1 (List.append_inj' h rfl).2

/-- No entry lies under a temporary name. -/
theorem location_entryPath_ne_temporaryPath (d : Disk) (root' : Path) (hname : isEntryName name)
    (hname' : isEntryName name') :
    (entryPath root version name).location ≠ (d.temporaryPath root' name').location := by
  intro h
  obtain ⟨stem, hstem⟩ := location_temporaryPath d hname'
  have hlast := eq_last_of_location hname (h.trans hstem)
  have hchars := congrArg (fun s => s.toList.getLast?) hlast
  simp at hchars

/-- A file that writing an entry left behind is in no place but that of an entry of the same class.
-/
theorem Written.eq (h : d.Written root' version' name' bytes
      (entryPath root version name).location content) (hname : isEntryName name) :
    name = name' ∧ content = withChecksum bytes := by
  obtain ⟨hname', hcontent, hplace⟩ := h
  refine ⟨?_, hcontent⟩
  rcases hplace with hplace | hplace
  · exact absurd hplace (location_entryPath_ne_temporaryPath d root' hname hname')
  · have hlast := eq_last_of_location hname (hplace.trans (location_entryPath hname'))
    simpa using hlast

end Disk

namespace Storage

theorem store_modify_self {s : Storage} {a : StoreRef} (h : a.index < s.stores.size)
    (f : MemoryStore → MemoryStore) :
    Storage.store { s with stores := s.stores.modify a.index f } a = f (s.store a) := by
  simp [store, Array.getElem?_modify, Array.getElem?_eq_getElem h]

/-- Changing a store changes no other one. -/
theorem store_modify (s : Storage) (a b : StoreRef) (f : MemoryStore → MemoryStore) :
    Storage.store { s with stores := s.stores.modify a.index f } b = s.store b ∨
      Storage.store { s with stores := s.stores.modify a.index f } b = f (s.store b) := by
  simp only [store, Array.getD_eq_getD_getElem?, Array.getElem?_modify]
  by_cases h : a.index = b.index
  · rw [if_pos h]
    cases s.stores[b.index]? with
    | none => exact .inl rfl
    | some x => exact .inr rfl
  · rw [if_neg h]
    exact .inl rfl

end Storage

namespace ClassCache

variable {c c' : ClassCache} {s : Storage} {P Q : String → Bytes → Prop} {name : String}
  {bytes : Bytes}

/-- The entries of a cache are as said. -/
def HoldsOnly (c : ClassCache) (s : Storage) (P : String → Bytes → Prop) : Prop :=
  match c.backend with
  | .memory store => ∀ name bytes, (s.store store).get? name c.version = some bytes → P name bytes
  | .disk root => ∀ name content bytes, Disk.isEntryName name →
      s.disk.files.entry? (Disk.entryPath root c.version name).location = some (.file content) →
        Disk.checkedBody (Disk.entryPath root c.version name) content = .ok bytes → P name bytes

/-- A cache without entries. -/
def Vacant (c : ClassCache) (s : Storage) : Prop := c.HoldsOnly s fun _ _ => False

theorem HoldsOnly.mono (h : c.HoldsOnly s P) (hpq : ∀ name bytes, P name bytes → Q name bytes) :
    c.HoldsOnly s Q := by
  rw [HoldsOnly] at h ⊢
  split at h
  · exact fun name bytes hb => hpq _ _ (h name bytes hb)
  · exact fun name content bytes hname he hb => hpq _ _ (h name content bytes hname he hb)

theorem Vacant.holdsOnly (h : c.Vacant s) : c.HoldsOnly s P := h.mono fun _ _ hf => hf.elim

/-- What can be read from a cache is as said. -/
theorem HoldsOnly.get? (h : c.HoldsOnly s P) (hb : c.get? s name = some bytes) : P name bytes := by
  rw [HoldsOnly] at h
  rw [ClassCache.get?] at hb
  split at h
  · next store hbackend =>
    rw [hbackend] at hb
    exact h name bytes hb
  · next root hbackend =>
    rw [hbackend] at hb
    dsimp only at hb
    split at hb
    · next hread =>
      subst hb
      obtain ⟨hname, content, hcontent, hbody⟩ := Disk.readEntry_eq_ok hread
      exact h name content bytes hname hcontent hbody
    · cases hb

/-- **Writing keeps bounds.** An entry within the bound, put into any cache, leaves every cache
within it. -/
theorem HoldsOnly.put (h : c.HoldsOnly s P) (hp : P name bytes) :
    c.HoldsOnly (c'.put s name bytes).2 P := by
  rw [ClassCache.put]
  split
  · exact h
  split
  · next store' hbackend' =>
    rw [HoldsOnly] at h ⊢
    split at h
    · next store hbackend =>
      intro n b hb
      rcases s.store_modify store' store (·.insert name c'.version bytes) with hs | hs
      · rw [hs] at hb
        exact h n b hb
      rw [hs] at hb
      by_cases heq : (n, c.version) = (name, c'.version)
      · obtain ⟨hname, hversion⟩ := Prod.ext_iff.1 heq
        dsimp only at hname hversion
        rw [hname, hversion, MemoryStore.get?_insert_self] at hb
        cases hb
        exact hname ▸ hp
      · rw [MemoryStore.get?_insert_of_ne _ _ heq] at hb
        exact h n b hb
    · exact h
  · next root' hbackend' =>
    have hadds := s.disk.adds_writeEntry root' c'.version name bytes
    rw [HoldsOnly] at h ⊢
    split at h
    · exact h
    · next root hbackend =>
      intro n content b hn hcontent hbody
      rcases hadds _ _ hcontent with hold | hnew
      · exact h n content b hn hold hbody
      obtain ⟨rfl, rfl⟩ := hnew.eq hn
      rw [Disk.checkedBody_withChecksum] at hbody
      cases hbody
      exact hp

theorem vacant_addStore (s : Storage) (version : UInt32) (writing : Bool) :
    Vacant ⟨.memory s.addStore.1, version, writing⟩ s.addStore.2 := by
  intro name bytes hb
  have hstore : s.addStore.2.store s.addStore.1 = {} := by
    simp [Storage.store, Storage.addStore]
  dsimp only at hb
  rw [hstore] at hb
  cases hb

/-! ### Cached class files -/

/-- The class file that a cache holds for a name, if it holds one that decodes. -/
def find? (c : ClassCache) (s : Storage) (name : String) : Option ClassFile :=
  (c.get? s name).bind fun bytes => (ClassFile.decode bytes).toOption

theorem HoldsOnly.find? {file : ClassFile} (h : c.HoldsOnly s P) (hf : c.find? s name = some file) :
    ∃ bytes, P name bytes ∧ ClassFile.decode bytes = .ok file := by
  obtain ⟨bytes, hb, hd⟩ := Option.bind_eq_some_iff.1 hf
  refine ⟨bytes, h.get? hb, ?_⟩
  cases hdecode : ClassFile.decode bytes with
  | error e =>
    rw [hdecode] at hd
    cases hd
  | ok _ =>
    rw [hdecode] at hd
    cases hd
    rfl

/-! ### A cache in memory that is open for writing -/

theorem size_stores_put_memory (store : StoreRef) (version : UInt32) (s : Storage) (name : String)
    (bytes : Bytes) :
    (put ⟨.memory store, version, true⟩ s name bytes).2.stores.size = s.stores.size :=
  Array.size_modify ..

/-- It holds what was put into it last, and what it held under other names. -/
theorem find?_put_memory {store : StoreRef} (hstore : store.index < s.stores.size)
    (version : UInt32) (name name' : String) (bytes : Bytes) :
    find? ⟨.memory store, version, true⟩ (put ⟨.memory store, version, true⟩ s name bytes).2 name' =
      if name' = name then (ClassFile.decode bytes).toOption
      else find? ⟨.memory store, version, true⟩ s name' := by
  have hput : (put ⟨.memory store, version, true⟩ s name bytes).2 =
      { s with stores := s.stores.modify store.index (·.insert name version bytes) } := rfl
  rw [hput]
  simp only [ClassCache.find?, ClassCache.get?, Storage.store_modify_self hstore]
  by_cases heq : name' = name
  · rw [if_pos heq, heq, MemoryStore.get?_insert_self, Option.bind_some]
  · rw [if_neg heq, MemoryStore.get?_insert_of_ne _ _ fun h => heq (Prod.ext_iff.1 h).1]

end ClassCache

end Interpose
