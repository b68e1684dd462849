import Interpose.Proofs.Caches
import Interpose.Proofs.Loading
/-!
# When classes are transformed

An instrumenting loader asks its cache first and runs the transformer on what the cache does not
hold. The runs of the transformer, with the writes that follow them, are all that changes the
caches, so where they start out empty the runs so far say what is in them: results of the
transformer on the class files that there are to read. A class from the cache is then the class that
the transformer would have made, and nobody can tell where it came from, except by the counters.

This takes that what is transformed can be stored, all its lengths being within what the format can
count, and that writing to caches does not change the class files to be read. The latter is for
granted where classes come from memory, and a condition on the directories where they come from
files.

## Main definitions

* `Realm.classFile`: the class file that there is to read for a name
* `ClassFile.instrumented`: what comes of instrumenting a class file
* `Realm.History`: runs of the transformer, and the storage after them
* `Realm.Undisturbed`: what is put into caches does not change what there is to be read
* `Realm.Steady`: what loading through caches takes
* `Realm.Follows`: a realm after some loads
* `Realm.Alike`: two realms that differ in caches and counters only

## Main results

* `Realm.History.transform_of_find?`: what caches hold is what the transformer would make
* `Realm.History.nodup_of_shared`: a shared cache in memory spares every second run
* `Load.instrument_apply`: instrumenting a class, whatever the caches hold
-/

namespace Interpose

/-! ### Reading -/

/-- The class file that some bytes are under a name, if they are a verified one. -/
def ClassFile.ofRead (name : String) :
    Except ReadFault (Option Bytes) → Except LoadError ClassFile
  | .error e => .error (.io name e)
  | .ok none => .error (.classNotFound name)
  | .ok (some bytes) =>
    match ClassFile.decode bytes with
    | .error e => .error (.malformed name e)
    | .ok file =>
      if file.name ≠ name then .error (.link (.misnamed name file.name))
      else
        match file.verify with
        | .error e => .error (.verify name e)
        | .ok () => .ok file

/-- The class file that there is to read for a name. -/
def Realm.classFile (r : Realm) (name : String) : Except LoadError ClassFile :=
  ClassFile.ofRead name (r.resources.read r.files name)

namespace Load

variable {α β : Type}

theorem get_bind_apply (f : Realm → Load β) (r : Realm) : ((get : Load Realm) >>= f) r = f r r :=
  rfl

theorem updateLoader_bind_apply (l : LoaderRef) (f : Loader → Loader) (x : Load β) (r : Realm) :
    (updateLoader l f >>= fun _ => x) r = x (r.modifyLoader l f) :=
  rfl

theorem readClassFile_apply (name : String) (r : Realm) :
    readClassFile name r = (r.classFile name, r) := by
  rw [readClassFile, get_bind_apply, Realm.classFile]
  cases r.resources.read r.files name with
  | error e => rfl
  | ok found =>
    cases found with
    | none => rfl
    | some bytes =>
      dsimp only [ClassFile.ofRead]
      cases ClassFile.decode bytes with
      | error e => rfl
      | ok file =>
        by_cases hname : file.name = name
        · simp only [hname, ne_eq, not_true_eq_false, if_false]
          cases file.verify <;> rfl
        · simp only [ne_eq, hname, not_false_eq_true, if_true]
          rfl

end Load

/-! ### Changes -/

namespace Realm

variable {r₀ r u r' : Realm} {l a : LoaderRef} {f g : Loader → Loader} {work : Instrumentation}
  {name : String} {file transformed : ClassFile} {runs : List (LoaderRef × String)} {s : Storage}

/-- There is such a loader. -/
def HasLoader (r : Realm) (l : LoaderRef) : Prop := l.index < r.loaders.size

instance (r : Realm) (l : LoaderRef) : Decidable (r.HasLoader l) :=
  inferInstanceAs (Decidable (_ < _))

theorem loader_of_not_hasLoader (h : ¬ r.HasLoader l) : r.loader l = default := by
  have hnone : r.loaders[l.index]? = none := Array.getElem?_eq_none (Nat.le_of_not_lt h)
  rw [loader, Array.getD_eq_getD_getElem?, hnone]
  rfl

theorem HasLoader.of_kind (h : (r.loader l).kind = .instrumenting work) : r.HasLoader l := by
  refine Decidable.byContradiction fun hnot => ?_
  rw [loader_of_not_hasLoader hnot] at h
  cases h

@[simp] theorem size_modifyLoader (r : Realm) (l : LoaderRef) (f : Loader → Loader) :
    (r.modifyLoader l f).loaders.size = r.loaders.size :=
  Array.size_modify ..

theorem loader_modifyLoader_self (h : r.HasLoader l) :
    (r.modifyLoader l f).loader l = f (r.loader l) := by
  simp [loader, modifyLoader, Array.getElem?_modify, Array.getElem?_eq_getElem h]

theorem loader_modifyLoader_of_ne (h : l ≠ a) : (r.modifyLoader l f).loader a = r.loader a := by
  have hindex : l.index ≠ a.index := fun e => h (by cases l; cases a; cases e; rfl)
  simp [loader, modifyLoader, Array.getElem?_modify, hindex]

/-- Where there is no loader, nothing changes. -/
theorem modifyLoader_of_not (h : ¬ r.HasLoader l) : r.modifyLoader l f = r := by
  have hmodify : r.loaders.modify l.index f = r.loaders := by
    refine Array.ext_getElem? fun i => ?_
    rw [Array.getElem?_modify]
    split
    · next hi =>
      rw [← hi, Array.getElem?_eq_none (Nat.le_of_not_lt h), Option.map_none]
    · rfl
  rw [modifyLoader, hmodify]

/-- What a change keeps of one loader, it keeps of all. -/
theorem loader_modifyLoader_eq {β : Type} (view : Loader → β)
    (h : ∀ x, view (f x) = view x) (a : LoaderRef) :
    view ((r.modifyLoader l f).loader a) = view (r.loader a) := by
  rcases loader_modifyLoader (r := r) l a f with ha | ha
  · rw [ha]
  · rw [ha, h]

/-! ### Realms alike -/

end Realm

/-- A kind of loader without its cache. -/
def LoaderKind.bare : LoaderKind → LoaderKind
  | .bootstrap => .bootstrap
  | .instrumenting work => .instrumenting { work with cache := default }

/-- A loader without its cache and counters. -/
def Loader.bare (x : Loader) : Loader :=
  { x with kind := x.kind.bare, transforms := 0, cacheHits := 0 }

namespace Realm

variable {r₀ r u r' u' : Realm} {l a : LoaderRef} {f g : Loader → Loader} {work : Instrumentation}
  {name : String} {file transformed : ClassFile} {runs : List (LoaderRef × String)} {s : Storage}

/-- Two realms have the same classes, and loaders that differ in caches and counters only. -/
structure Alike (r u : Realm) : Prop where
  classes : r.classes = u.classes
  size : r.loaders.size = u.loaders.size
  loaders : ∀ l, (r.loader l).bare = (u.loader l).bare

theorem Alike.refl (r : Realm) : r.Alike r := ⟨rfl, rfl, fun _ => rfl⟩

theorem Alike.symm (h : r.Alike u) : u.Alike r :=
  ⟨h.classes.symm, h.size.symm, fun l => (h.loaders l).symm⟩

theorem Alike.trans (h : r.Alike u) (h' : u.Alike r') : r.Alike r' :=
  ⟨h.classes.trans h'.classes, h.size.trans h'.size, fun l => (h.loaders l).trans (h'.loaders l)⟩

theorem Alike.loading (h : r.Alike u) (l : LoaderRef) :
    (r.loader l).loading = (u.loader l).loading := by
  show (r.loader l).bare.loading = (u.loader l).bare.loading
  rw [h.loaders l]

theorem Alike.loaded? (h : r.Alike u) (l : LoaderRef) (name : String) :
    r.loaded? l name = u.loaded? l name := by
  show (r.loader l).bare.classes.lookup name = (u.loader l).bare.classes.lookup name
  rw [h.loaders l]

/-- A change that takes no notice of caches and counters is the same change of both. -/
theorem Alike.modifyLoader (h : r.Alike u) (hf : ∀ x : Loader, (f x).bare = f x.bare) :
    (r.modifyLoader l f).Alike (u.modifyLoader l f) := by
  have hhas : r.HasLoader l ↔ u.HasLoader l := by rw [HasLoader, HasLoader, h.size]
  by_cases hl : r.HasLoader l
  · refine ⟨h.classes, by simpa using h.size, fun a => ?_⟩
    by_cases ha : l = a
    · subst ha
      rw [loader_modifyLoader_self hl, loader_modifyLoader_self (hhas.1 hl), hf, hf, h.loaders]
    · rw [loader_modifyLoader_of_ne ha, loader_modifyLoader_of_ne ha]
      exact h.loaders a
  · rw [modifyLoader_of_not hl, modifyLoader_of_not fun hu => hl (hhas.2 hu)]
    exact h

/-- Caches and counters do not count. -/
theorem alike_modifyLoader (h : ∀ x : Loader, (f x).bare = x.bare) :
    r.Alike (r.modifyLoader l f) :=
  ⟨rfl, (size_modifyLoader ..).symm, fun a => (loader_modifyLoader_eq Loader.bare h a).symm⟩

/-! ### Runs of the transformer -/

/-- Runs of the transformer, newest first, that can follow on a realm, and the storage after them:
each was for a class that the loader's cache did not hold at that time, and its result was offered
to that cache. -/
inductive History (r₀ : Realm) : List (LoaderRef × String) → Storage → Prop
  | start : r₀.History [] r₀.storage
  | run {runs : List (LoaderRef × String)} {s : Storage} {l : LoaderRef} {name : String}
      {work : Instrumentation} {file transformed : ClassFile}
      (earlier : r₀.History runs s)
      (loader : (r₀.loader l).kind = .instrumenting work)
      (source : r₀.classFile name = .ok file)
      (wanted : work.policy.instruments file)
      (result : file.transform = .ok transformed)
      (absent : work.cache.find? s name = none) :
      r₀.History ((l, name) :: runs) (work.cache.put s name transformed.encode).2

/-- What is put into caches does not change what there is to be read. -/
def Undisturbed (r₀ : Realm) : Prop :=
  ∀ runs s, r₀.History runs s → ∀ name,
    r₀.resources.read s.disk.files name = r₀.resources.read r₀.files name

/-- Nothing that is done to caches reaches classes in memory. -/
theorem undisturbed_of_memory (h : r₀.resources.source = .memory) : r₀.Undisturbed := by
  intro runs s _ name
  rw [Resources.read, Resources.read, h]

/-- What loading through caches takes: they start out without entries, what is transformed can be
stored, and writing to the caches leaves the class files to be read as they are. -/
structure Steady (r₀ : Realm) : Prop where
  vacant : ∀ l work, (r₀.loader l).kind = .instrumenting work → work.cache.Vacant r₀.storage
  storable : ∀ l work, (r₀.loader l).kind = .instrumenting work → ∀ name file transformed,
    r₀.classFile name = .ok file → work.policy.instruments file →
      file.transform = .ok transformed → transformed.Storable
  undisturbed : r₀.Undisturbed

/-- An entry that holds what the transformer makes of the class file to be read, and that can be
read back. -/
def Genuine (r₀ : Realm) (name : String) (bytes : Bytes) : Prop :=
  ∃ file transformed, r₀.classFile name = .ok file ∧ file.transform = .ok transformed ∧
    transformed.Storable ∧ bytes = transformed.encode

theorem History.holdsOnly (hr : r₀.Steady) (h : r₀.History runs s)
    (hl : (r₀.loader l).kind = .instrumenting work) : work.cache.HoldsOnly s r₀.Genuine := by
  induction h with
  | start => exact (hr.vacant l work hl).holdsOnly
  | run _ loader source wanted result _ ih =>
    exact ih.put ⟨_, _, source, result, hr.storable _ _ loader _ _ _ source wanted result, rfl⟩

/-- **Cached classes.** What a cache holds is what the transformer would make. -/
theorem History.transform_of_find? (hr : r₀.Steady) (h : r₀.History runs s)
    (hl : (r₀.loader l).kind = .instrumenting work) (hfile : r₀.classFile name = .ok file)
    (hf : work.cache.find? s name = some transformed) : file.transform = .ok transformed := by
  obtain ⟨bytes, hgenuine, hdecode⟩ := (h.holdsOnly hr hl).find? hf
  obtain ⟨file', transformed', hfile', ht, hstorable, rfl⟩ := hgenuine
  cases hfile'.symm.trans hfile
  cases (ClassFile.decode_encode hstorable).symm.trans hdecode
  exact ht

/-- **Once for all.** Where all loaders share a cache in memory that is open for writing, no class
is run through the transformer twice. -/
theorem History.nodup_of_shared (h : r₀.History runs s) (hr : r₀.Steady) (store : StoreRef)
    (version : UInt32) (hstore : store.index < r₀.storage.stores.size)
    (hshared : ∀ l work, (r₀.loader l).kind = .instrumenting work →
      work.cache = ⟨.memory store, version, true⟩) :
    (runs.map Prod.snd).Nodup := by
  suffices hinv : store.index < s.stores.size ∧ (runs.map Prod.snd).Nodup ∧
      ∀ name ∈ runs.map Prod.snd,
        ∃ file, ClassCache.find? ⟨.memory store, version, true⟩ s name = some file from hinv.2.1
  induction h with
  | start => exact ⟨hstore, List.nodup_nil, fun _ hmem => absurd hmem List.not_mem_nil⟩
  | run earlier hl source wanted result absent ih =>
    rename_i runs s l name work file transformed
    obtain ⟨hsize, hnodup, hfound⟩ := ih
    rw [hshared l work hl] at absent ⊢
    have hnew : name ∉ runs.map Prod.snd := by
      intro hmem
      obtain ⟨file', hfile'⟩ := hfound name hmem
      cases absent.symm.trans hfile'
    refine ⟨?_, List.nodup_cons.2 ⟨hnew, hnodup⟩, fun name' hmem => ?_⟩
    · rw [ClassCache.size_stores_put_memory]
      exact hsize
    · rw [ClassCache.find?_put_memory hsize]
      by_cases heq : name' = name
      · have hstorable := hr.storable l work hl _ _ _ source wanted result
        rw [if_pos heq, ClassFile.decode_encode hstorable]
        exact ⟨_, rfl⟩
      · rw [if_neg heq]
        exact hfound name' ((List.mem_cons.1 hmem).resolve_left heq)

/-- A realm after loads that began in another one: the same loaders over the same resources, with a
history that accounts for what is stored and for the runs that have been counted. -/
structure Follows (r₀ r : Realm) : Prop where
  resources : r.resources = r₀.resources
  size : r.loaders.size = r₀.loaders.size
  kinds : ∀ l, (r.loader l).kind = (r₀.loader l).kind
  history : ∃ runs, r₀.History runs r.storage ∧ ∀ l,
    (r.loader l).transforms = (r₀.loader l).transforms + runs.countP (·.1 = l)

theorem Follows.refl (r : Realm) : r.Follows r :=
  ⟨rfl, rfl, fun _ => rfl, [], .start, fun _ => rfl⟩

theorem Follows.hasLoader (h : r₀.Follows r) : r.HasLoader l ↔ r₀.HasLoader l := by
  rw [HasLoader, HasLoader, h.size]

theorem Follows.classFile_of_undisturbed (h : r₀.Follows r) (hquiet : r₀.Undisturbed)
    (name : String) : r.classFile name = r₀.classFile name := by
  obtain ⟨runs, hruns, -⟩ := h.history
  rw [Realm.classFile, Realm.classFile, h.resources, files, hquiet runs _ hruns name]

theorem Follows.classFile (h : r₀.Follows r) (hr : r₀.Steady) (name : String) :
    r.classFile name = r₀.classFile name :=
  h.classFile_of_undisturbed hr.undisturbed name

/-- Changes to loaders that concern neither their kind nor the runs. -/
theorem Follows.modifyLoader (h : r₀.Follows r) (hkind : ∀ x, (f x).kind = x.kind)
    (htransforms : ∀ x, (f x).transforms = x.transforms) : r₀.Follows (r.modifyLoader l f) := by
  obtain ⟨runs, hruns, hcount⟩ := h.history
  refine ⟨h.resources, (size_modifyLoader ..).trans h.size, fun a => ?_, runs, hruns, fun a => ?_⟩
  · rw [loader_modifyLoader_eq Loader.kind hkind, h.kinds]
  · rw [loader_modifyLoader_eq Loader.transforms htransforms, hcount]

/-- The realm after a class was found in a cache. -/
def noteHit (r : Realm) (l : LoaderRef) : Realm :=
  r.modifyLoader l fun x => { x with cacheHits := x.cacheHits + 1 }

/-- A realm in which one more run of the transformer is counted. -/
def countRun (r : Realm) (l : LoaderRef) : Realm :=
  r.modifyLoader l fun x => { x with transforms := x.transforms + 1 }

/-- The realm after a run of the transformer. -/
def noteRun (r : Realm) (l : LoaderRef) (cache : ClassCache) (name : String)
    (transformed : ClassFile) : Realm :=
  { r.countRun l with storage := (cache.put r.storage name transformed.encode).2 }

theorem alike_noteHit (r : Realm) (l : LoaderRef) : r.Alike (r.noteHit l) :=
  alike_modifyLoader fun _ => rfl

theorem alike_noteRun (r : Realm) (l : LoaderRef) (cache : ClassCache) (name : String)
    (transformed : ClassFile) : r.Alike (r.noteRun l cache name transformed) :=
  Alike.trans (u := r.countRun l) (alike_modifyLoader fun _ => rfl) ⟨rfl, rfl, fun _ => rfl⟩

theorem Follows.noteHit (h : r₀.Follows r) (l : LoaderRef) : r₀.Follows (r.noteHit l) :=
  h.modifyLoader (fun _ => rfl) fun _ => rfl

theorem Follows.noteRun (h : r₀.Follows r) (hl : (r₀.loader l).kind = .instrumenting work)
    (hfile : r₀.classFile name = .ok file) (hwanted : work.policy.instruments file)
    (ht : file.transform = .ok transformed) (hf : work.cache.find? r.storage name = none) :
    r₀.Follows (r.noteRun l work.cache name transformed) := by
  obtain ⟨runs, hruns, hcount⟩ := h.history
  have hhas : r.HasLoader l := .of_kind ((h.kinds l).trans hl)
  refine ⟨h.resources, (size_modifyLoader ..).trans h.size, fun a => ?_, (l, name) :: runs,
    hruns.run hl hfile hwanted ht hf, fun a => ?_⟩
  · refine Eq.trans (loader_modifyLoader_eq Loader.kind ?_ a) (h.kinds a)
    exact fun _ => rfl
  · show ((r.countRun l).loader a).transforms = _
    rw [countRun, List.countP_cons]
    by_cases ha : l = a
    · subst ha
      rw [loader_modifyLoader_self hhas]
      simp [hcount l, Nat.add_assoc]
    · rw [loader_modifyLoader_of_ne ha]
      simp [hcount a, ha]

end Realm

/-! ### Instrumenting -/

/-- A transformed class, if it verifies. -/
def ClassFile.checkedAs (transformed : ClassFile) (name : String) : Except LoadError ClassFile :=
  match transformed.verify with
  | .error e => .error (.transform (.invariantViolation name "*"
      s!"transformed class fails verification: {e.message}"))
  | .ok () => .ok transformed

/-- What comes of instrumenting a class file. -/
def ClassFile.instrumented (file : ClassFile) (name : String) : Except LoadError ClassFile :=
  match file.transform with
  | .error e => .error (.transform e)
  | .ok transformed => transformed.checkedAs name

namespace Load

variable {r₀ r : Realm} {l : LoaderRef} {cache : ClassCache} {name : String}
  {file transformed : ClassFile} {work : Instrumentation}

theorem checkedAs_apply (transformed : ClassFile) (name : String) (r : Realm) :
    (match transformed.verify with
      | .error e => fail (.transform (.invariantViolation name "*"
          s!"transformed class fails verification: {e.message}"))
      | .ok () => pure transformed : Load ClassFile) r = (transformed.checkedAs name, r) := by
  rw [ClassFile.checkedAs]
  cases transformed.verify <;> rfl

theorem cached_apply (l : LoaderRef) (cache : ClassCache) (name : String) (r : Realm) :
    cached l cache name r =
      match cache.find? r.storage name with
      | none => (.ok none, r)
      | some file => (.ok (some file), r.noteHit l) := by
  rw [cached, get_bind_apply, ClassCache.find?]
  cases cache.get? r.storage name with
  | none => rfl
  | some bytes =>
    dsimp only [Option.bind_some]
    cases ClassFile.decode bytes <;> rfl

theorem transform_apply (l : LoaderRef) (cache : ClassCache) (name : String) (file : ClassFile)
    (r : Realm) :
    transform l cache name file r =
      match file.transform with
      | .error e => (.error (.transform e), r)
      | .ok transformed => (.ok transformed, r.noteRun l cache name transformed) := by
  rw [transform]
  cases file.transform <;> rfl

/-- A class that the cache holds is taken from there: no run is counted, and nothing is stored. -/
theorem instrument_of_find? (h : cache.find? r.storage name = some transformed) :
    instrument l cache name file r = (transformed.checkedAs name, r.noteHit l) := by
  rw [instrument, bind_apply, cached_apply, h]
  exact checkedAs_apply transformed name _

theorem instrument_of_not_find? (h : cache.find? r.storage name = none) :
    instrument l cache name file r =
      match file.transform with
      | .error e => (.error (.transform e), r)
      | .ok transformed => (transformed.checkedAs name, r.noteRun l cache name transformed) := by
  rw [instrument, bind_apply, cached_apply, h]
  dsimp only
  rw [bind_apply, transform_apply]
  cases file.transform with
  | error e => rfl
  | ok transformed => exact checkedAs_apply transformed name _

/-- **Instrumenting.** After loads that began with caches without entries, a class is instrumented
as if there were none. -/
theorem instrument_apply (hr : r₀.Steady) (h : r₀.Follows r)
    (hl : (r₀.loader l).kind = .instrumenting work) (hfile : r₀.classFile name = .ok file)
    (hwanted : work.policy.instruments file) :
    ∃ r', instrument l work.cache name file r = (file.instrumented name, r') ∧
      r₀.Follows r' ∧ r.Alike r' := by
  obtain ⟨runs, hruns, -⟩ := h.history
  cases hf : work.cache.find? r.storage name with
  | some transformed =>
    have ht := hruns.transform_of_find? hr hl hfile hf
    refine ⟨r.noteHit l, ?_, h.noteHit l, r.alike_noteHit l⟩
    rw [instrument_of_find? hf, ClassFile.instrumented, ht]
  | none =>
    rw [instrument_of_not_find? hf, ClassFile.instrumented]
    cases ht : file.transform with
    | error e => exact ⟨r, rfl, h, .refl r⟩
    | ok transformed => exact ⟨_, rfl, h.noteRun hl hfile hwanted ht hf, r.alike_noteRun l ..⟩

end Load

end Interpose
