import Interpose.Proofs.DefaultConstructors
import Interpose.Proofs.LoadOrder
/-!
# Loading a line of classes

A *line* is a class with all its superclasses, nearest first, where each declares nothing to call
but the constructor that constructs the next. Lines can be of any length.

Loading the first of a line loads the others before it. It succeeds however the policy divides the
line: what is acquired is instrumented where the policy says so, and the first class that is not
acquired goes to the parent together with everything above it. Afterwards the line *stands*: each class
is defined from its file, in the form that was decided, and its loader remembers the next under the
name that the constructor goes by.

This takes that the class files are there, that nothing but what the transformer makes of them is in
the cache under their names, and that what loaders remember under their names, if anything, stands
already.

## Main definitions

* `ClassFile.Line`: the class files of a line
* `Realm.LoadedLine`: a line that stands
* `Realm.Raised`: a class that is the first of one
* `AcquisitionPolicy.marks`: which classes of a line are instrumented
* `Realm.Awaits`, `Realm.Provides`: what a load of the line starts from

## Main results

* `Load.bootstrap_raises`, `Load.instrumenting_raises`: the two loaders
* `Load.load_raises`
-/

namespace Interpose

/-! ### Lines -/

namespace ClassFile

variable {file : ClassFile} {line upper rest rest' : List ClassFile}

/-- Class files of which each only constructs the next, its superclass. The last is that of a root. -/
inductive Line : List ClassFile → Prop
  | nil : Line []
  | cons {file : ClassFile} {rest : List ClassFile} {d : MethodDef} (above : Line rest)
      (form : file.OnlyConstructs d) (next : file.superName = rest.head?.map name) :
      Line (file :: rest)

theorem Line.of_suffix (h : Line line) (hs : upper <:+ line) : Line upper := by
  induction h with
  | nil =>
    rw [List.suffix_nil.1 hs]
    exact .nil
  | cons above form next ih =>
    rcases List.suffix_cons_iff.1 hs with rfl | hs
    · exact .cons above form next
    · exact ih hs

theorem Line.exists_onlyConstructs (h : Line (file :: rest)) :
    ∃ d, file.OnlyConstructs d ∧ file.superName = rest.head?.map name := by
  cases h with
  | cons _ form next => exact ⟨_, form, next⟩

/-- A class file tells what stands above it, where names tell class files. -/
theorem Line.rest_unique (h : Line (file :: rest)) (h' : Line (file :: rest'))
    (hnames : ∀ f ∈ rest, ∀ g ∈ rest', f.name = g.name → f = g) : rest = rest' := by
  induction rest generalizing file rest' with
  | nil =>
    cases h with
    | cons _ _ next =>
      cases h' with
      | cons _ _ next' =>
        rw [next] at next'
        cases rest' with
        | nil => rfl
        | cons g rest' => exact nomatch next'
  | cons f rest ih =>
    cases h with
    | cons above _ next =>
      cases h' with
      | cons above' _ next' =>
        rw [next] at next'
        cases rest' with
        | nil => exact nomatch next'
        | cons g rest' =>
          obtain rfl : f = g :=
            hnames f List.mem_cons_self g List.mem_cons_self (Option.some.inj next')
          exact congrArg (f :: ·) (ih above above' fun f' hf' g' hg' =>
            hnames f' (List.mem_cons_of_mem f hf') g' (List.mem_cons_of_mem f hg'))

/-- No name comes twice: a line would go on for ever from there. -/
theorem Line.nodup (h : Line line) (hnames : ∀ f ∈ line, ∀ g ∈ line, f.name = g.name → f = g) :
    (line.map name).Nodup := by
  induction h with
  | nil => exact List.nodup_nil
  | @cons file rest d above form next ih =>
    have hrest : ∀ f ∈ rest, ∀ g ∈ rest, f.name = g.name → f = g := fun f hf g hg =>
      hnames f (List.mem_cons_of_mem file hf) g (List.mem_cons_of_mem file hg)
    refine List.nodup_cons.2 ⟨fun hmem => ?_, ih hrest⟩
    obtain ⟨g, hg, hname⟩ := List.mem_map.1 hmem
    obtain rfl : g = file := hnames g (List.mem_cons_of_mem file hg) file List.mem_cons_self hname
    obtain ⟨before, after, heq⟩ := List.append_of_mem hg
    have hafter : Line (g :: after) := above.of_suffix (heq ▸ List.suffix_append _ _)
    have hunique : rest = after := (Line.cons above form next).rest_unique hafter fun f hf f' hf' =>
      hrest f hf f' (heq ▸ List.mem_append_right _ (List.mem_cons_of_mem g hf'))
    have hlength := congrArg List.length heq
    rw [List.length_append, List.length_cons, hunique] at hlength
    omega

end ClassFile

/-! ### Lines that stand -/

/-- A class of a line: the class file that it comes from, and the one that it was defined from, which
is another if the class is instrumented. -/
structure Rung where
  cls : ClassRef
  file : ClassFile
  used : ClassFile
  instrumented : Bool

/-- The class file that a class comes from, and whether the class is instrumented. -/
def Rung.mark (s : Rung) : ClassFile × Bool := (s.file, s.instrumented)

/-- The form in which a class file is defined: as it is stored, or instrumented and with a handler. -/
inductive ClassFile.UsedAs (file : ClassFile) (definer : Definer) (h : HandlerRef) : ClassFile → Prop
  | stored (plain : definer.instrumented = false) : UsedAs file definer h file
  | instrumented {file' : ClassFile} (marked : definer.instrumented = true)
      (handler : definer.handler? = some h) (transform : file.transform = .ok file')
      (fits : file'.constants.Fits) : UsedAs file definer h file'

namespace ClassFile.UsedAs

variable {file used : ClassFile} {definer : Definer} {h : HandlerRef} {d : MethodDef}

theorem superName (hu : file.UsedAs definer h used) : used.superName = file.superName := by
  cases hu with
  | stored => rfl
  | instrumented _ _ ht _ =>
    obtain ⟨_, _, _, _, hi⟩ := exists_instrumented_of_transform ht
    exact hi.superName

theorem name (hu : file.UsedAs definer h used) : used.name = file.name := by
  cases hu with
  | stored => rfl
  | instrumented _ _ ht _ =>
    obtain ⟨_, _, _, _, hi⟩ := exists_instrumented_of_transform ht
    exact hi.name

theorem verify (hu : file.UsedAs definer h used) (hform : file.OnlyConstructs d)
    (hverify : file.verify = .ok ()) : used.verify = .ok () := by
  cases hu with
  | stored => exact hverify
  | instrumented _ _ ht hfits => exact hform.verify_of_transform hverify ht hfits

end ClassFile.UsedAs

namespace Realm

variable {r r' : Realm} {h : HandlerRef} {rungs : List Rung} {l a : LoaderRef} {name : String}
  {c : ClassRef} {marks : List (ClassFile × Bool)}

/-- The classes are loaded: each is defined from its file below the next, and its loader is there and
remembers the next. -/
inductive LoadedLine (r : Realm) (h : HandlerRef) : List Rung → Prop
  | nil : LoadedLine r h []
  | cons {c : ClassRef} {file used : ClassFile} {rest : List Rung} {d : MethodDef}
      {definer : Definer} {k : LoadedClass} (above : LoadedLine r h rest)
      (form : file.OnlyConstructs d) (verified : file.verify = .ok ())
      (next : file.superName = rest.head?.map fun s => s.file.name)
      (use : file.UsedAs definer h used) (live : definer.orphan = false) (has : r.classes.Has c)
      (define : LoadedClass.define definer
        ((rest.head?.map Rung.cls).map fun s => (s, r.classes.get s)) used = .ok k)
      (fixed : (r.classes.get c).fixed = k.fixed)
      (found : ∀ s ∈ rest.head?, r.loaded? definer.loader s.file.name = some s.cls) :
      LoadedLine r h (⟨c, file, used, definer.instrumented⟩ :: rest)

theorem LoadedLine.has (hr : r.LoadedLine h rungs) : ∀ s ∈ rungs, r.classes.Has s.cls := by
  induction hr with
  | nil => exact nofun
  | cons _ _ _ _ _ _ has _ _ _ ih => exact List.forall_mem_cons.2 ⟨has, ih⟩

/-- What a definition below the line takes from it stays as it is. -/
theorem LoadedLine.define_eq (hr : r.LoadedLine h rungs) (hclasses : r.classes.Extends r'.classes)
    (definer : Definer) (used : ClassFile) :
    LoadedClass.define definer ((rungs.head?.map Rung.cls).map fun s => (s, r'.classes.get s)) used =
      LoadedClass.define definer ((rungs.head?.map Rung.cls).map fun s => (s, r.classes.get s))
        used := by
  refine ClassTable.define_congr fun s hs => ?_
  obtain ⟨rung, hrung, rfl⟩ := Option.map_eq_some_iff.1 hs
  exact hclasses.fixed_eq _ (hr.has rung (List.mem_of_mem_head? hrung))

/-- A line goes on standing while classes stay as they are and loaders remember its upper part. -/
theorem LoadedLine.mono (hr : r.LoadedLine h rungs) (hclasses : r.classes.Extends r'.classes)
    (hloaded : ∀ a, ∀ s ∈ rungs.tail, ∀ c, r.loaded? a s.file.name = some c →
      r'.loaded? a s.file.name = some c) : r'.LoadedLine h rungs := by
  induction hr with
  | nil => exact .nil
  | @cons c file used rest d definer k above form verified next use live has define fixed found ih =>
    refine .cons (ih fun a s hs => hloaded a s (List.mem_of_mem_tail hs)) form verified next use live
      (hclasses.has has) (k := k) ?_ ((hclasses.fixed_eq c has).trans fixed) fun s hs => ?_
    · rw [above.define_eq hclasses]
      exact define
    · exact hloaded _ s (List.mem_of_mem_head? hs) _ (found s hs)

/-- A class is the first of a line that stands, from these files and with these classes of it
instrumented. -/
def Raised (r : Realm) (h : HandlerRef) (marks : List (ClassFile × Bool)) (c : ClassRef) : Prop :=
  ∃ rungs, r.LoadedLine h rungs ∧ rungs.map Rung.mark = marks ∧ rungs.head?.map Rung.cls = some c

theorem Raised.mono (hr : r.Raised h marks c) (hclasses : r.classes.Extends r'.classes)
    (hloaded : ∀ a, ∀ p ∈ marks.tail, ∀ s, r.loaded? a p.1.name = some s →
      r'.loaded? a p.1.name = some s) : r'.Raised h marks c := by
  obtain ⟨rungs, hline, rfl, hc⟩ := hr
  refine ⟨rungs, hline.mono hclasses fun a s hs => ?_, rfl, hc⟩
  rw [← List.map_tail] at hloaded
  exact hloaded a s.mark (List.mem_map_of_mem hs)

theorem Raised.of_same (hr : r.Raised h marks c) (hsame : r.Same r') : r'.Raised h marks c :=
  hr.mono (hsame.classes ▸ .refl _) fun a _ _ _ hs => (hsame.loaded? a _).trans hs

end Realm

/-! ### What is instrumented -/

/-- The classes of a line, and which of them an instrumenting loader defines and instruments when it
is asked for the first. Those that it does not acquire have all their superclasses left to the
parent. -/
def AcquisitionPolicy.marks (p : AcquisitionPolicy) : List ClassFile → List (ClassFile × Bool)
  | [] => []
  | file :: rest =>
    if p.acquires file.name then (file, p.instruments file) :: marks p rest
    else (file :: rest).map fun file => (file, false)

/-- As for an instrumenting loader. A bootstrap loader instruments nothing. -/
def LoaderKind.marks : LoaderKind → List ClassFile → List (ClassFile × Bool)
  | .bootstrap, line => line.map fun file => (file, false)
  | .instrumenting work, line => work.policy.marks line

theorem AcquisitionPolicy.map_fst_marks (p : AcquisitionPolicy) (line : List ClassFile) :
    (p.marks line).map Prod.fst = line := by
  induction line with
  | nil => rfl
  | cons file rest ih =>
    rw [marks]
    split
    · rw [List.map_cons, ih]
    · rw [List.map_map]
      exact List.map_id _

theorem LoaderKind.map_fst_marks (kind : LoaderKind) (line : List ClassFile) :
    (kind.marks line).map Prod.fst = line := by
  cases kind with
  | bootstrap =>
    rw [marks, List.map_map]
    exact List.map_id _
  | instrumenting work => exact work.policy.map_fst_marks line

/-! ### What a load starts from -/

/-- The storages that come about when instrumented classes of a line are put into the cache. -/
inductive Instrumentation.Offers (work : Instrumentation) (line : List ClassFile) (s₀ : Storage) :
    Storage → Prop
  | start : work.Offers line s₀ s₀
  | put {s : Storage} {file file' : ClassFile} (earlier : work.Offers line s₀ s)
      (member : file ∈ line) (wanted : work.policy.instruments file = true)
      (result : file.transform = .ok file') :
      work.Offers line s₀ (work.cache.put s file.name file'.encode).2

namespace Realm

variable {r r' : Realm} {h : HandlerRef} {l a : LoaderRef} {name : String} {c : ClassRef}
  {work : Instrumentation} {line upper : List ClassFile} {file file' : ClassFile}

/-- The class files of a line are there to be read, and stay so while the cache fills up. If the cache
has a class for one of them, it is what the transformer makes of it; and it can be stored. -/
structure Provides (r : Realm) (work : Instrumentation) (line : List ClassFile) : Prop where
  source : ∀ s, work.Offers line r.storage s → ∀ file ∈ line,
    Realm.classFile { r with storage := s } file.name = .ok file
  genuine : work.cache.HoldsOnly r.storage fun name bytes => ∀ file ∈ line, file.name = name →
    ∀ file', ClassFile.decode bytes = .ok file' → file.transform = .ok file'
  storable : ∀ file ∈ line, work.policy.instruments file = true →
    ∀ file', file.transform = .ok file' → file'.Storable

theorem Provides.classFile (hp : r.Provides work line) :
    ∀ file ∈ line, r.classFile file.name = .ok file :=
  hp.source r.storage .start

/-- Names tell the class files. -/
theorem Provides.eq_of_name_eq (hp : r.Provides work line) :
    ∀ f ∈ line, ∀ g ∈ line, f.name = g.name → f = g := fun f hf g hg heq =>
  Except.ok.inj ((hp.classFile f hf).symm.trans (heq ▸ hp.classFile g hg))

theorem Provides.congr (hp : r.Provides work line) (hresources : r'.resources = r.resources)
    (hstorage : r'.storage = r.storage) : r'.Provides work line := by
  refine ⟨fun s hs file hfile => ?_, hstorage ▸ hp.genuine, hp.storable⟩
  rw [hstorage] at hs
  have hsource := hp.source s hs file hfile
  rw [Realm.classFile] at hsource ⊢
  rw [hresources]
  exact hsource

/-- An instrumented class of the line may be put into the cache. -/
theorem Provides.noteRun (hp : r.Provides work line) (hfile : file ∈ line)
    (hwanted : work.policy.instruments file = true) (ht : file.transform = .ok file') :
    (r.noteRun l work.cache file.name file').Provides work line := by
  refine ⟨fun s hs f hf => ?_, hp.genuine.put fun g hg hname g' hg' => ?_, hp.storable⟩
  · have hearlier : work.Offers line r.storage s := by
      induction hs with
      | start => exact .put .start hfile hwanted ht
      | put _ member wanted result ih => exact .put ih member wanted result
    exact hp.source s hearlier f hf
  · obtain rfl : g = file := hp.eq_of_name_eq g hg file hfile hname
    rw [ClassFile.decode_encode (hp.storable g hg hwanted file' ht)] at hg'
    exact Except.ok.inj hg' ▸ ht

/-- A loader can be asked for the first of a line: it is not in the middle of loading any class of it,
and what it remembers under one of the names stands. -/
structure Awaits (r : Realm) (h : HandlerRef) (l : LoaderRef) (line : List ClassFile) : Prop where
  free : ∀ file ∈ line, file.name ∉ (r.loader l).loading
  stands : ∀ upper, upper <:+ line → ∀ file ∈ upper.head?, ∀ c,
    r.loaded? l file.name = some c → r.Raised h ((r.loader l).kind.marks upper) c

theorem Awaits.of_suffix (ha : r.Awaits h l line) (hs : upper <:+ line) : r.Awaits h l upper :=
  ⟨fun file hfile => ha.free file (hs.subset hfile), fun _ hu => ha.stands _ (hu.trans hs)⟩

theorem Awaits.of_same (ha : r.Awaits h l line) (hsame : r.Same r')
    (hloading : (r'.loader l).loading = (r.loader l).loading) : r'.Awaits h l line := by
  refine ⟨fun file hfile => ?_, fun upper hu file hfile c hc => ?_⟩
  · rw [hloading]
    exact ha.free file hfile
  · rw [hsame.kind]
    exact (ha.stands upper hu file hfile c ((hsame.loaded? l file.name).symm.trans hc)).of_same hsame

/-- When a loader has begun to load the first, it can be asked for the second. -/
theorem Awaits.enter (ha : r.Awaits h l (file :: line)) (hl : r.HasLoader l)
    (hnew : file.name ∉ line.map ClassFile.name) : (r.enter l file.name).Awaits h l line := by
  have hsame : r.Same (r.enter l file.name) := same_enter
  refine ⟨fun f hf => ?_, fun upper hu f hf c hc => ?_⟩
  · rw [loading_enter_self hl]
    refine fun hmem => (List.mem_cons.1 hmem).elim (fun heq => hnew ?_)
      (ha.free f (List.mem_cons_of_mem file hf))
    exact List.mem_map.2 ⟨f, hf, heq⟩
  · rw [hsame.kind]
    refine (ha.stands upper (hu.trans (List.suffix_cons file line)) f hf c ?_).of_same hsame
    exact (hsame.loaded? l f.name).symm.trans hc

/-- A loader that nobody has asked for anything can be asked for any line. -/
theorem awaits_of_unused (hloading : (r.loader l).loading = [])
    (hclasses : (r.loader l).classes = []) : r.Awaits h l line := by
  refine ⟨fun file _ => hloading ▸ List.not_mem_nil, fun upper _ file _ c hc => ?_⟩
  rw [loaded?, hclasses] at hc
  cases hc

/-- What is known of a line that a loader is asked for: it is one of different classes, and the loader
awaits it. -/
structure Asked (r : Realm) (h : HandlerRef) (l : LoaderRef) (line : List ClassFile) : Prop where
  orderly : r.Orderly
  loader : r.HasLoader l
  form : ClassFile.Line line
  nodup : (line.map ClassFile.name).Nodup
  awaits : r.Awaits h l line

theorem Asked.new (ha : r.Asked h l (file :: line)) : file.name ∉ line.map ClassFile.name :=
  (List.nodup_cons.1 ha.nodup).1

theorem Asked.of_suffix (ha : r.Asked h l line) (hs : upper <:+ line) : r.Asked h l upper where
  orderly := ha.orderly
  loader := ha.loader
  form := ha.form.of_suffix hs
  nodup := ha.nodup.sublist (hs.sublist.map ClassFile.name)
  awaits := ha.awaits.of_suffix hs

theorem Asked.of_same (ha : r.Asked h l line) (hsame : r.Same r')
    (hloading : (r'.loader l).loading = (r.loader l).loading) : r'.Asked h l line where
  orderly := ha.orderly.of_same hsame
  loader := hsame.hasLoader.2 ha.loader
  form := ha.form
  nodup := ha.nodup
  awaits := ha.awaits.of_same hsame hloading

/-- When a loader has begun to load the first, it can be asked for the second. -/
theorem Asked.enter (ha : r.Asked h l (file :: line)) : (r.enter l file.name).Asked h l line where
  orderly := ha.orderly.of_same same_enter
  loader := same_enter.hasLoader.2 ha.loader
  form := ha.form.of_suffix (List.suffix_cons file line)
  nodup := (List.nodup_cons.1 ha.nodup).2
  awaits := ha.awaits.enter ha.loader ha.new

/-- What another loader begins to load does not matter. -/
theorem Asked.enter_of_ne (ha : r.Asked h a line) (hne : l ≠ a) : (r.enter l name).Asked h a line :=
  ha.of_same same_enter (by rw [loading_enter_of_ne hne])

end Realm

namespace Load

variable {r : Realm} {h : HandlerRef} {l : LoaderRef} {name : String} {work : Instrumentation}
  {file used : ClassFile} {line rest : List ClassFile} {marks : List (ClassFile × Bool)}
  {definer : Definer} {d : MethodDef}

/-! ### One class -/

/-- A computation answers with the first of a line that stands. -/
def Raises (x : Load ClassRef) (r : Realm) (h : HandlerRef) (marks : List (ClassFile × Bool)) :
    Prop :=
  ∃ c r', x r = (.ok c, r') ∧ r'.Raised h marks c

/-- A computation answers with the first of a line that stands, and a loader remembers it. -/
def Settles (x : Load ClassRef) (r : Realm) (h : HandlerRef) (marks : List (ClassFile × Bool))
    (l : LoaderRef) (name : String) : Prop :=
  ∃ c r', x r = (.ok c, r') ∧ r'.Raised h marks c ∧ r'.loaded? l name = some c

/-- Loaders remember what they answer with. -/
theorem Raises.settles {x : Load ClassRef} (hx : Raises x r h marks)
    (horderly : OrderlyAt r x (Answered l name)) (hl : r.HasLoader l) :
    Settles x r h marks l name := by
  obtain ⟨hkeeps, -, hresult⟩ := horderly
  obtain ⟨c, r', hc, hraised⟩ := hx
  rw [hc] at hkeeps hresult
  exact ⟨c, r', hc, hraised, (hresult c rfl).2 (hkeeps.hasLoader.2 hl)⟩

/-- What a class is to be defined below is loaded first, unless there is nothing above it. -/
theorem superclass_raises {load : String → Load ClassRef}
    (hnext : used.superName = rest.head?.map ClassFile.name) (hmarks : marks.map Prod.fst = rest)
    (hload : ∀ f ∈ rest.head?, Settles (load f.name) r h marks l f.name) :
    ∃ rungs r', superclass load used r = (.ok (rungs.head?.map Rung.cls), r') ∧
      r'.LoadedLine h rungs ∧ rungs.map Rung.mark = marks ∧
        ∀ s ∈ rungs.head?, r'.loaded? l s.file.name = some s.cls := by
  rw [superclass, hnext]
  cases rest with
  | nil =>
    exact ⟨[], r, rfl, .nil, (List.map_eq_nil_iff.1 hmarks).symm,
      fun s hs => absurd hs (Option.not_mem_none s)⟩
  | cons f rest =>
    obtain ⟨c, r', hc, ⟨rungs, hline, rfl, hhead⟩, hloaded⟩ := hload f rfl
    refine ⟨rungs, r', ?_, hline, rfl, fun s hs => ?_⟩
    · show (load f.name >>= fun c => pure (some c)) r = _
      rw [bind_apply, hc, hhead]
      rfl
    · obtain ⟨rest', rfl⟩ := List.head?_eq_some_iff.1 hs
      obtain rfl : s.cls = c := Option.some.inj hhead
      obtain rfl : s.file = f := List.head_eq_of_cons_eq hmarks
      exact hloaded

/-- A class is defined below a line that stands, on whose first class the loader has settled. -/
theorem link_raises {load : String → Load ClassRef} (hform : file.OnlyConstructs d)
    (hverify : file.verify = .ok ()) (hnext : file.superName = rest.head?.map ClassFile.name)
    (hmarks : marks.map Prod.fst = rest) (huse : file.UsedAs definer h used)
    (hlive : definer.orphan = false)
    (hload : ∀ f ∈ rest.head?, Settles (load f.name) r h marks definer.loader f.name) :
    Raises (superclass load used >>= fun s => define definer s used) r h
      ((file, definer.instrumented) :: marks) := by
  obtain ⟨rungs, r₁, hsuper, hline, rfl, hfound⟩ :=
    superclass_raises (huse.superName.trans hnext) hmarks hload
  obtain ⟨k, hk⟩ := LoadedClass.exists_define_of_verify (huse.verify hform hverify) definer
    ((rungs.head?.map Rung.cls).map fun s => (s, r₁.classes.get s))
  have hgrows := ClassTable.extends_add (t := r₁.classes) k
  have happ := define_apply definer (rungs.head?.map Rung.cls) used r₁
  rw [hk] at happ
  refine ⟨(r₁.classes.add k).1, { r₁ with classes := (r₁.classes.add k).2 }, ?_,
    ⟨(r₁.classes.add k).1, file, used, definer.instrumented⟩ :: rungs, ?_, rfl, rfl⟩
  · rw [bind_apply, hsuper]
    exact happ
  · refine .cons (hline.mono hgrows fun _ _ _ _ hc => hc) hform hverify ?_ huse hlive ?_ (k := k) ?_
      ?_ hfound
    · rw [hnext, ← hmarks]
      cases rungs <;> rfl
    · show r₁.classes.classes.size < (r₁.classes.add k).2.classes.size
      rw [ClassTable.size_add]
      exact Nat.lt_succ_self _
    · exact (hline.define_eq hgrows definer used).trans hk
    · dsimp only
      rw [ClassTable.get_add_self]

/-- A loader that defines the first of a line comes to remember it. What it remembered already stands
as well. -/
theorem memoized_raises {define : Load ClassRef} (ha : r.Awaits h l (file :: rest))
    (hmarks : ((r.loader l).kind.marks (file :: rest)) = marks)
    (hnew : file.name ∉ rest.map ClassFile.name)
    (hdefine : Raises define (r.enter l file.name) h marks) :
    Raises (memoized l file.name define) r h marks := by
  have happ := memoized_apply l file.name define r
  cases hloaded : r.loaded? l file.name with
  | some c =>
    rw [hloaded] at happ
    exact ⟨c, r, happ, hmarks ▸ ha.stands _ List.suffix_rfl file rfl c hloaded⟩
  | none =>
    have hfree : (r.loader l).loading.contains file.name = false := by
      rw [← Bool.not_eq_true, List.contains_iff_mem]
      exact ha.free file List.mem_cons_self
    obtain ⟨c, r', hc, hraised⟩ := hdefine
    rw [hloaded, hfree, hc] at happ
    refine ⟨c, (r'.leave l file.name).remember l file.name c, happ, ?_⟩
    have hleave : (r'.leave l file.name).Raised h marks c := hraised.of_same Realm.same_leave
    refine hleave.mono (.refl _) fun a p hp s hs => ?_
    rw [Realm.loaded?_remember_of_ne]
    · exact hs
    · -- The upper part of the line has other names than the class that has just been defined.
      intro heq
      have hmem : p.1.name ∈ rest.map ClassFile.name := by
        have hfst : marks.map Prod.fst = file :: rest := hmarks ▸ LoaderKind.map_fst_marks _ _
        have htail : marks.tail.map Prod.fst = rest := by rw [List.map_tail, hfst, List.tail_cons]
        exact List.mem_map_of_mem (htail ▸ List.mem_map_of_mem hp)
      exact hnew ((Prod.mk.inj heq).2 ▸ hmem)

theorem readClassFile_bind_raises {f : ClassFile → Load ClassRef}
    (hfile : r.classFile name = .ok file) (hf : Raises (f file) r h marks) :
    Raises (readClassFile name >>= f) r h marks := by
  obtain ⟨c, r', hc, hraised⟩ := hf
  refine ⟨c, r', ?_, hraised⟩
  rw [bind_apply, readClassFile_apply, hfile]
  exact hc

/-- A class of the line is instrumented, with the cache or without it. -/
theorem exists_instrument (hp : r.Provides work line) (hfile : file ∈ line)
    (hwanted : work.policy.instruments file = true) (hform : file.OnlyConstructs d)
    (hverify : file.verify = .ok ()) :
    ∃ file' r', instrument l work.cache file.name file r = (.ok file', r') ∧
      file.transform = .ok file' ∧ file'.constants.Fits ∧ r.Same r' ∧ r.Keeps r' ∧
      r'.Provides work line := by
  have hfits : ∀ file', file.transform = .ok file' → file'.constants.Fits := fun file' ht =>
    let hstorable := (hp.storable file hfile hwanted file' ht).constants
    ⟨Nat.le_of_lt hstorable.strings.1, Nat.le_of_lt hstorable.classes.1,
      Nat.le_of_lt hstorable.fields.1, Nat.le_of_lt hstorable.methods.1⟩
  have hchecked : ∀ file', file.transform = .ok file' →
      file'.checkedAs file.name = .ok file' := fun file' ht => by
    rw [ClassFile.checkedAs, hform.verify_of_transform hverify ht (hfits file' ht)]
  cases hfind : work.cache.find? r.storage file.name with
  | some file' =>
    obtain ⟨bytes, hgenuine, hdecode⟩ := hp.genuine.find? hfind
    have ht : file.transform = .ok file' := hgenuine file hfile rfl file' hdecode
    refine ⟨file', r.noteHit l, ?_, ht, hfits file' ht, Realm.same_noteHit, Realm.keeps_noteHit,
      hp.congr rfl rfl⟩
    rw [instrument_of_find? hfind, hchecked file' ht]
  | none =>
    obtain ⟨file', ht⟩ := hform.exists_transform
    refine ⟨file', r.noteRun l work.cache file.name file', ?_, ht, hfits file' ht,
      Realm.same_noteRun, Realm.keeps_noteRun, hp.noteRun hfile hwanted ht⟩
    rw [instrument_of_not_find? hfind, ht]
    dsimp only
    rw [hchecked file' ht]

/-- What is done with a class of the line before it is linked: nothing, or it is instrumented. -/
theorem acquired_raises {link : ClassFile → Load ClassRef} (hp : r.Provides work line)
    (hfile : file ∈ line) (hform : file.OnlyConstructs d) (hverify : file.verify = .ok ())
    (hlink : ∀ r₁ used, r.Same r₁ → r.Keeps r₁ → r₁.Provides work line →
      file.UsedAs ⟨l, false, work.policy.instruments file, some h⟩ h used →
        Raises (link used) r₁ h marks) :
    Raises (if work.policy.instruments file then instrument l work.cache file.name file >>= link
      else pure file >>= link) r h marks := by
  cases hwanted : work.policy.instruments file with
  | false =>
    rw [hwanted] at hlink
    exact hlink r file ⟨rfl, rfl, fun _ => rfl, fun _ _ => rfl⟩ (.refl _) hp (.stored rfl)
  | true =>
    rw [hwanted] at hlink
    obtain ⟨file', r₁, hinstrument, ht, hfits, hsame, hkeeps, hp₁⟩ :=
      exists_instrument (l := l) hp hfile hwanted hform hverify
    obtain ⟨c, r', hc, hraised⟩ := hlink r₁ file' hsame hkeeps hp₁ (.instrumented rfl rfl ht hfits)
    refine ⟨c, r', ?_, hraised⟩
    rw [if_pos rfl, bind_apply, hinstrument]
    exact hc

/-! ### The two loaders -/

/-- By induction on the line. -/
theorem bootstrap_raises {depth : Nat} (hkind : (r.loader l).kind = .bootstrap)
    (ha : r.Asked h l line) (hsource : ∀ f ∈ line, r.classFile f.name = .ok f)
    (hdepth : line.length ≤ depth) :
    ∀ file ∈ line.head?, Raises (bootstrap l depth file.name) r h (line.map fun f => (f, false)) := by
  induction line generalizing depth r with
  | nil => exact nofun
  | cons file rest ih =>
    rintro _ ⟨⟩
    obtain ⟨depth, rfl⟩ : ∃ below, depth = below + 1 := Nat.exists_eq_succ_of_ne_zero (by
      rw [List.length_cons] at hdepth
      omega)
    have hfile : r.classFile file.name = .ok file := hsource file List.mem_cons_self
    obtain ⟨-, -, -, -, hverify⟩ := Realm.exists_bytes_of_classFile hfile
    obtain ⟨d, hform, hnext⟩ := ha.form.exists_onlyConstructs
    have henter : (r.enter l file.name).Asked h l rest := ha.enter
    have hkind' : ((r.enter l file.name).loader l).kind = .bootstrap :=
      (Realm.same_enter.kind l).trans hkind
    refine memoized_raises ha.awaits (by rw [hkind]; rfl) ha.new ?_
    refine readClassFile_bind_raises hfile ?_
    have huse : file.UsedAs { loader := l } h file := .stored rfl
    refine link_raises hform hverify hnext (LoaderKind.bootstrap.map_fst_marks rest) huse rfl
      fun f hf => ?_
    have hraises := ih hkind' henter (fun f hf => hsource f (List.mem_cons_of_mem file hf))
      (Nat.le_of_succ_le_succ hdepth) f hf
    exact hraises.settles (bootstrap_orderly depth henter.orderly hkind') henter.loader

/-- The same for an instrumenting loader, which leaves the line to its parent from the first class on
that it does not acquire. -/
theorem instrumenting_raises {depth depth₀ : Nat} {whole : List ClassFile}
    (hkind : (r.loader l).kind = .instrumenting work) (ha : r.Asked work.handler l line)
    (hparent : r.Asked work.handler work.parent line) (hp : r.Provides work whole)
    (hmem : ∀ f ∈ line, f ∈ whole) (hdepth : line.length ≤ depth) (hdepth₀ : line.length ≤ depth₀) :
    ∀ file ∈ line.head?, Raises (instrumenting l work (bootstrap work.parent depth₀) depth file.name)
      r work.handler (work.policy.marks line) := by
  induction line generalizing depth r with
  | nil => exact nofun
  | cons file rest ih =>
    rintro _ ⟨⟩
    obtain ⟨depth, rfl⟩ : ∃ below, depth = below + 1 := Nat.exists_eq_succ_of_ne_zero (by
      rw [List.length_cons] at hdepth
      omega)
    obtain ⟨-, hbootstrap⟩ := ha.orderly.parents l work hkind
    have hne : l ≠ work.parent := by
      intro heq
      rw [heq, hbootstrap] at hkind
      cases hkind
    have hrest : ∀ f ∈ rest, f ∈ whole := fun f hf => hmem f (List.mem_cons_of_mem file hf)
    have henter : r.Same (r.enter l file.name) := Realm.same_enter
    have hparent' : (r.enter l file.name).Asked work.handler work.parent (file :: rest) :=
      hparent.enter_of_ne hne
    have hp' : (r.enter l file.name).Provides work whole := hp.congr rfl rfl
    refine memoized_raises ha.awaits (by rw [hkind]; rfl) ha.new ?_
    rw [AcquisitionPolicy.marks]
    cases hacquires : work.policy.acquires file.name with
    | false =>
      simp only [Bool.not_false, if_true, Bool.false_eq_true, if_false]
      exact bootstrap_raises ((henter.kind _).trans hbootstrap) hparent'
        (fun f hf => hp'.classFile f (hmem f hf)) hdepth₀ file rfl
    | true =>
      simp only [Bool.not_true, Bool.false_eq_true, if_false, if_true]
      have hfile := hp'.classFile file (hmem file List.mem_cons_self)
      obtain ⟨-, -, -, -, hverify⟩ := Realm.exists_bytes_of_classFile hfile
      obtain ⟨d, hform, hnext⟩ := ha.form.exists_onlyConstructs
      refine readClassFile_bind_raises hfile ?_
      refine acquired_raises hp' (hmem file List.mem_cons_self) hform hverify
        fun r₁ used hsame hkeeps hp₁ huse => ?_
      have hkind₁ : (r₁.loader l).kind = .instrumenting work :=
        (hsame.kind l).trans ((henter.kind l).trans hkind)
      have ha₁ : r₁.Asked work.handler l rest := ha.enter.of_same hsame (hkeeps.loading l)
      have hparent₁ : r₁.Asked work.handler work.parent rest :=
        (hparent'.of_suffix (List.suffix_cons file rest)).of_same hsame (hkeeps.loading _)
      refine link_raises hform hverify hnext (work.policy.map_fst_marks rest) huse rfl
        fun f hf => ?_
      have hraises := ih hkind₁ ha₁ hparent₁ hp₁ hrest (Nat.le_of_succ_le_succ hdepth)
        (Nat.le_of_succ_le hdepth₀) f hf
      refine hraises.settles (instrumenting_orderly depth ha₁.orderly hkind₁ ?_) ha₁.loader
      exact fun r' name' hr' hk => bootstrap_orderly depth₀ hr' hk

/-- **Loading.** The first of a line is loaded, and the line stands from then on. -/
theorem load_raises (horderly : r.Orderly) (hkind : (r.loader l).kind = .instrumenting work)
    (hline : ClassFile.Line line) (hp : r.Provides work line)
    (ha : r.Awaits work.handler l line) (hparent : r.Awaits work.handler work.parent line) :
    ∀ file ∈ line.head?, Raises (load l file.name) r work.handler (work.policy.marks line) := by
  intro file hfile
  have hnodup := hline.nodup hp.eq_of_name_eq
  have hdepth : line.length ≤ r.resources.bound r.files + 1 := by
    have hroom := r.room_of_bound.room _ hnodup fun name hname => by
      obtain ⟨f, hf, rfl⟩ := List.mem_map.1 hname
      exact ⟨f, hp.classFile f hf⟩
    rw [List.length_map] at hroom
    exact Nat.le_of_lt hroom
  obtain ⟨hhas, -⟩ := horderly.parents l work hkind
  rw [Raises, load_apply, hkind]
  exact instrumenting_raises hkind ⟨horderly, .of_kind hkind, hline, hnodup, ha⟩
    ⟨horderly, hhas, hline, hnodup, hparent⟩ hp (fun _ hf => hf) hdepth hdepth file hfile

end Load

end Interpose
