import Interpose.Proofs.CacheTransparency
import Interpose.Proofs.DefaultConstructors
/-!
# Definition does not fail

Verification and definition read the same descriptors and bodies, but each in its own order, and
verification leaves a method alone that is native or abstract once it has seen that there is no
code. All the same, definition does not fail on a class file that has been verified: what it reads
is there to be read, an empty body as an empty program. What comes of a method then says the same as
the class file does.

Every class file that a loader defines has been verified, be it as it was stored, fresh from the
transformer or from a cache. So when a loader reports that a class cannot be linked, this is never
for its definition. There are two other reasons: the class is asked for while it is being loaded, or
what is stored for it is a class of another name.

## Main definitions

* `LoadedMethod.Prepares`, `LoadedClass.Prepares`: what is kept of a class file
* `Realm.Misfit`: the reasons for which classes cannot be linked
* `Load.BlamesAt`: a computation that fails to link for these reasons only

## Main results

* `LoadedClass.prepares_of_define`
* `Load.load_blames`: what loads that cannot be linked have met
* `definition_never_fails`: both
-/

namespace Interpose

/-! ### What definition makes of a class file -/

/-- A method as it was declared, with its signature parsed and its body decoded. -/
structure LoadedMethod.Prepares (m : LoadedMethod) (d : MethodDef) : Prop where
  name : m.name = d.name
  descriptor : m.descriptor = d.descriptor
  access : m.access = d.access
  maxLocals : m.maxLocals = d.maxLocals
  signature : d.signature = .ok m.signature
  /-- The signature is printed as it was written. -/
  printed : m.signature.descriptor = d.descriptor
  code : Code.decode d.code = .ok m.code.toList

theorem LoadedMethod.prepares_of_define {owner : String} {d : MethodDef} {m : LoadedMethod}
    (h : define owner d = .ok m) : m.Prepares d := by
  obtain ⟨signature, code, hsignature, hcode, rfl⟩ := define_eq_ok h
  exact ⟨rfl, rfl, rfl, rfl, hsignature, (MethodDesc.eq_descriptor_of_parse hsignature).symm, hcode⟩

/-- A class has the methods of a class file, each in its place. -/
structure LoadedClass.Prepares (k : LoadedClass) (file : ClassFile) : Prop where
  length : k.methods.length = file.methods.length
  method : ∀ (i : Nat) d, file.methods[i]? = some d → ∃ m, k.methods[i]? = some m ∧ m.Prepares d

theorem LoadedClass.prepares_of_define {definer : Definer}
    {superclass? : Option (ClassRef × LoadedClass)} {file : ClassFile} {k : LoadedClass}
    (h : define definer superclass? file = .ok k) : k.Prepares file := by
  obtain ⟨methods, layout, hmethods, -, rfl⟩ := define_eq_ok h
  obtain ⟨hlength, hget⟩ := Results.mapM_eq_ok hmethods
  refine ⟨hlength, fun i d hd => ?_⟩
  obtain ⟨m, hm, hdefine⟩ := hget i d hd
  exact ⟨m, hm, LoadedMethod.prepares_of_define hdefine⟩

/-! ### Why classes cannot be linked -/

/-- What there is in a realm that keeps a class from being linked. A name that is asked for while it
is being loaded is no matter of what is stored. -/
inductive Realm.Misfit (r : Realm) : LinkError → Prop
  | circular (name : String) : r.Misfit (.circular name)
  | misnamed {name : String} {bytes : Bytes} {file : ClassFile}
      (hread : r.resources.read r.files name = .ok (some bytes))
      (hdecode : ClassFile.decode bytes = .ok file) (hname : file.name ≠ name) :
      r.Misfit (.misnamed name file.name)

/-- It depends on what is stored only. -/
theorem Realm.Misfit.congr {r r' : Realm} {e : LinkError} (h : r.Misfit e)
    (hresources : r'.resources = r.resources) (hfiles : r'.files = r.files) : r'.Misfit e := by
  cases h with
  | circular name => exact .circular name
  | misnamed hread hdecode hname => exact .misnamed (hresources ▸ hfiles ▸ hread) hdecode hname

namespace Load

variable {α β : Type} {r : Realm} {l : LoaderRef} {name : String} {file : ClassFile}
variable {P Q : α → Prop} {R : β → Prop}

/-- If a computation cannot link a class, the realm that it leaves behind shows why. If it comes to
a result, this is as said. -/
structure BlamesAt (r : Realm) (x : Load α) (Q : α → Prop) : Prop where
  failure : ∀ e, (x r).1 = .error (.link e) → (x r).2.Misfit e
  result : ∀ a, (x r).1 = .ok a → Q a

theorem BlamesAt.of_eq {x y : Load α} {r' : Realm} (h : BlamesAt r' y Q) (heq : x r = y r') :
    BlamesAt r x Q := by
  refine ⟨?_, ?_⟩ <;> rw [heq]
  · exact h.failure
  · exact h.result

theorem BlamesAt.pure {a : α} (h : Q a) : BlamesAt r (pure a) Q :=
  ⟨nofun, fun _ ha => Except.ok.inj ha ▸ h⟩

theorem BlamesAt.bind {x : Load α} {f : α → Load β} (hx : BlamesAt r x Q)
    (hf : ∀ a r', Q a → BlamesAt r' (f a) R) : BlamesAt r (x >>= f) R := by
  obtain ⟨hfailure, hresult⟩ := hx
  rcases hxr : x r with ⟨e | a, r'⟩ <;> rw [hxr] at hfailure hresult
  · have happ : (x >>= f) r = (.error e, r') := by rw [bind_apply, hxr]
    refine ⟨?_, ?_⟩ <;> rw [happ]
    · rintro _ ⟨⟩
      exact hfailure _ rfl
    · exact nofun
  · exact (hf a r' (hresult a rfl)).of_eq (by rw [bind_apply, hxr])

theorem BlamesAt.fail {e : LoadError} (h : ∀ e', e = .link e' → r.Misfit e') :
    BlamesAt r (Load.fail e) Q :=
  ⟨fun _ he => h _ (Except.error.inj he), nofun⟩

/-- Reading the realm. -/
theorem BlamesAt.get_bind {f : Realm → Load β} (h : BlamesAt r (f r) R) :
    BlamesAt r (get >>= f) R :=
  h.of_eq rfl

/-- A loader that may be asked for any class, in any realm. -/
def Blames (load : String → Load ClassRef) : Prop :=
  ∀ name r, BlamesAt r (load name) fun _ => True

/-! ### One class -/

theorem readClassFile_blames :
    BlamesAt r (readClassFile name) fun file => file.verify = .ok () := by
  refine BlamesAt.get_bind ?_
  split
  · exact .fail fun _ he => by cases he
  · exact .fail fun _ he => by cases he
  rename_i bytes hread
  split
  · exact .fail fun _ he => by cases he
  rename_i file hdecode
  split
  · rename_i hname
    refine .fail ?_
    rintro _ ⟨⟩
    exact .misnamed hread hdecode hname
  split
  · exact .fail fun _ he => by cases he
  · rename_i hverify
    exact .pure hverify

/-- **Definition.** A verified class file is defined. -/
theorem define_blames {definer : Definer} {superclass? : Option ClassRef}
    (h : file.verify = .ok ()) : BlamesAt r (define definer superclass? file) fun _ => True := by
  obtain ⟨k, hk⟩ := LoadedClass.exists_define_of_verify h definer
    (superclass?.map fun s => (s, r.classes.get s))
  refine ⟨?_, fun _ _ => trivial⟩
  rw [define_apply, hk]
  exact nofun

theorem superclass_blames {load : String → Load ClassRef} (h : Blames load) :
    BlamesAt r (superclass load file) fun _ => True := by
  unfold superclass
  split
  · exact .pure trivial
  · exact (h _ r).bind fun _ _ _ => .pure trivial

/-- An instrumented class has been verified, or cannot be instrumented. -/
theorem instrument_blames {cache : ClassCache} :
    BlamesAt r (instrument l cache name file) fun used => used.verify = .ok () := by
  have hchecked : ∀ (transformed : ClassFile) (r' : Realm),
      instrument l cache name file r = (transformed.checkedAs name, r') →
        BlamesAt r (instrument l cache name file) fun used => used.verify = .ok () := by
    intro transformed r' h
    refine ⟨?_, ?_⟩ <;> rw [h, ClassFile.checkedAs] <;> dsimp only <;> split
    · exact nofun
    · exact nofun
    · exact nofun
    · rintro _ ⟨⟩
      assumption
  cases hfind : cache.find? r.storage name with
  | some transformed => exact hchecked _ _ (instrument_of_find? hfind)
  | none =>
    have h : instrument l cache name file r = _ := instrument_of_not_find? hfind
    cases ht : file.transform with
    | ok transformed =>
      rw [ht] at h
      exact hchecked _ _ h
    | error e =>
      rw [ht] at h
      refine ⟨?_, ?_⟩ <;> rw [h] <;> exact nofun

theorem memoized_blames {define : Load ClassRef} (h : ∀ r, BlamesAt r define fun _ => True) :
    BlamesAt r (memoized l name define) fun _ => True := by
  refine ⟨fun e => ?_, fun _ _ => trivial⟩
  rw [memoized_apply]
  cases r.loaded? l name with
  | some c => exact nofun
  | none =>
    dsimp only
    split
    · rintro ⟨⟩
      exact .circular name
    · have hfailure := (h (r.enter l name)).failure
      rcases hrun : define (r.enter l name) with ⟨e' | c, r'⟩ <;> rw [hrun] at hfailure
      · rintro ⟨⟩
        exact (hfailure e rfl).congr rfl rfl
      · exact nofun

/-! ### The two loaders -/

theorem bootstrap_blames (l : LoaderRef) (depth : Nat) : Blames (bootstrap l depth) := by
  induction depth with
  | zero =>
    refine fun name r => .fail ?_
    rintro _ ⟨⟩
    exact .circular name
  | succ depth ih =>
    refine fun name r => memoized_blames fun r => ?_
    refine readClassFile_blames.bind fun file r₁ hverify => ?_
    exact (superclass_blames ih).bind fun _ _ _ => define_blames hverify

theorem instrumenting_blames (l : LoaderRef) (work : Instrumentation)
    {parent : String → Load ClassRef} (hparent : Blames parent) (depth : Nat) :
    Blames (instrumenting l work parent depth) := by
  induction depth with
  | zero =>
    refine fun name r => .fail ?_
    rintro _ ⟨⟩
    exact .circular name
  | succ depth ih =>
    refine fun name r => memoized_blames fun r => ?_
    split
    · exact hparent name r
    refine readClassFile_blames.bind fun file r₁ hverify => ?_
    dsimp only
    have hlink : ∀ used r', used.verify = .ok () → BlamesAt r' (do
        let s ← superclass (instrumenting l work parent depth) used
        define ⟨l, false, work.policy.instruments file, some work.handler⟩ s used)
          fun _ => True := fun used r' hverify =>
      (superclass_blames ih).bind fun _ _ _ => define_blames hverify
    split
    · exact instrument_blames.bind hlink
    · exact hlink file r₁ hverify

/-- **Links.** What a load that cannot link a class has met. -/
theorem load_blames (l : LoaderRef) : Blames (load l) := by
  intro name r
  refine BlamesAt.get_bind (BlamesAt.get_bind ?_)
  split
  · exact bootstrap_blames _ _ _ r
  · exact instrumenting_blames _ _ (bootstrap_blames _ _) _ _ r

end Load

/-- **Verified class files are defined.** Whatever loader defines a verified class file, and below
whatever superclass, it comes to a class with the methods of the file: each has the signature that
is printed as its descriptor and the program that its code is read as. So a loader that reports that
a class cannot be linked has been asked for a class that it is in the middle of loading, or has read
a class of another name than it was asked for. -/
theorem definition_never_fails :
    (∀ file : ClassFile, file.verify = .ok () →
      ∀ (definer : Definer) (superclass? : Option (ClassRef × LoadedClass)),
        ∃ k, LoadedClass.define definer superclass? file = .ok k ∧ k.Prepares file) ∧
    ∀ (r : Realm) (l : LoaderRef) (name : String) (e : LinkError),
      (Load.load l name r).1 = .error (.link e) → (Load.load l name r).2.Misfit e := by
  refine ⟨fun file h definer superclass? => ?_, fun r l name => (Load.load_blames l name r).failure⟩
  obtain ⟨k, hk⟩ := LoadedClass.exists_define_of_verify h definer superclass?
  exact ⟨k, hk, LoadedClass.prepares_of_define hk⟩

/-- A realm in which a class is stored under the name of another. -/
def renamedRealm : Realm where
  loaders := #[{ kind := .bootstrap }]
  resources := { classes := [("t.Mine", ClassFile.encode { name := "t.Yours" })] }

/-- A class with a native method is defined like one with a body. What is stored under the name of
another class cannot be linked. -/
theorem stoneFile_and_echoFile_prepared :
    (∃ k, LoadedClass.define ⟨⟨0⟩, false, false, none⟩ none stoneFile = .ok k ∧
      k.Prepares stoneFile) ∧
    (∃ k, LoadedClass.define ⟨⟨0⟩, false, false, none⟩ none echoFile = .ok k ∧
      k.Prepares echoFile) ∧
    (Load.load ⟨0⟩ "t.Mine" renamedRealm).2.Misfit (.misnamed "t.Mine" "t.Yours") := by
  obtain ⟨hdefine, hlink⟩ := definition_never_fails
  have hverify : stoneFile.verify = .ok () ∧ echoFile.verify = .ok () := by decide +kernel
  have hload : (Load.load ⟨0⟩ "t.Mine" renamedRealm).1 =
      .error (.link (.misnamed "t.Mine" "t.Yours")) := by decide +kernel
  exact ⟨hdefine stoneFile hverify.1 _ none, hdefine echoFile hverify.2 _ none,
    hlink renamedRealm ⟨0⟩ "t.Mine" _ hload⟩

end Interpose
