import Interpose.Proofs.Depths
/-!
# Methods of founded classes

A method of a founded class was prepared from a method that verification has checked. So if it has a
body at all, the body is typed, from an empty stack on, and there is room for its arguments among
its locals.

## Main results

* `ClassTable.Founded.exists_wellTyped`
* `LoadedMethod.WellTyped.carries`: such a body, run in any two ways
-/

namespace Interpose

/-- Preparing a method reads its signature and decodes its body. -/
theorem LoadedMethod.define_eq_ok {owner : String} {d : MethodDef} {m : LoadedMethod}
    (h : LoadedMethod.define owner d = .ok m) :
    ∃ signature code, d.signature = .ok signature ∧ Code.decode d.code = .ok code ∧
      m = ⟨d.name, d.descriptor, signature, d.access, d.maxLocals, code.toArray⟩ := by
  unfold LoadedMethod.define at h
  split at h
  · cases h
  rename_i signature hs
  split at h
  · cases h
  rename_i code hc
  cases h
  exact ⟨signature, code, hs, hc, rfl⟩

/-- What a prepared method has of the one that it was prepared from. -/
theorem LoadedMethod.of_define {owner : String} {d : MethodDef} {m : LoadedMethod}
    (h : LoadedMethod.define owner d = .ok m) :
    d.signature = .ok m.signature ∧ Code.decode d.code = .ok m.code.toList ∧ m.access = d.access ∧
      m.maxLocals = d.maxLocals := by
  obtain ⟨signature, code, hsignature, hcode, rfl⟩ := LoadedMethod.define_eq_ok h
  exact ⟨hsignature, hcode, rfl, rfl⟩

/-- A method of a verified class passes the check of methods. -/
theorem ClassFile.checkMethod_of_verify {file : ClassFile} (h : file.verify = .ok ())
    {d : MethodDef} (hd : d ∈ file.methods) :
    Verifier.checkMethod file.name file.constants d = .ok () := by
  unfold ClassFile.verify at h
  obtain ⟨_, -, h⟩ := Results.bind_eq_ok h
  exact Results.forM_eq_ok h d hd

/-- A method that has been checked and has code is to be executed. -/
theorem Verifier.flags_of_checkMethod {className : String} {pool : Pool} {d : MethodDef}
    (h : Verifier.checkMethod className pool d = .ok ()) (hcode : d.code ≠ []) :
    d.isNative = false ∧ d.isAbstract = false := by
  unfold Verifier.checkMethod at h
  dsimp only at h
  split at h
  · cases h
  split at h
  · split at h
    · rename_i hempty
      exact absurd (List.isEmpty_iff.1 hempty) hcode
    · cases h
  · rename_i hflags
    rw [Bool.or_eq_true, not_or, Bool.not_eq_true, Bool.not_eq_true] at hflags
    exact hflags

/-- The check of a method that is to be executed is that of its body. -/
theorem Verifier.checkBody_of_checkMethod {className : String} {pool : Pool} {d : MethodDef}
    {signature : MethodDesc} (h : Verifier.checkMethod className pool d = .ok ())
    (hsignature : d.signature = .ok signature) (hn : d.isNative = false)
    (ha : d.isAbstract = false) :
    Verifier.checkBody (Verifier.qualifiedName className d) pool d signature = .ok () := by
  unfold Verifier.checkMethod at h
  rw [hsignature, hn, ha] at h
  dsimp only at h
  split at h
  · rename_i hf
    exact nomatch hf
  split at h
  · cases h
  · exact h

/-- A body that is there is typed, and has room for its arguments. -/
structure LoadedMethod.WellTyped (pool : Pool) (m : LoadedMethod) (depthAt : Nat → Option Nat) :
    Prop where
  room : m.argumentCount ≤ m.maxLocals.toNat
  start : depthAt 0 = some 0
  typed : Typed pool (·.length = m.maxLocals.toNat) m.signature.ret.isVoid m.code depthAt

/-- What has been checked is typed once it is prepared, under whatever name. -/
theorem LoadedMethod.exists_wellTyped_of_define {className owner name : String} {pool : Pool}
    {d : MethodDef} {m : LoadedMethod} (hcheck : Verifier.checkMethod className pool d = .ok ())
    (hdefine : LoadedMethod.define owner { d with name := name } = .ok m)
    (hn : m.isNative = false) (ha : m.isAbstract = false) : ∃ depthAt, m.WellTyped pool depthAt := by
  obtain ⟨signature, code, hsignature, hcode, rfl⟩ := LoadedMethod.define_eq_ok hdefine
  obtain ⟨code', depthAt, hcode', hroom, hstart, htyped⟩ := Verifier.exists_typed_of_checkBody
    (Verifier.checkBody_of_checkMethod hcheck hsignature hn ha)
  obtain rfl : code' = code := Except.ok.inj (hcode'.symm.trans hcode)
  exact ⟨depthAt, hroom, hstart, htyped⟩

theorem ClassTable.Founded.exists_wellTyped {t : ClassTable} (h : t.Founded) {c : ClassRef} {i : Nat}
    {m : LoadedMethod} (hm : (t.get c).methods[i]? = some m) (hn : m.isNative = false)
    (ha : m.isAbstract = false) : ∃ depthAt, m.WellTyped (t.get c).constants depthAt := by
  have hc : t.Has c := ClassTable.has_of_get_ne fun heq => by
    rw [heq] at hm
    exact nomatch hm
  obtain ⟨definer, superclass?, file, hverify, -, k, hk, hfix⟩ := h c hc
  obtain ⟨methods, layout, hmethods, -, rfl⟩ := LoadedClass.define_eq_ok hk
  rw [LoadedClass.methods_eq_of_fixed hfix] at hm
  rw [LoadedClass.constants_eq_of_fixed hfix]
  obtain ⟨hlen, hget⟩ := Results.mapM_eq_ok hmethods
  have hi : i < file.methods.length := hlen ▸ (List.getElem?_eq_some_iff.1 hm).1
  obtain ⟨m', hm', hdefine⟩ := hget i _ (List.getElem?_eq_getElem hi)
  obtain rfl : m' = m := Option.some.inj (hm'.symm.trans hm)
  exact LoadedMethod.exists_wellTyped_of_define
    (ClassFile.checkMethod_of_verify hverify (List.getElem_mem hi)) hdefine hn ha

/-- A method that is entered has a body, and is handed what it takes. -/
theorem LoadedMethod.of_verdict {m : LoadedMethod} {owner : String} {args : List Value}
    {machine : Machine} {limit : Limit}
    (h : limit.verdict (m.obstacle? owner args machine) = some none) :
    m.isNative = false ∧ m.isAbstract = false ∧ args.length = m.argumentCount := by
  have hobstacle := limit.obstacle_of_enters h
  unfold LoadedMethod.obstacle? at hobstacle
  split at hobstacle
  · simp at hobstacle
  rename_i hn
  split at hobstacle
  · simp at hobstacle
  rename_i ha
  split at hobstacle
  · simp at hobstacle
  rename_i hargs
  exact ⟨Bool.eq_false_iff.2 hn, Bool.eq_false_iff.2 ha, Decidable.not_not.1 hargs⟩

/-! ### Entering typed bodies -/

/-- The number of locals of a method, if there is room for the arguments among them. -/
theorem Frame.length_enter_locals {c : ClassRef} {maxLocals : Nat} {args : List Value}
    (h : args.length ≤ maxLocals) : (Frame.enter c maxLocals args).locals.length = maxLocals := by
  show (args ++ List.replicate (maxLocals - args.length) Value.null).length = maxLocals
  rw [List.length_append, List.length_replicate, Nat.add_sub_cancel' h]

/-- The view of frames of a class of a machine, of which everything is known: the class, the operands,
and what the locals keep to. -/
def View.active (S : Simulation) (start : Machine) (c : ClassRef) (hc : start.classes.Has c)
    (keeps : List Value → Prop) (offset : Nat) (base : List Value) : View (S.since start) where
  offset := offset
  base := base
  known := True
  cls := c
  pool := (start.cls c).constants
  keeps := keeps
  has _ _ _ hr := hr.2.has hc
  constants_eq _ _ _ hr := LoadedClass.constants_eq_of_fixed (hr.2.fixed_eq c hc)
  lenient h := absurd trivial h

namespace LoadedMethod

variable {S : Simulation} {m : LoadedMethod} {depthAt : Nat → Option Nat} {start : Machine}
variable {c : ClassRef}

/-- The view of the activation of a method, as it is: its stack from nothing on, and the number of its
locals. -/
def activation (S : Simulation) (start : Machine) (c : ClassRef) (hc : start.classes.Has c)
    (m : LoadedMethod) : View (S.since start) :=
  .active S start c hc (·.length = m.maxLocals.toNat) 0 []

theorem WellTyped.carries {hc : start.classes.Has c}
    (h : m.WellTyped (start.cls c).constants depthAt) :
    (activation S start c hc m).Carries m.code m.code depthAt m.signature.ret.isVoid where
  typed _ := h.typed
  moved _ p n i _ hi := by
    show m.code[p + 0]? = some (i.mapTarget (· + 0))
    rw [View.mapTarget_add_zero, Nat.add_zero, hi]
  same h := absurd trivial h

/-- A frame before its first instruction is in its place. -/
theorem WellTyped.placed {hc : start.classes.Has c}
    (h : m.WellTyped (start.cls c).constants depthAt) {args : List Value}
    (hargs : args.length = m.argumentCount) :
    (activation S start c hc m).Placed depthAt (.enter c m.maxLocals.toNat args) := by
  exact fun _ => ⟨0, h.start, rfl, rfl, Frame.length_enter_locals (hargs ▸ h.room), rfl⟩

end LoadedMethod

end Interpose
