import Interpose.Proofs.DefaultConstructors
import Interpose.Proofs.LabelResolution
/-!
# Slots of assembled methods

The slots of a method are counted when it is assembled: as many as the receiver and the parameters
take, and one more than the highest slot that the body touches. The count is a number of any size,
but what the method declares has sixteen bits. A count that does not fit is cut off, and what is
declared then is too little for the method it was counted for.

There are two ways to get there: a body that touches the last of all slots, and a descriptor with so
many parameters. Anything else fits. A class none of whose methods goes so far is never refused for
its locals, and a class with one that does is never accepted.

Classes are put together by calls on a draft. A failure sticks, so that a class that has been built
has a method for every call that adds one, in the order of the calls.

## Main definitions

* `ClassDraft.Call`, `ClassDraft.performAll`: the calls on a draft
* `ClassDraft.Call.Adds`: the method that a call adds
* `MethodDef.Covers`: the locals that a method declares are enough for a body
* `SlotsFit`: what the count of slots is right for
* `VerifyError.isAboutLocals`: the refusals that are due to locals

## Main results

* `ClassDraft.forall₂_adds_of_build`: the methods of a class that has been built
* `MethodDef.AssembledFrom.covers_iff`: methods that declare enough
* `Verifier.not_isAboutLocals_of_covers`: methods that are not refused for their locals
* `ClassDraft.locals_suffice_iff`: classes that are not refused for their locals
-/

namespace Interpose

/-! ### Calls on a class draft -/

namespace MethodDef

/-- A method has been assembled from a body, on some pool. The exceptions that it declares are
not part of this: they are declared later on. -/
structure AssembledFrom (m : MethodDef) (name descriptor : String) (flags : Access)
    (signature : MethodDesc) (body : List Item) : Prop where
  name_eq : m.name = name
  descriptor_eq : m.descriptor = descriptor
  access_eq : m.access = flags
  parses : MethodDesc.parse descriptor = .ok signature
  assembles : ∃ pool pool' code, Item.assemble pool body = .ok (code, pool') ∧
    m.maxLocals = UInt16.ofNat
      (Code.slotsNeeded (signature.arity + (!flags.has .static).toNat) code) ∧
    m.code = Code.encode code

/-- The method without the exceptions that it declares. -/
def bare (m : MethodDef) : MethodDef := { m with exceptions := [] }

theorem assembledFrom_bare_iff {m : MethodDef} {name descriptor : String} {flags : Access}
    {signature : MethodDesc} {body : List Item} :
    m.bare.AssembledFrom name descriptor flags signature body ↔
      m.AssembledFrom name descriptor flags signature body := by
  constructor
  · exact fun h => ⟨h.name_eq, h.descriptor_eq, h.access_eq, h.parses, h.assembles⟩
  · exact fun h => ⟨h.name_eq, h.descriptor_eq, h.access_eq, h.parses, h.assembles⟩

end MethodDef

namespace ClassDraft

/-- A call on a class draft. -/
inductive Call
  | superclass (name : String)
  | access (flags : Access)
  | annotate (mark : String)
  | field (name descriptor : String) (flags : Access)
  | method (name descriptor : String) (flags : Access) (body : List Item)
  | defaultConstructor
  | nativeMethod (name descriptor : String) (flags : Access)
  | throws (exceptions : List String)
  deriving DecidableEq, Repr

/-- What a call makes of a draft. -/
def perform (d : ClassDraft) : Call → ClassDraft
  | .superclass name => { d with file := { d.file with superName := some name } }
  | .access flags => { d with file := { d.file with access := flags } }
  | .annotate mark => { d with file := { d.file with annotations := d.file.annotations ++ [mark] } }
  | .field name descriptor flags =>
    { d with file := { d.file with fields := d.file.fields ++ [⟨name, descriptor, flags⟩] } }
  | .method name descriptor flags body => d.method name descriptor flags body
  | .defaultConstructor => d.defaultConstructor
  | .nativeMethod name descriptor flags => d.nativeMethod name descriptor flags
  | .throws exceptions => d.throws exceptions

/-- Makes calls in order. -/
def performAll (d : ClassDraft) (calls : List Call) : ClassDraft := calls.foldl perform d

namespace Call

/-- Whether a call adds a method, if it adds anything. -/
def addsMethod : Call → Bool
  | .method .. | .defaultConstructor | .nativeMethod .. => true
  | _ => false

/-- The method that a call adds. -/
inductive Adds : Call → MethodDef → Prop
  | method {name descriptor : String} {flags : Access} {body : List Item} {signature : MethodDesc}
    {m : MethodDef} (h : m.AssembledFrom name descriptor flags signature body) :
    Adds (.method name descriptor flags body) m
  | defaultConstructor {superName : Option String} {signature : MethodDesc} {m : MethodDef}
    (h : m.AssembledFrom constructorName "()V" Modifier.visible.bit signature
      (defaultConstructorBody superName)) : Adds .defaultConstructor m
  | nativeMethod {name descriptor : String} {flags : Access} {signature : MethodDesc}
    {exceptions : List String} (h : MethodDesc.parse descriptor = .ok signature) :
    Adds (.nativeMethod name descriptor flags)
      ⟨name, descriptor, flags ||| Modifier.native.bit, exceptions, 0, []⟩

/-- Declared exceptions have no say in which call has added a method. -/
theorem adds_bare_iff {call : Call} {m : MethodDef} : call.Adds m.bare ↔ call.Adds m := by
  constructor
  · intro h
    obtain ⟨name, descriptor, access, exceptions, maxLocals, code⟩ := m
    cases h with
    | method h => exact .method (MethodDef.assembledFrom_bare_iff.1 h)
    | defaultConstructor h => exact .defaultConstructor (MethodDef.assembledFrom_bare_iff.1 h)
    | nativeMethod h => exact .nativeMethod h
  · intro h
    cases h with
    | method h => exact .method (MethodDef.assembledFrom_bare_iff.2 h)
    | defaultConstructor h => exact .defaultConstructor (MethodDef.assembledFrom_bare_iff.2 h)
    | nativeMethod h => exact .nativeMethod h

theorem forall₂_adds_bare {calls : List Call} {methods : List MethodDef} :
    List.Forall₂ Adds calls (methods.map MethodDef.bare) ↔ List.Forall₂ Adds calls methods := by
  simp only [List.forall₂_map_right_iff, adds_bare_iff]

end Call

variable {d : ClassDraft} {calls : List Call} {call : Call}

/-- Adding a method: it fails, or the method was assembled from the body. -/
theorem method_cases (d : ClassDraft) (name descriptor : String) (flags : Access)
    (body : List Item) : (d.method name descriptor flags body).error? ≠ none ∨
      d.error? = none ∧ ∃ m signature, m.AssembledFrom name descriptor flags signature body ∧
        (d.method name descriptor flags body).file.methods = d.file.methods ++ [m] := by
  rw [ClassDraft.method]
  split
  · next e he => exact .inl (by simp [he])
  next he =>
  split
  · exact .inl (Option.some_ne_none _)
  next signature hsignature =>
  split
  · exact .inl (Option.some_ne_none _)
  next code pool hassemble =>
  exact .inr ⟨he, _, signature, ⟨rfl, rfl, rfl, hsignature, _, _, _, hassemble, rfl, rfl⟩, rfl⟩

/-- The calls that add methods have added the methods of a draft, unless one has failed. -/
def Tracks (calls : List Call) (d : ClassDraft) : Prop :=
  d.error? = none → List.Forall₂ Call.Adds (calls.filter Call.addsMethod) d.file.methods

theorem Tracks.of_adds (h : Tracks calls d) {d' : ClassDraft} (hcall : call.addsMethod)
    (hd : d'.error? = none →
      d.error? = none ∧ ∃ m, call.Adds m ∧ d'.file.methods = d.file.methods ++ [m]) :
    Tracks (calls ++ [call]) d' := by
  intro hd'
  obtain ⟨hnone, m, hadds, hmethods⟩ := hd hd'
  rw [List.filter_append, List.filter_singleton, hcall, hmethods]
  exact List.rel_append (h hnone) (.cons hadds .nil)

theorem Tracks.of_method (h : Tracks calls d) {name descriptor : String} {flags : Access}
    {body : List Item} (hcall : call.addsMethod)
    (hadds : ∀ m signature, m.AssembledFrom name descriptor flags signature body → call.Adds m) :
    Tracks (calls ++ [call]) (d.method name descriptor flags body) := by
  refine h.of_adds hcall fun hnone => ?_
  rcases d.method_cases name descriptor flags body with hfails | ⟨hd, m, signature, hm, heq⟩
  · exact absurd hnone hfails
  · exact ⟨hd, m, hadds m signature hm, heq⟩

theorem Tracks.of_keeps (h : Tracks calls d) {d' : ClassDraft} (hcall : call.addsMethod = false)
    (herror : d'.error? = d.error?)
    (hmethods : d'.file.methods.map MethodDef.bare = d.file.methods.map MethodDef.bare) :
    Tracks (calls ++ [call]) d' := by
  intro hd'
  rw [List.filter_append, List.filter_singleton, hcall, ← Call.forall₂_adds_bare, hmethods,
    Call.forall₂_adds_bare]
  simpa using h (herror ▸ hd')

theorem map_bare_throws (d : ClassDraft) (exceptions : List String) :
    (d.throws exceptions).file.methods.map MethodDef.bare =
      d.file.methods.map MethodDef.bare := by
  rw [throws]
  split
  · rfl
  · next m hm =>
    have hsplit : d.file.methods = d.file.methods.dropLast ++ [m] :=
      (List.dropLast_append_getLast? m hm).symm
    rw [List.map_append, hsplit]
    simp [MethodDef.bare]

theorem error?_throws (d : ClassDraft) (exceptions : List String) :
    (d.throws exceptions).error? = d.error? := by
  rw [throws]
  split <;> rfl

/-- **One call.** A call that succeeds adds the method that it is said to add, and leaves the others
alone. -/
theorem Tracks.perform (h : Tracks calls d) (call : Call) :
    Tracks (calls ++ [call]) (d.perform call) := by
  cases call with
  | superclass name => exact h.of_keeps rfl rfl rfl
  | access flags => exact h.of_keeps rfl rfl rfl
  | annotate mark => exact h.of_keeps rfl rfl rfl
  | field name descriptor flags => exact h.of_keeps rfl rfl rfl
  | throws exceptions =>
    exact h.of_keeps rfl (d.error?_throws exceptions) (d.map_bare_throws exceptions)
  | method name descriptor flags body => exact h.of_method rfl fun m signature => .method
  | defaultConstructor => exact h.of_method rfl fun m signature => .defaultConstructor
  | nativeMethod name descriptor flags =>
    refine h.of_adds rfl fun hnone => ?_
    rw [ClassDraft.perform, ClassDraft.nativeMethod] at hnone ⊢
    split at hnone
    · exact absurd hnone (Option.some_ne_none _)
    · next signature hparse => exact ⟨hnone, _, .nativeMethod hparse, rfl⟩

/-- The induction is on the calls, from the front: each adds to what those before it have added. -/
theorem tracks_performAll (name : String) (calls : List Call) :
    Tracks calls ((start name).performAll calls) := by
  induction calls using List.reverseRecOn with
  | nil => exact fun _ => .nil
  | append_singleton calls call ih =>
    rw [performAll, List.foldl_append]
    exact ih.perform call

/-- **Methods of a class.** A class that has been built has a method for each call that adds one, in
the order of the calls. -/
theorem forall₂_adds_of_build {name : String} {file : ClassFile}
    (h : ((start name).performAll calls).build = .ok file) :
    List.Forall₂ Call.Adds (calls.filter Call.addsMethod) file.methods := by
  rw [build] at h
  split at h
  · cases h
  · next hnone =>
    cases h
    exact tracks_performAll name calls hnone

end ClassDraft

/-! ### Slots of a body -/

/-- The local slot that an item touches. -/
def Item.slot? : Item → Option UInt16
  | plain (.emit i) => i.slot?
  | _ => none

namespace Code

variable {code code' : List Instruction} {body : List Item}

theorem foldl_max_le_iff {l : List Nat} {a n : Nat} :
    l.foldl max a ≤ n ↔ a ≤ n ∧ ∀ b ∈ l, b ≤ n := by
  induction l generalizing a with
  | nil => simp
  | cons b l ih => rw [List.foldl_cons, ih, Nat.max_le, List.forall_mem_cons, and_assoc]

/-- **The count of slots.** What is counted is the least number that is enough. -/
theorem slotsNeeded_le_iff {params n : Nat} : slotsNeeded params code ≤ n ↔
    params ≤ n ∧ ∀ slot ∈ code.filterMap Instruction.slot?, slot.toNat < n := by
  have hslots : (code.filterMap fun i => i.slot?.map fun n => n.toNat + 1) =
      (code.filterMap Instruction.slot?).map fun n => n.toNat + 1 := by
    rw [List.map_filterMap]
  rw [slotsNeeded, hslots, foldl_max_le_iff, List.forall_mem_map]
  rfl

/-- Replacing labels leaves slots alone. -/
theorem slots_of_linked {directives : List Directive} {instructions : List Instruction}
    (h : List.Forall₂ (Draft.Linked directives) instructions code) :
    code.filterMap Instruction.slot? = instructions.filterMap Instruction.slot? := by
  induction h with
  | nil => rfl
  | cons hi _ ih =>
    cases hi with
    | jump => exact ih
    | straight => rw [List.filterMap_cons, List.filterMap_cons, ih]

/-- Interning operands leaves slots alone. -/
theorem slots_of_resolveAll (pool : Pool) (body : List Item) :
    (Draft.emissions (Item.resolveAll pool body).1).filterMap Instruction.slot? =
      body.filterMap Item.slot? := by
  induction body generalizing pool with
  | nil => rfl
  | cons item rest ih =>
    cases item with
    | plain directive =>
      cases directive with
      | newLabel => exact ih pool
      | mark label => exact ih pool
      | emit i =>
        rw [List.filterMap_cons, Item.slot?, ← ih pool]
        rfl
    | _ => exact ih _

/-- **Slots of a program.** An assembled program touches the slots that its items touch. -/
theorem slots_of_assemble {pool pool' : Pool} (h : Item.assemble pool body = .ok (code, pool')) :
    code.filterMap Instruction.slot? = body.filterMap Item.slot? := by
  rw [Item.assemble, Item.draft] at h
  obtain ⟨code', hfinish, heq⟩ := Results.map_eq_ok h
  cases heq
  rw [slots_of_linked (Draft.finish_eq_ok_iff.1 hfinish), slots_of_resolveAll]

/-! ### Slots of what is read again -/

/-- The instructions can be read off the bytes. -/
theorem flatMap_encode_injective {X Y : List (InstructionOf Int32)}
    (h : X.flatMap InstructionOf.encode = Y.flatMap InstructionOf.encode) : X = Y := by
  have hsplit := split_flatMap_encode 0 0 X
  rw [h, split_flatMap_encode 0 0 Y, Except.ok.injEq] at hsplit
  have hsnd := congrArg (List.map Prod.snd) hsplit
  rw [List.map_snd_zip (Nat.le_of_eq (length_offsets 0 Y).symm),
    List.map_snd_zip (Nat.le_of_eq (length_offsets 0 X).symm)] at hsnd
  exact hsnd.symm

/-- The program without its labels. -/
def unlabelled {T : Type} (code : List (InstructionOf T)) : List Instruction :=
  code.map (·.mapTarget fun _ => 0)

theorem unlabelled_toDistances (place : Nat → Nat) (start : Nat) (code : List Instruction) :
    unlabelled (toDistances place start code) = unlabelled code := by
  induction code generalizing start with
  | nil => rfl
  | cons i rest ih =>
    have hi : (i.mapTarget fun label =>
        Int32.ofNat (place label) - Int32.ofNat (start + i.size)).mapTarget (fun _ => 0) =
        i.mapTarget fun _ => 0 := by
      cases i <;> rfl
    exact congrArg₂ List.cons hi (ih _)

theorem slots_unlabelled (code : List Instruction) :
    (unlabelled code).filterMap Instruction.slot? = code.filterMap Instruction.slot? := by
  have hslot : ∀ i : Instruction, Instruction.slot? (i.mapTarget fun _ => 0) = i.slot? := by
    intro i
    cases i <;> rfl
  rw [unlabelled, List.filterMap_map]
  exact congrArg (List.filterMap · code) (funext hslot)

/-- Whatever becomes of its labels, a program that is written and read again touches the slots that
it touched. -/
theorem slots_of_decode (h : decode (encode code) = .ok code') :
    code'.filterMap Instruction.slot? = code.filterMap Instruction.slot? := by
  have hbytes := encode_of_decode h
  have hdistances := congrArg unlabelled (flatMap_encode_injective hbytes)
  rw [unlabelled_toDistances, unlabelled_toDistances] at hdistances
  rw [← slots_unlabelled, hdistances, slots_unlabelled]

end Code

/-! ### What is declared -/

/-- The highest slot that a body can touch. -/
def lastSlot : UInt16 := 0xFFFF

/-- The count of slots of a method fits sixteen bits: the receiver and the parameters leave the last
slot free, and the body does not touch it. -/
structure SlotsFit (signature : MethodDesc) (flags : Access) (body : List Item) : Prop where
  params : signature.arity + (!flags.has .static).toNat < 0x10000
  slots : lastSlot ∉ body.filterMap Item.slot?

namespace MethodDef

variable {m : MethodDef} {name descriptor : String} {flags : Access} {signature : MethodDesc}
  {body : List Item}

/-- The locals that a method declares are enough for the receiver, the parameters, and the slots
that a body touches. -/
structure Covers (m : MethodDef) (signature : MethodDesc) (body : List Item) : Prop where
  params : signature.arity + (!m.isStatic).toNat ≤ m.maxLocals.toNat
  slots : ∀ slot ∈ body.filterMap Item.slot?, slot < m.maxLocals

/-- **What is declared.** An assembled method declares enough exactly if what was counted for it
fits sixteen bits. -/
theorem AssembledFrom.covers_iff (h : m.AssembledFrom name descriptor flags signature body) :
    m.Covers signature body ↔ SlotsFit signature flags body := by
  obtain ⟨pool, pool', code, hassemble, hlocals, -⟩ := h.assembles
  have hslots := Code.slots_of_assemble hassemble
  have hneeded : ∀ n, Code.slotsNeeded (signature.arity + (!flags.has .static).toNat) code ≤ n ↔
      signature.arity + (!flags.has .static).toNat ≤ n ∧
        ∀ slot ∈ body.filterMap Item.slot?, slot.toNat < n := by
    intro n
    rw [Code.slotsNeeded_le_iff, hslots]
  have hcovers : m.Covers signature body ↔
      Code.slotsNeeded (signature.arity + (!flags.has .static).toNat) code ≤ m.maxLocals.toNat := by
    rw [hneeded, ← h.access_eq]
    exact ⟨fun hm => ⟨hm.params, hm.slots⟩, fun hm => ⟨hm.1, hm.2⟩⟩
  have hfit : SlotsFit signature flags body ↔
      Code.slotsNeeded (signature.arity + (!flags.has .static).toNat) code ≤ 0xFFFF := by
    rw [hneeded]
    constructor
    · rintro ⟨hparams, hlast⟩
      refine ⟨Nat.le_of_lt_succ hparams, fun slot hmem => ?_⟩
      have hne : slot ≠ lastSlot := fun heq => hlast (heq ▸ hmem)
      have htoNat : slot.toNat ≠ 0xFFFF := fun heq => hne (UInt16.toNat_inj.1 heq)
      have hlt := slot.toNat_lt
      omega
    · rintro ⟨hparams, hslots⟩
      exact ⟨Nat.lt_succ_of_le hparams, fun hmem => Nat.lt_irrefl _ (hslots lastSlot hmem)⟩
  rw [hcovers, hfit, hlocals, UInt16.toNat_ofNat']
  omega

end MethodDef

/-! ### Refusals that are due to locals -/

/-- A refusal that says that there are too few locals. -/
def VerifyError.isAboutLocals : VerifyError → Bool
  | tooFewLocals .. | invalidLocalRef .. => true
  | _ => false

/-- A list that is not gone through has an element that is to blame. -/
theorem Results.forM_eq_error {ε α : Type} {f : α → Except ε Unit} {l : List α} {e : ε}
    (h : l.forM f = .error e) : ∃ a ∈ l, f a = .error e := by
  induction l with
  | nil => cases h
  | cons a l ih =>
    rw [show (a :: l).forM f = (f a >>= fun _ => l.forM f) from rfl] at h
    cases ha : f a with
    | error e' =>
      rw [ha] at h
      cases h
      exact ⟨a, List.mem_cons_self, ha⟩
    | ok u =>
      rw [ha] at h
      obtain ⟨b, hmem, hb⟩ := ih h
      exact ⟨b, List.mem_cons_of_mem a hmem, hb⟩

namespace Verifier

variable {method className : String} {pool : Pool} {maxLocals : UInt16} {place : Nat}
  {code : List Instruction} {e : VerifyError}

theorem exists_slot_of_checkOperand {i : Instruction}
    (h : checkOperand method pool maxLocals place i = .error e) (he : e.isAboutLocals) :
    ∃ slot, i.slot? = some slot ∧ maxLocals ≤ slot := by
  cases i with
  | loadLocal slot | storeLocal slot =>
    rw [checkOperand] at h
    split at h
    · next hle => exact ⟨slot, rfl, hle⟩
    · cases h
  | constString index | constClass index | new index | instanceOf index | field access index =>
    rw [checkOperand] at h
    split at h
    · cases h
      cases he
    · cases h
  | invoke kind index =>
    rw [checkOperand] at h
    split at h
    · cases h
      cases he
    · split at h
      · cases h
      · cases h
        cases he
  | _ => cases h

theorem exists_slot_of_checkOperands
    (h : checkOperands method pool maxLocals place code = .error e) (he : e.isAboutLocals) :
    ∃ slot ∈ code.filterMap Instruction.slot?, maxLocals ≤ slot := by
  induction code generalizing place with
  | nil => cases h
  | cons i rest ih =>
    rw [checkOperands] at h
    split at h
    · next hi =>
      cases h
      obtain ⟨slot, hslot, hle⟩ := exists_slot_of_checkOperand hi he
      exact ⟨slot, List.mem_filterMap.2 ⟨i, List.mem_cons_self, hslot⟩, hle⟩
    · obtain ⟨slot, hmem, hle⟩ := ih h
      obtain ⟨j, hj, hslot⟩ := List.mem_filterMap.1 hmem
      exact ⟨slot, List.mem_filterMap.2 ⟨j, List.mem_cons_of_mem i hj, hslot⟩, hle⟩

/-- The depth check does not look at locals. -/
theorem not_isAboutLocals_of_checkStack {returnsVoid : Bool}
    (h : checkStack method pool returnsVoid code = .error e) : ¬ e.isAboutLocals := by
  obtain ⟨k, s, -, ⟨-, hok⟩ | ⟨e', ⟨entry, rest, -, henter⟩, herror⟩⟩ :=
    exists_rounds_of_checkStack method pool returnsVoid code
  · rw [hok] at h
    cases h
  rw [herror] at h
  cases h
  rw [Progress.enter] at henter
  split at henter
  · split at henter
    · next hafter =>
      cases henter
      rw [depthAfter] at hafter
      split at hafter
      · cases hafter
        exact Bool.false_ne_true
      split at hafter
      · cases hafter
        exact Bool.false_ne_true
      · cases hafter
    · cases henter
  · split at henter
    · cases henter
    · cases henter
      exact Bool.false_ne_true
  · cases henter
    exact Bool.false_ne_true

variable {m : MethodDef} {name descriptor : String} {flags : Access} {signature : MethodDesc}
  {body : List Item}

/-- **Methods that declare enough.** No such method is refused for its locals, in any class. -/
theorem not_isAboutLocals_of_covers (hm : m.AssembledFrom name descriptor flags signature body)
    (hcovers : m.Covers signature body) (h : checkMethod className pool m = .error e) :
    ¬ e.isAboutLocals := by
  obtain ⟨pool₀, pool', code, hassemble, -, hcode⟩ := hm.assembles
  have hsignature : m.signature = .ok signature := by
    rw [MethodDef.signature, hm.descriptor_eq, hm.parses]
  rw [checkMethod, hsignature] at h
  dsimp only at h
  split at h
  · split at h
    · cases h
    · cases h
      exact Bool.false_ne_true
  split at h
  · cases h
    exact Bool.false_ne_true
  rw [checkBody] at h
  rw [if_neg (Nat.not_lt_of_le hcovers.params)] at h
  split at h
  · cases h
    exact Bool.false_ne_true
  next code' hdecode =>
  split at h
  · next hoperands =>
    cases h
    intro he
    obtain ⟨slot, hmem, hle⟩ := exists_slot_of_checkOperands hoperands he
    rw [Code.slots_of_decode (hcode ▸ hdecode), Code.slots_of_assemble hassemble] at hmem
    exact UInt16.not_le.2 (hcovers.slots slot hmem) hle
  · exact not_isAboutLocals_of_checkStack h

/-- **Methods that do not.** A method with a body to be checked that is accepted declares enough. -/
theorem covers_of_checkMethod (hm : m.AssembledFrom name descriptor flags signature body)
    (hbody : (m.isNative || m.isAbstract) = false) (h : checkMethod className pool m = .ok ()) :
    m.Covers signature body := by
  obtain ⟨pool₀, pool', code, hassemble, -, hcode⟩ := hm.assembles
  obtain ⟨signature', hsignature, hrest⟩ := checkMethod_eq_ok_iff.1 h
  rw [MethodDef.signature, hm.descriptor_eq, hm.parses] at hsignature
  cases hsignature
  rw [hbody] at hrest
  obtain ⟨-, hparams, code', hdecode, hpasses⟩ := hrest
  refine ⟨hparams, fun slot hmem => ?_⟩
  rw [← Code.slots_of_assemble hassemble, ← Code.slots_of_decode (hcode ▸ hdecode)] at hmem
  obtain ⟨i, hi, hslot⟩ := List.mem_filterMap.1 hmem
  have hfound := hpasses.found i hi
  cases i with
  | loadLocal n | storeLocal n =>
    cases hslot
    exact hfound
  | _ => cases hslot

end Verifier

/-! ### Classes -/

/-- A flag that is added is there. -/
theorem Access.has_or_self (flags : Access) (f : Modifier) : has (flags ||| f.bit) f := by
  have hor : (flags ||| f.bit) &&& f.bit = f.bit := by
    refine UInt16.toBitVec_inj.1 ?_
    show (flags.toBitVec ||| f.bit.toBitVec) &&& f.bit.toBitVec = f.bit.toBitVec
    ext i hi
    rw [BitVec.getElem_and, BitVec.getElem_or]
    cases f.bit.toBitVec[i] <;> simp
  rw [has, hor]
  cases f <;> decide

theorem slotsFit_defaultConstructor (superName : Option String) :
    SlotsFit ⟨[], .void⟩ Modifier.visible.bit (ClassDraft.defaultConstructorBody superName) := by
  refine ⟨by decide, ?_⟩
  cases superName with
  | none => exact List.not_mem_nil
  | some super => exact (by decide : lastSlot ∉ [(0 : UInt16)])

namespace ClassFile

variable {file : ClassFile} {e : VerifyError}

/-- A class is refused for a field or for a method. -/
theorem verify_eq_error (h : file.verify = .error e) :
    (∃ f ∈ file.fields, Verifier.checkField file.name f = .error e) ∨
      ∃ m ∈ file.methods, Verifier.checkMethod file.name file.constants m = .error e := by
  rw [verify] at h
  cases hfields : file.fields.forM (Verifier.checkField file.name) with
  | error e' =>
    rw [hfields] at h
    cases h
    exact .inl (Results.forM_eq_error hfields)
  | ok u =>
    rw [hfields] at h
    exact .inr (Results.forM_eq_error h)

end ClassFile

theorem Verifier.not_isAboutLocals_of_checkField {className : String} {f : FieldDef}
    {e : VerifyError} (h : checkField className f = .error e) : ¬ e.isAboutLocals := by
  rw [checkField] at h
  split at h
  · split at h
    · cases h
      exact Bool.false_ne_true
    · cases h
  · cases h
    exact Bool.false_ne_true

namespace ClassDraft

variable {className : String} {calls : List Call} {file : ClassFile}

/-- **Locals suffice, or the count has wrapped.** A class that has been built has a method for each
call that adds one, in order. What a method declares is enough for its receiver, its parameters and
the slots of its body exactly if the number of slots fits sixteen bits. If that is so for each
method, then the class is not refused for locals; and if the class is accepted, it is so for each
method with a body to be checked. -/
theorem locals_suffice_iff (h : ((start className).performAll calls).build = .ok file) :
    List.Forall₂ Call.Adds (calls.filter Call.addsMethod) file.methods ∧
    (∀ name descriptor flags body m, Call.Adds (.method name descriptor flags body) m →
      ∃ signature, MethodDesc.parse descriptor = .ok signature ∧
        (m.Covers signature body ↔ SlotsFit signature flags body)) ∧
    ((∀ name descriptor flags body signature, .method name descriptor flags body ∈ calls →
        MethodDesc.parse descriptor = .ok signature → SlotsFit signature flags body) →
      ∀ e, file.verify = .error e → ¬ e.isAboutLocals) ∧
    (file.verify = .ok () →
      ∀ name descriptor flags body, .method name descriptor flags body ∈ calls →
        (flags.has .native || flags.has .abstract) = false →
        ∃ signature, MethodDesc.parse descriptor = .ok signature ∧
          SlotsFit signature flags body) := by
  have hadds := forall₂_adds_of_build h
  refine ⟨hadds, ?_, ?_, ?_⟩
  · intro name descriptor flags body m hm
    cases hm with
    | method hm => exact ⟨_, hm.parses, hm.covers_iff⟩
  · intro hfit e he
    rcases ClassFile.verify_eq_error he with ⟨f, -, hf⟩ | ⟨m, hmem, hm⟩
    · exact Verifier.not_isAboutLocals_of_checkField hf
    obtain ⟨call, hcall, hadd⟩ := exists_of_forall₂ hadds hmem
    cases hadd with
    | method hassembled =>
      have hfits := hfit _ _ _ _ _ (List.mem_filter.1 hcall).1 hassembled.parses
      exact Verifier.not_isAboutLocals_of_covers hassembled (hassembled.covers_iff.2 hfits) hm
    | @defaultConstructor superName signature m hassembled =>
      obtain rfl : signature = ⟨[], .void⟩ :=
        Except.ok.inj (hassembled.parses.symm.trans parse_noParams)
      have hfits := slotsFit_defaultConstructor superName
      exact Verifier.not_isAboutLocals_of_covers hassembled (hassembled.covers_iff.2 hfits) hm
    | nativeMethod hparses =>
      rw [Verifier.checkMethod, MethodDef.signature, hparses] at hm
      simp [MethodDef.isNative, Access.has_or_self] at hm
  · intro hok name descriptor flags body hmem hflags
    have hcall : Call.method name descriptor flags body ∈ calls.filter Call.addsMethod :=
      List.mem_filter.2 ⟨hmem, rfl⟩
    obtain ⟨m, hm, hadd⟩ := exists_of_forall₂ hadds.flip hcall
    cases hadd with
    | method hassembled =>
      have hbody : (m.isNative || m.isAbstract) = false := by
        rw [MethodDef.isNative, MethodDef.isAbstract, hassembled.access_eq]
        exact hflags
      have hcheck := (ClassFile.verify_eq_ok_iff.1 hok).2 m hm
      exact ⟨_, hassembled.parses,
        hassembled.covers_iff.1 (Verifier.covers_of_checkMethod hassembled hbody hcheck)⟩

/-- A body that copies an argument from its slot to the next one. -/
def copyBody : List Item := [.loadLocal 1, .emit (.storeLocal 2), .simple .retVoid]

def copyCalls : List Call := [.method "copy" "(I)V" 0x0001 copyBody]

/-- The class with it, which declares three slots. -/
def copyFile : ClassFile where
  name := "t.A"
  methods := [⟨"copy", "(I)V", 0x0001, [], 3,
    Code.encode [.loadLocal 1, .storeLocal 2, .simple .retVoid]⟩]

theorem copy_declares_enough : ((start "t.A").performAll copyCalls).build = .ok copyFile ∧
    (∀ m ∈ copyFile.methods, m.Covers ⟨[.int], .void⟩ copyBody) ∧
    ∀ e, copyFile.verify = .error e → ¬ e.isAboutLocals := by
  have hbuild : ((start "t.A").performAll copyCalls).build = .ok copyFile := by decide +kernel
  have hint : MethodDesc.parse "(I)V" = .ok ⟨[.int], .void⟩ := by decide +kernel
  have hfits : SlotsFit ⟨[.int], .void⟩ 0x0001 copyBody := ⟨by decide, by decide⟩
  obtain ⟨hadds, hcovers, hverify, -⟩ := locals_suffice_iff hbuild
  refine ⟨hbuild, fun m hm => ?_,
    hverify fun name descriptor flags body signature hmem hparse => ?_⟩
  · obtain ⟨call, hcall, hadd⟩ := exists_of_forall₂ hadds hm
    cases List.mem_singleton.1 hcall
    obtain ⟨signature, hparse, hiff⟩ := hcovers _ _ _ _ m hadd
    cases hparse.symm.trans hint
    exact hiff.2 hfits
  · cases List.mem_singleton.1 hmem
    cases hparse.symm.trans hint
    exact hfits

/-- A method that touches the last slot. -/
def lastSlotCalls : List Call :=
  [.method "last" "()V" 0x0009 [.loadLocal lastSlot, .simple .pop, .simple .retVoid]]

/-- The class with it, which declares no slots. -/
def lastSlotFile : ClassFile where
  name := "t.A"
  methods := [⟨"last", "()V", 0x0009, [], 0,
    Code.encode [.loadLocal lastSlot, .simple .pop, .simple .retVoid]⟩]

/-- The count of slots wraps, and the class that has been built is refused. -/
theorem last_slot_wraps : ((start "t.A").performAll lastSlotCalls).build = .ok lastSlotFile ∧
    lastSlotFile.verify = .error (.invalidLocalRef "t.A.last()V" lastSlot 0 0) := by
  decide +kernel

end ClassDraft

end Interpose
