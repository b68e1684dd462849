import Interpose.Instrument.Transform
import Interpose.Proofs.Layouts
import Interpose.Proofs.Machines
import Interpose.Proofs.Methods
import Interpose.Proofs.Stubs
/-!
# Instrumented classes as they are loaded

Instrumentation puts the declared bodies first, under other names, and the methods that take over
their names behind them, in the same order. So what stands for a method of the class file is found by
its position, and found by name as well if the names are those that instrumentation makes up. Of two
methods with one name and descriptor, a class finds the later.

## Main definitions

* `IsGenerated`, `ClassFile.Unclaimed`: the generated names, and a class file that leaves them alone
* `ClassFile.Declares`: a method that is declared at a place, and not again behind it
* `ClassFile.Part`: what may stand at a place of an instrumented class file
* `Machine.Intercepts`: a class of the machine is the instrumented form of a class file

## Main results

* `ClassFile.Instrumented.part`: what stands at each place
* `Machine.Intercepts.declaredMethod?_bodyOf`, `Machine.Intercepts.declaredMethod?_entryOf`: declared
  bodies and stubs are found under their names
* `Machine.Intercepts.exists_marker`: a receiver has a slot for the marker
-/

namespace Interpose

/-! ### Generated names -/

/-- The names that instrumentation makes up. -/
def IsGenerated (name : String) : Prop :=
  directMethodPrefix.toList <+: name.toList ∨ name = constructorBodyName ∨
    name = staticInitializerBodyName ∨ name = markerFieldName

instance (name : String) : Decidable (IsGenerated name) :=
  inferInstanceAs (Decidable (_ ∨ _))

/-- The names that are made up for declared bodies. -/
def IsBodyName (name : String) : Prop :=
  directMethodPrefix.toList <+: name.toList ∨ name = constructorBodyName ∨
    name = staticInitializerBodyName

instance (name : String) : Decidable (IsBodyName name) :=
  inferInstanceAs (Decidable (_ ∨ _))

theorem IsBodyName.isGenerated {name : String} (h : IsBodyName name) : IsGenerated name :=
  h.imp_right (Or.imp_right Or.inl)

/-- A class file that declares nothing under a generated name. -/
structure ClassFile.Unclaimed (file : ClassFile) : Prop where
  methods : ∀ d ∈ file.methods, ¬IsGenerated d.name
  fields : ∀ f ∈ file.fields, ¬IsGenerated f.name

theorem ClassFile.Unclaimed.names {file : ClassFile} (h : file.Unclaimed) :
    ∀ d ∈ file.methods, ¬IsBodyName d.name := fun d hd hname => h.methods d hd hname.isGenerated

/-- A class file whose methods differ in name or descriptor. -/
def ClassFile.Distinct (file : ClassFile) : Prop :=
  (file.methods.map fun d => (d.name, d.descriptor)).Nodup

instance (file : ClassFile) : Decidable file.Distinct :=
  inferInstanceAs (Decidable (List.Nodup _))

theorem ClassFile.Distinct.eq_of_getElem? {file : ClassFile} (h : file.Distinct) {i j : Nat}
    {d e : MethodDef} (hi : file.methods[i]? = some d) (hj : file.methods[j]? = some e)
    (hname : d.name = e.name) (hdescriptor : d.descriptor = e.descriptor) : i = j := by
  have hlt : i < (file.methods.map fun d => (d.name, d.descriptor)).length := by
    rw [List.length_map]
    exact (List.getElem?_eq_some_iff.1 hi).1
  refine (List.getElem?_inj hlt h).1 ?_
  rw [List.getElem?_map, List.getElem?_map, hi, hj, Option.map_some, Option.map_some, hname,
    hdescriptor]

/-- A class file declares a method at a place, and does not declare it again behind that place. Where
a method is declared twice, it is the later one that a class finds. -/
structure ClassFile.Declares (file : ClassFile) (j : Nat) (d : MethodDef) : Prop where
  declared : file.methods[j]? = some d
  latest : ∀ (i : Nat) e, file.methods[i]? = some e → e.name = d.name →
    e.descriptor = d.descriptor → i ≤ j

theorem ClassFile.Distinct.declares {file : ClassFile} (h : file.Distinct) {j : Nat} {d : MethodDef}
    (hd : file.methods[j]? = some d) : file.Declares j d :=
  ⟨hd, fun _ _ he hname hdescriptor => Nat.le_of_eq (h.eq_of_getElem? he hd hname hdescriptor)⟩

namespace Instrument

theorem toList_directMethodName (className methodName : String) :
    (directMethodName className methodName).toList =
      (directMethodPrefix ++ simpleName className ++ "_" ++ fingerprint className ++ "_").toList ++
        methodName.toList :=
  String.toList_append

/-- Direct names of one class differ if the names do. -/
theorem directMethodName_inj {className a b : String}
    (h : directMethodName className a = directMethodName className b) : a = b := by
  have htoList := congrArg String.toList h
  rw [toList_directMethodName, toList_directMethodName] at htoList
  exact String.toList_inj.1 (List.append_cancel_left htoList)

theorem prefix_directMethodName (className methodName : String) :
    directMethodPrefix.toList <+: (directMethodName className methodName).toList := by
  simp only [directMethodName, String.toList_append, List.append_assoc]
  exact List.prefix_append _ _

/-- The name that the declared body of a method is given. -/
def bodyName (className methodName : String) : String :=
  if methodName = constructorName then constructorBodyName
  else if methodName = staticInitializerName then staticInitializerBodyName
  else directMethodName className methodName

theorem isBodyName_bodyName (className methodName : String) :
    IsBodyName (bodyName className methodName) := by
  unfold bodyName
  split
  · exact .inr (.inl rfl)
  split
  · exact .inr (.inr rfl)
  · exact .inl (prefix_directMethodName className methodName)

/-- A name that does not begin as direct names do is none. -/
theorem ne_directMethodName {className methodName name : String}
    (h : ¬directMethodPrefix.toList <+: name.toList) : name ≠ directMethodName className methodName :=
  fun heq => h (heq ▸ prefix_directMethodName className methodName)

theorem constructorBodyName_ne {className methodName : String} :
    constructorBodyName ≠ directMethodName className methodName :=
  ne_directMethodName (by decide)

theorem staticInitializerBodyName_ne {className methodName : String} :
    staticInitializerBodyName ≠ directMethodName className methodName :=
  ne_directMethodName (by decide)

/-- The bodies of methods of different names are given different names. -/
theorem bodyName_inj {className a b : String} (h : bodyName className a = bodyName className b) :
    a = b := by
  have hbody : constructorBodyName ≠ staticInitializerBodyName := by decide
  unfold bodyName at h
  by_cases ha : a = constructorName
  · rw [if_pos ha] at h
    by_cases hb : b = constructorName
    · rw [ha, hb]
    rw [if_neg hb] at h
    split at h
    · exact absurd h hbody
    · exact absurd h constructorBodyName_ne
  rw [if_neg ha] at h
  by_cases ha' : a = staticInitializerName
  · rw [if_pos ha'] at h
    split at h
    · exact absurd h.symm hbody
    split at h
    · rename_i hb'
      rw [ha', hb']
    · exact absurd h staticInitializerBodyName_ne
  rw [if_neg ha'] at h
  split at h
  · exact absurd h.symm constructorBodyName_ne
  split at h
  · exact absurd h.symm staticInitializerBodyName_ne
  · exact directMethodName_inj h

/-! ### Splitting methods -/

/-- What the stub of an ordinary method stands in for. -/
def entryTarget (className : String) (d : MethodDef) (signature : MethodDesc) : StubTarget :=
  ⟨className, d.name, directMethodName className d.name, d.descriptor, signature, d.isStatic,
    d.isNative⟩

variable {pool pool' : Pool} {className : String} {superName : Option String}
variable {d body entry : MethodDef}

theorem assemble_eq_ok {items : List Item} {code : List Instruction}
    (h : assemble pool items = .ok (code, pool')) : Item.assemble pool items = .ok (code, pool') := by
  unfold assemble at h
  split at h
  · rw [← Except.ok.inj h]
    assumption
  · exact nomatch h

theorem signatureOf_eq_ok {signature : MethodDesc} (h : signatureOf className d = .ok signature) :
    d.signature = .ok signature := by
  unfold signatureOf at h
  split at h
  · rw [← Except.ok.inj h]
    assumption
  · exact nomatch h

theorem entryMethod_eq_ok (h : entryMethod pool className d = .ok (entry, pool')) :
    ∃ signature code, d.signature = .ok signature ∧
      Item.assemble pool (entryTarget className d signature).items = .ok (code, pool') ∧
      entry = ⟨d.name, d.descriptor,
        Access.without d.access (Modifier.native.bit ||| Modifier.abstract.bit), d.exceptions,
        (entryTarget className d signature).locals, Code.encode code⟩ := by
  unfold entryMethod at h
  obtain ⟨signature, hsignature, h⟩ := Results.bind_eq_ok h
  obtain ⟨⟨code, pool''⟩, hcode, h⟩ := Results.bind_eq_ok h
  cases h
  exact ⟨signature, code, signatureOf_eq_ok hsignature, assemble_eq_ok hcode, rfl⟩

/-- A constructor is cut in two. -/
theorem splitConstructor_eq_ok (h : splitConstructor pool className superName d =
    .ok (body, entry, pool')) :
    ∃ signature code opening rest entryCode, d.signature = .ok signature ∧
      Code.decode d.code = .ok code ∧
      SuperCall.cut pool className superName code = .ok (opening, rest) ∧
      Item.assemble pool (opening.map .emit ++ (constructorTarget className d signature).items) =
        .ok (entryCode, pool') ∧
      entry = ⟨constructorName, d.descriptor,
        Access.without d.access Modifier.visibility ||| Modifier.visible.bit, d.exceptions,
        max d.maxLocals (constructorTarget className d signature).locals, Code.encode entryCode⟩ ∧
      body = { d with name := constructorBodyName, code := Code.encode rest } := by
  unfold splitConstructor at h
  obtain ⟨signature, hsignature, h⟩ := Results.bind_eq_ok h
  dsimp only at h
  split at h
  case h_2 => exact nomatch h
  rename_i code hcode
  obtain ⟨_, ⟨⟩, h⟩ := Results.bind_eq_ok h
  split at h
  case h_2 => exact nomatch h
  rename_i parts hcut
  obtain ⟨opening, rest⟩ := parts
  obtain ⟨_, ⟨⟩, h⟩ := Results.bind_eq_ok h
  obtain ⟨⟨entryCode, p⟩, hentry, h⟩ := Results.bind_eq_ok h
  cases h
  exact ⟨signature, code, opening, rest, entryCode, signatureOf_eq_ok hsignature, hcode, hcut,
    assemble_eq_ok hentry, rfl, rfl⟩

/-- What is the same of every method that is split. -/
structure Halves (className : String) (pool : Pool) (d body entry : MethodDef) (pool' : Pool) :
    Prop where
  bodyName : body.name = bodyName className d.name
  bodyDescriptor : body.descriptor = d.descriptor
  bodyAccess : body.access = d.access
  bodyExceptions : body.exceptions = d.exceptions
  bodyLocals : body.maxLocals = d.maxLocals
  entryName : entry.name = d.name
  entryDescriptor : d.name ≠ staticInitializerName → entry.descriptor = d.descriptor
  initializerDescriptor : d.name = staticInitializerName → entry.descriptor = "()V"
  entryExceptions : d.name ≠ staticInitializerName → entry.exceptions = d.exceptions
  grows : pool.Extends pool'

theorem halves_of_splitMethod (h : splitMethod pool className superName d =
    .ok (body, entry, pool')) : Halves className pool d body entry pool' := by
  unfold splitMethod at h
  split at h
  · rename_i hctor
    obtain ⟨signature, code, opening, rest, entryCode, -, -, -, hentry, rfl, rfl⟩ :=
      splitConstructor_eq_ok h
    exact ⟨by rw [bodyName, if_pos hctor], rfl, rfl, rfl, rfl, hctor.symm, fun _ => rfl,
      fun heq => absurd (hctor.symm.trans heq) (by decide), fun _ => rfl,
      Item.extends_of_assemble hentry⟩
  rename_i hctor
  split at h
  · rename_i hinit
    obtain ⟨⟨stub, p⟩, hstub, h⟩ := Results.bind_eq_ok h
    obtain ⟨⟨code, p'⟩, hcode, hstub⟩ := Results.bind_eq_ok hstub
    cases hstub
    cases h
    exact ⟨by rw [bodyName, if_neg hctor, if_pos hinit], rfl, rfl, rfl, rfl, hinit.symm,
      absurd hinit, fun _ => rfl, absurd hinit, Item.extends_of_assemble (assemble_eq_ok hcode)⟩
  · rename_i hinit
    obtain ⟨⟨stub, p⟩, hstub, h⟩ := Results.bind_eq_ok h
    cases h
    obtain ⟨signature, code, -, hcode, rfl⟩ := entryMethod_eq_ok hstub
    exact ⟨by rw [bodyName, if_neg hctor, if_neg hinit], rfl, rfl, rfl, rfl, rfl, fun _ => rfl,
      (absurd · hinit), fun _ => rfl, Item.extends_of_assemble hcode⟩

/-- Every method is split in its turn. -/
theorem splitMethods_eq_ok {methods bodies entries : List MethodDef}
    (h : splitMethods className superName pool methods = .ok (bodies, entries, pool')) :
    bodies.length = methods.length ∧ entries.length = methods.length ∧ pool.Extends pool' ∧
      ∀ (j : Nat) d, methods[j]? = some d → ∃ body entry p p', bodies[j]? = some body ∧
        entries[j]? = some entry ∧ pool.Extends p ∧ p'.Extends pool' ∧
        splitMethod p className superName d = .ok (body, entry, p') := by
  induction methods generalizing pool bodies entries with
  | nil =>
    cases h
    exact ⟨rfl, rfl, .refl _, fun j d hd => nomatch hd⟩
  | cons d methods ih =>
    rw [splitMethods] at h
    obtain ⟨⟨body, entry, p⟩, hsplit, h⟩ := Results.bind_eq_ok h
    obtain ⟨⟨bodies', entries', p'⟩, hrest, h⟩ := Results.bind_eq_ok h
    cases h
    obtain ⟨hbodies, hentries, hgrows, hget⟩ := ih hrest
    have hfirst := (halves_of_splitMethod hsplit).grows
    refine ⟨congrArg (· + 1) hbodies, congrArg (· + 1) hentries, hfirst.trans hgrows, ?_⟩
    rintro (_ | j) d' hd'
    · cases hd'
      exact ⟨body, entry, _, _, rfl, rfl, .refl _, hgrows, hsplit⟩
    · obtain ⟨body', entry', q, q', hb, he, hq, hq', hs⟩ := hget j d' hd'
      exact ⟨body', entry', q, q', hb, he, hfirst.trans hq, hq', hs⟩

/-- A constructor is added if and only if there is none like it. -/
theorem addedConstructor_eq_ok {file : ClassFile} {added : List MethodDef}
    (h : addedConstructor file pool = .ok (added, pool')) : pool.Extends pool' ∧
      added.length = (!hasDefaultConstructor file).toNat ∧
      ∀ d ∈ added, d.name = constructorName ∧ d.descriptor = "()V" := by
  unfold addedConstructor at h
  split at h
  · rename_i hdefault
    cases h
    rw [hdefault]
    exact ⟨.refl _, rfl, nofun⟩
  rename_i hdefault
  rw [Bool.not_eq_true] at hdefault
  obtain ⟨⟨d, p⟩, hd, h⟩ := Results.bind_eq_ok h
  obtain ⟨⟨code, p'⟩, hcode, hd⟩ := Results.bind_eq_ok hd
  cases hd
  cases h
  rw [hdefault]
  refine ⟨Item.extends_of_assemble (assemble_eq_ok hcode), rfl, fun d hd => ?_⟩
  rw [List.mem_singleton.1 hd]
  exact ⟨rfl, rfl⟩

/-- What a class that has no constructor without parameters does not declare. -/
theorem descriptor_ne_of_hasDefaultConstructor {file : ClassFile}
    (h : hasDefaultConstructor file = false) {d : MethodDef} (hd : d ∈ file.methods)
    (hname : d.name = constructorName) : d.descriptor ≠ "()V" := by
  intro hdescriptor
  have htest := List.any_eq_false.1 h d hd
  rw [hname, hdescriptor] at htest
  exact htest rfl

end Instrument

/-! ### The class file -/

/-- The parts of an instrumented class file. -/
structure ClassFile.Instrumented (file file' : ClassFile) (bodies entries added : List MethodDef)
    (pool : Pool) : Prop where
  split : Instrument.splitMethods file.name file.superName file.constants file.methods =
    .ok (bodies, entries, pool)
  grows : pool.Extends file'.constants
  adds : added.length = (!Instrument.hasDefaultConstructor file).toNat ∧
    ∀ d ∈ added, d.name = constructorName ∧ d.descriptor = "()V"
  eq : file' = { file with
    constants := file'.constants
    fields := Instrument.withMarker file
    methods := bodies ++ entries ++ added }

theorem ClassFile.exists_instrumented_of_transform {file file' : ClassFile}
    (h : file.transform = .ok file') :
    ∃ bodies entries added pool, file.Instrumented file' bodies entries added pool := by
  unfold ClassFile.transform at h
  obtain ⟨⟨bodies, entries, pool⟩, hsplit, h⟩ := Results.bind_eq_ok h
  obtain ⟨⟨added, pool'⟩, hadded, h⟩ := Results.bind_eq_ok h
  cases h
  obtain ⟨hgrows, hadded⟩ := Instrument.addedConstructor_eq_ok hadded
  exact ⟨bodies, entries, added, pool, hsplit, hgrows, hadded, rfl⟩

namespace ClassFile

variable {file file' : ClassFile} {bodies entries added : List MethodDef} {pool : Pool}

theorem Instrumented.name (h : file.Instrumented file' bodies entries added pool) :
    file'.name = file.name := by rw [h.eq]

theorem Instrumented.superName (h : file.Instrumented file' bodies entries added pool) :
    file'.superName = file.superName := by rw [h.eq]

theorem Instrumented.fields (h : file.Instrumented file' bodies entries added pool) :
    file'.fields = Instrument.withMarker file := by rw [h.eq]

theorem Instrumented.methods (h : file.Instrumented file' bodies entries added pool) :
    file'.methods = bodies ++ entries ++ added := by rw [h.eq]

/-- The halves of a method in the instrumented class file. -/
theorem Instrumented.exists_halves (h : file.Instrumented file' bodies entries added pool) {j : Nat}
    {d : MethodDef} (hd : file.methods[j]? = some d) :
    ∃ body entry p p', file'.methods[j]? = some body ∧
      file'.methods[file.methods.length + j]? = some entry ∧ file.constants.Extends p ∧
      p'.Extends file'.constants ∧
      Instrument.splitMethod p file.name file.superName d = .ok (body, entry, p') := by
  obtain ⟨hbodies, hentries, -, hget⟩ := Instrument.splitMethods_eq_ok h.split
  obtain ⟨body, entry, p, p', hbody, hentry, hp, hp', hsplit⟩ := hget j d hd
  have hj : j < file.methods.length := (List.getElem?_eq_some_iff.1 hd).1
  refine ⟨body, entry, p, p', ?_, ?_, hp, hp'.trans h.grows, hsplit⟩
  · rw [h.methods, List.append_assoc, List.getElem?_append_left (hbodies ▸ hj), hbody]
  · rw [h.methods, List.append_assoc, List.getElem?_append_right (by omega), hbodies,
      Nat.add_sub_cancel_left, List.getElem?_append_left (hentries ▸ hj), hentry]

/-- What stands at a place of an instrumented class file: the declared body of a method, what took
over its name, or the constructor that was added. -/
inductive Part (file : ClassFile) (i : Nat) (e : MethodDef) : Prop
  | body {d : MethodDef} (declared : file.methods[i]? = some d)
      (name : e.name = Instrument.bodyName file.name d.name) (descriptor : e.descriptor = d.descriptor)
  | entry {j : Nat} {d : MethodDef} (place : i = file.methods.length + j)
      (declared : file.methods[j]? = some d) (name : e.name = d.name)
      (descriptor : d.name ≠ staticInitializerName → e.descriptor = d.descriptor)
      (initializer : d.name = staticInitializerName → e.descriptor = "()V")
  | added (place : i = 2 * file.methods.length) (name : e.name = constructorName)
      (descriptor : e.descriptor = "()V") (lacks : Instrument.hasDefaultConstructor file = false)

theorem Instrumented.part (h : file.Instrumented file' bodies entries added pool) {i : Nat}
    {e : MethodDef} (he : file'.methods[i]? = some e) : file.Part i e := by
  obtain ⟨hbodies, hentries, -, -⟩ := Instrument.splitMethods_eq_ok h.split
  by_cases hbody : i < file.methods.length
  · obtain ⟨body, entry, p, p', hget, -, -, -, hsplit⟩ :=
      h.exists_halves (List.getElem?_eq_getElem hbody)
    obtain rfl : body = e := Option.some.inj (hget.symm.trans he)
    have hhalves := Instrument.halves_of_splitMethod hsplit
    exact .body (List.getElem?_eq_getElem hbody) hhalves.bodyName hhalves.bodyDescriptor
  by_cases hentry : i - file.methods.length < file.methods.length
  · obtain ⟨body, entry, p, p', -, hget, -, -, hsplit⟩ :=
      h.exists_halves (List.getElem?_eq_getElem hentry)
    have hplace : i = file.methods.length + (i - file.methods.length) := by omega
    rw [← hplace] at hget
    obtain rfl : entry = e := Option.some.inj (hget.symm.trans he)
    have hhalves := Instrument.halves_of_splitMethod hsplit
    exact .entry hplace (List.getElem?_eq_getElem hentry) hhalves.entryName hhalves.entryDescriptor
      hhalves.initializerDescriptor
  · obtain ⟨hlength, hadded⟩ := h.adds
    have hi : i < file'.methods.length := (List.getElem?_eq_some_iff.1 he).1
    rw [h.methods, List.length_append, List.length_append, hbodies, hentries, hlength] at hi
    rw [h.methods, List.getElem?_append_right (by rw [List.length_append]; omega)] at he
    obtain ⟨hname, hdescriptor⟩ := hadded e (List.mem_of_getElem? he)
    cases hlacks : Instrument.hasDefaultConstructor file with
    | true =>
      rw [hlacks] at hi
      exact absurd hi (by show ¬i < _ + 0; omega)
    | false =>
      rw [hlacks] at hi
      refine .added ?_ hname hdescriptor hlacks
      have hi' : i < file.methods.length + file.methods.length + 1 := hi
      omega

/-- Under the name of a declared body stands the declared body of a method of one name and descriptor
with it. -/
theorem Instrumented.exists_of_bodyName (h : file.Instrumented file' bodies entries added pool)
    (hnames : ∀ d ∈ file.methods, ¬IsBodyName d.name) {i : Nat} {d e : MethodDef}
    (he : file'.methods[i]? = some e) (hname : e.name = Instrument.bodyName file.name d.name)
    (hdescriptor : e.descriptor = d.descriptor) :
    ∃ d', file.methods[i]? = some d' ∧ d'.name = d.name ∧ d'.descriptor = d.descriptor := by
  have hbody : IsBodyName e.name := hname ▸ Instrument.isBodyName_bodyName _ _
  cases h.part he with
  | body hd' hname' hdescriptor' =>
    exact ⟨_, hd', Instrument.bodyName_inj (hname'.symm.trans hname),
      hdescriptor'.symm.trans hdescriptor⟩
  | entry _ hd' hname' =>
    rw [hname'] at hbody
    exact absurd hbody (hnames _ (List.mem_of_getElem? hd'))
  | added _ hname' =>
    rw [hname'] at hbody
    exact absurd hbody (by decide)

/-- Under the name of a declared body stands nothing else. -/
theorem Instrumented.eq_of_bodyName (h : file.Instrumented file' bodies entries added pool)
    (hnames : ∀ d ∈ file.methods, ¬IsBodyName d.name) (hdistinct : file.Distinct) {i j : Nat}
    {d e : MethodDef} (hd : file.methods[j]? = some d) (he : file'.methods[i]? = some e)
    (hname : e.name = Instrument.bodyName file.name d.name) (hdescriptor : e.descriptor = d.descriptor) :
    i = j := by
  obtain ⟨d', hd', hname', hdescriptor'⟩ := h.exists_of_bodyName hnames he hname hdescriptor
  exact hdistinct.eq_of_getElem? hd' hd hname' hdescriptor'

/-- Under the name of a method stands what took over a method of one name and descriptor with it. -/
theorem Instrumented.exists_of_entryName (h : file.Instrumented file' bodies entries added pool)
    (hnames : ∀ d ∈ file.methods, ¬IsBodyName d.name) {i : Nat} {d e : MethodDef}
    (hd : d ∈ file.methods) (hclinit : d.name ≠ staticInitializerName)
    (he : file'.methods[i]? = some e) (hname : e.name = d.name)
    (hdescriptor : e.descriptor = d.descriptor) :
    ∃ j d', i = file.methods.length + j ∧ file.methods[j]? = some d' ∧ d'.name = d.name ∧
      d'.descriptor = d.descriptor := by
  cases h.part he with
  | body _ hname' =>
    refine absurd ?_ (hnames d hd)
    rw [← hname, hname']
    exact Instrument.isBodyName_bodyName _ _
  | @entry j' d' hplace hd' hname' hdescriptor' =>
    have hsame : d'.name = d.name := hname'.symm.trans hname
    exact ⟨j', d', hplace, hd', hsame, (hdescriptor' (hsame ▸ hclinit)).symm.trans hdescriptor⟩
  | added _ hname' hdescriptor' hlacks =>
    exact absurd (hdescriptor.symm.trans hdescriptor')
      (Instrument.descriptor_ne_of_hasDefaultConstructor hlacks hd (hname.symm.trans hname'))

/-- Under the name of a method stands nothing but what took it over. -/
theorem Instrumented.eq_of_entryName (h : file.Instrumented file' bodies entries added pool)
    (hnames : ∀ d ∈ file.methods, ¬IsBodyName d.name) (hdistinct : file.Distinct) {i j : Nat}
    {d e : MethodDef} (hd : file.methods[j]? = some d) (hclinit : d.name ≠ staticInitializerName)
    (he : file'.methods[i]? = some e) (hname : e.name = d.name)
    (hdescriptor : e.descriptor = d.descriptor) : i = file.methods.length + j := by
  obtain ⟨j', d', rfl, hd', hname', hdescriptor'⟩ :=
    h.exists_of_entryName hnames (List.mem_of_getElem? hd) hclinit he hname hdescriptor
  rw [hdistinct.eq_of_getElem? hd' hd hname' hdescriptor']

/-- A class that leaves the generated names alone is given the marker field. -/
theorem Unclaimed.withMarker_eq (h : file.Unclaimed) : Instrument.withMarker file =
    file.fields ++ [⟨markerFieldName, markerFieldDescriptor, Modifier.visible.bit⟩] := by
  unfold Instrument.withMarker
  rw [if_neg]
  rw [Bool.not_eq_true, Option.isSome_eq_false_iff, Option.isNone_iff_eq_none, field?,
    List.find?_eq_none]
  intro f hf heq
  exact h.fields f hf (.inr (.inr (.inr (beq_iff_eq.1 heq))))

end ClassFile

namespace Layout

variable {layout layout' : Layout} {owner : String}

theorem addAll_append {fields rest : List FieldDef}
    (h : addAll owner layout (fields ++ rest) = .ok layout') :
    ∃ between, addAll owner layout fields = .ok between ∧
      addAll owner between rest = .ok layout' := by
  induction fields generalizing layout with
  | nil => exact ⟨layout, rfl, h⟩
  | cons f fields ih =>
    obtain ⟨t, ht, h⟩ := addAll_cons h
    obtain ⟨between, hfields, hrest⟩ := ih h
    refine ⟨between, ?_, hrest⟩
    rw [addAll, ht]
    exact hfields

/-- The slot of a field that is laid out last. -/
theorem lookup_addAll_concat {fields : List FieldDef} {f : FieldDef} (hf : f.isStatic = false)
    (h : addAll owner layout (fields ++ [f]) = .ok layout') :
    ∃ slot, layout'.fieldSlots.lookup f.name = some slot ∧ slot < layout'.fieldDefaults.size := by
  obtain ⟨between, -, h⟩ := addAll_append h
  obtain ⟨t, -, h⟩ := addAll_cons h
  cases h
  unfold Layout.add
  rw [hf]
  refine ⟨between.fieldDefaults.size, ?_, ?_⟩
  · exact List.lookup_cons_self
  · show between.fieldDefaults.size < (between.fieldDefaults.push _).size
    rw [Array.size_push]
    exact Nat.lt_succ_self _

end Layout

/-! ### The loaded class -/

/-- A class of a machine was defined from the instrumented form of a class file, with a handler to
decide about calls of its methods. -/
structure Machine.Intercepts (m : Machine) (c : ClassRef) (file file' : ClassFile)
    (h : HandlerRef) : Prop where
  transform : file.transform = .ok file'
  /-- Indices into the pool have thirty-two bits. -/
  fits : file'.constants.Fits
  define : ∃ definer superclass? k, definer.instrumented = true ∧ definer.handler? = some h ∧
    LoadedClass.define definer superclass? file' = .ok k ∧ (m.cls c).fixed = k.fixed

/-- What a class declares itself is the nearest there is. -/
theorem ClassTable.resolveMethod?_of_declaredMethod? {t : ClassTable} {c : ClassRef}
    {name descriptor : String} {i : Nat} (h : (t.get c).declaredMethod? name descriptor = some i) :
    t.resolveMethod? c name descriptor = some (c, i) := by
  unfold resolveMethod? lineage
  rw [List.findSome?_cons, h]
  rfl

namespace Machine.Intercepts

variable {m m' : Machine} {c : ClassRef} {file file' : ClassFile} {h : HandlerRef}

theorem has (hc : m.Intercepts c file file' h) : m.classes.Has c := by
  obtain ⟨definer, superclass?, k, hinstrumented, -, hk, hfix⟩ := hc.define
  refine ClassTable.has_of_get_ne fun heq => ?_
  obtain ⟨methods, layout, -, -, rfl⟩ := LoadedClass.define_eq_ok hk
  have hdefault : (m.cls c).fixed.instrumented = false := by
    rw [show m.cls c = default from heq]
    rfl
  rw [hfix, show (LoadedClass.fixed _).instrumented = definer.instrumented from rfl,
    hinstrumented] at hdefault
  exact nomatch hdefault

theorem of_extends (hc : m.Intercepts c file file' h) (hm : m.Extends m') :
    m'.Intercepts c file file' h := by
  have hhas := hc.has
  obtain ⟨htransform, hfits, definer, superclass?, k, hinstrumented, hhandler, hk, hfix⟩ := hc
  refine ⟨htransform, hfits, definer, superclass?, k, hinstrumented, hhandler, hk, ?_⟩
  exact (hm.fixed_eq c hhas).trans hfix

theorem name (hc : m.Intercepts c file file' h) : (m.cls c).name = file.name := by
  obtain ⟨definer, superclass?, k, -, -, hk, hfix⟩ := hc.define
  obtain ⟨bodies, entries, added, pool, hfile⟩ :=
    ClassFile.exists_instrumented_of_transform hc.transform
  obtain ⟨methods, layout, -, -, rfl⟩ := LoadedClass.define_eq_ok hk
  exact (LoadedClass.name_eq_of_fixed hfix).trans hfile.name

theorem constants (hc : m.Intercepts c file file' h) : (m.cls c).constants = file'.constants := by
  obtain ⟨definer, superclass?, k, -, -, hk, hfix⟩ := hc.define
  obtain ⟨methods, layout, -, -, rfl⟩ := LoadedClass.define_eq_ok hk
  exact LoadedClass.constants_eq_of_fixed hfix

theorem handler (hc : m.Intercepts c file file' h) : (m.cls c).handler? = some h := by
  obtain ⟨definer, superclass?, k, hinstrumented, hhandler, hk, hfix⟩ := hc.define
  obtain ⟨methods, layout, -, -, rfl⟩ := LoadedClass.define_eq_ok hk
  refine (LoadedClass.handler_eq_of_fixed hfix).trans ?_
  rw [← hhandler]
  exact if_pos hinstrumented

theorem instrumented (hc : m.Intercepts c file file' h) : (m.cls c).instrumented = true := by
  obtain ⟨definer, superclass?, k, hinstrumented, -, hk, hfix⟩ := hc.define
  obtain ⟨methods, layout, -, -, rfl⟩ := LoadedClass.define_eq_ok hk
  exact (LoadedClass.instrumented_eq_of_fixed hfix).trans hinstrumented

/-- Every method of the instrumented class file has been prepared, in its place. -/
theorem exists_method (hc : m.Intercepts c file file' h) {i : Nat} {d : MethodDef}
    (hd : file'.methods[i]? = some d) :
    ∃ k, (m.cls c).methods[i]? = some k ∧ LoadedMethod.define file.name d = .ok k := by
  obtain ⟨definer, superclass?, k, -, -, hk, hfix⟩ := hc.define
  obtain ⟨bodies, entries, added, pool, hfile⟩ :=
    ClassFile.exists_instrumented_of_transform hc.transform
  obtain ⟨methods, layout, hmethods, -, rfl⟩ := LoadedClass.define_eq_ok hk
  obtain ⟨-, hget⟩ := Results.mapM_eq_ok hmethods
  rw [LoadedClass.methods_eq_of_fixed hfix, ← hfile.name]
  exact hget i d hd

theorem length_methods (hc : m.Intercepts c file file' h) :
    (m.cls c).methods.length = file'.methods.length := by
  obtain ⟨definer, superclass?, k, -, -, hk, hfix⟩ := hc.define
  obtain ⟨methods, layout, hmethods, -, rfl⟩ := LoadedClass.define_eq_ok hk
  rw [LoadedClass.methods_eq_of_fixed hfix]
  exact (Results.mapM_eq_ok hmethods).1

/-- A method is found by its name and descriptor if these belong to no later place. -/
theorem declaredMethod?_eq_some (hc : m.Intercepts c file file' h) {i : Nat} {d : MethodDef}
    (hd : file'.methods[i]? = some d)
    (hu : ∀ (q : Nat) e, file'.methods[q]? = some e → e.name = d.name →
      e.descriptor = d.descriptor → q ≤ i) :
    (m.cls c).declaredMethod? d.name d.descriptor = some i := by
  obtain ⟨k, hk, hdefine⟩ := hc.exists_method hd
  obtain ⟨signature, code, -, -, rfl⟩ := LoadedMethod.define_eq_ok hdefine
  refine lastIndex?_eq_some hk ?_ fun q k' hk' htest => ?_
  · rw [Bool.and_eq_true, beq_iff_eq, beq_iff_eq]
    exact ⟨rfl, rfl⟩
  · rw [Bool.and_eq_true, beq_iff_eq, beq_iff_eq] at htest
    have hq : q < file'.methods.length := hc.length_methods ▸ (List.getElem?_eq_some_iff.1 hk').1
    obtain ⟨k'', hk'', hdefine'⟩ := hc.exists_method (List.getElem?_eq_getElem hq)
    obtain rfl : k'' = k' := Option.some.inj (hk''.symm.trans hk')
    obtain ⟨signature', code', -, -, rfl⟩ := LoadedMethod.define_eq_ok hdefine'
    exact hu q _ (List.getElem?_eq_getElem hq) htest.1 htest.2

/-- A declared body is found under the name that it was given, if its method is not declared again. -/
theorem declaredMethod?_bodyOf (hc : m.Intercepts c file file' h) (hunclaimed : file.Unclaimed)
    {j : Nat} {d : MethodDef} (hd : file.Declares j d) :
    (m.cls c).declaredMethod? (Instrument.bodyName file.name d.name) d.descriptor = some j := by
  obtain ⟨bodies, entries, added, pool, hfile⟩ :=
    ClassFile.exists_instrumented_of_transform hc.transform
  obtain ⟨body, entry, p, p', hbody, -, -, -, hsplit⟩ := hfile.exists_halves hd.declared
  have hhalves := Instrument.halves_of_splitMethod hsplit
  rw [← hhalves.bodyName, ← hhalves.bodyDescriptor]
  refine hc.declaredMethod?_eq_some hbody fun q e he hname hdescriptor => ?_
  obtain ⟨d', hd', hname', hdescriptor'⟩ := hfile.exists_of_bodyName hunclaimed.names he
    (hname.trans hhalves.bodyName) (hdescriptor.trans hhalves.bodyDescriptor)
  exact hd.latest q d' hd' hname' hdescriptor'

/-- A stub is found under the name of the method that it stands in for, if that is not declared
again. -/
theorem declaredMethod?_entryOf (hc : m.Intercepts c file file' h) (hunclaimed : file.Unclaimed)
    {j : Nat} {d : MethodDef} (hd : file.Declares j d) (hclinit : d.name ≠ staticInitializerName) :
    (m.cls c).declaredMethod? d.name d.descriptor = some (file.methods.length + j) := by
  obtain ⟨bodies, entries, added, pool, hfile⟩ :=
    ClassFile.exists_instrumented_of_transform hc.transform
  obtain ⟨body, entry, p, p', -, hentry, -, -, hsplit⟩ := hfile.exists_halves hd.declared
  have hhalves := Instrument.halves_of_splitMethod hsplit
  rw [← hhalves.entryName, ← hhalves.entryDescriptor hclinit]
  refine hc.declaredMethod?_eq_some hentry fun q e he hname hdescriptor => ?_
  obtain ⟨j', d', rfl, hd', hname', hdescriptor'⟩ := hfile.exists_of_entryName hunclaimed.names
    (List.mem_of_getElem? hd.declared) hclinit he (hname.trans hhalves.entryName)
    (hdescriptor.trans (hhalves.entryDescriptor hclinit))
  exact Nat.add_le_add_left (hd.latest j' d' hd' hname' hdescriptor') _

theorem resolveMethod?_bodyOf (hc : m.Intercepts c file file' h) (hunclaimed : file.Unclaimed)
    {j : Nat} {d : MethodDef} (hd : file.Declares j d) :
    m.classes.resolveMethod? c (Instrument.bodyName file.name d.name) d.descriptor =
      some (c, j) :=
  ClassTable.resolveMethod?_of_declaredMethod? (hc.declaredMethod?_bodyOf hunclaimed hd)

/-- **Declared bodies** are found under the names that they were given. -/
theorem declaredMethod?_body (hc : m.Intercepts c file file' h) (hunclaimed : file.Unclaimed)
    (hdistinct : file.Distinct) {j : Nat} {d : MethodDef} (hd : file.methods[j]? = some d) :
    (m.cls c).declaredMethod? (Instrument.bodyName file.name d.name) d.descriptor = some j :=
  hc.declaredMethod?_bodyOf hunclaimed (hdistinct.declares hd)

/-- **Stubs** are found under the names of the methods that they stand in for. -/
theorem declaredMethod?_entry (hc : m.Intercepts c file file' h) (hunclaimed : file.Unclaimed)
    (hdistinct : file.Distinct) {j : Nat} {d : MethodDef} (hd : file.methods[j]? = some d)
    (hclinit : d.name ≠ staticInitializerName) :
    (m.cls c).declaredMethod? d.name d.descriptor = some (file.methods.length + j) :=
  hc.declaredMethod?_entryOf hunclaimed (hdistinct.declares hd) hclinit

theorem resolveMethod?_body (hc : m.Intercepts c file file' h) (hunclaimed : file.Unclaimed)
    (hdistinct : file.Distinct) {j : Nat} {d : MethodDef} (hd : file.methods[j]? = some d) :
    m.classes.resolveMethod? c (Instrument.bodyName file.name d.name) d.descriptor =
      some (c, j) :=
  hc.resolveMethod?_bodyOf hunclaimed (hdistinct.declares hd)

/-- The slot of the marker. -/
theorem exists_marker (hc : m.Intercepts c file file' h) (hunclaimed : file.Unclaimed) :
    ∃ slot, (m.cls c).declaredField? markerFieldName = some slot ∧ slot < (m.cls c).slotCount := by
  obtain ⟨definer, superclass?, k, -, -, hk, hfix⟩ := hc.define
  obtain ⟨bodies, entries, added, pool, hfile⟩ :=
    ClassFile.exists_instrumented_of_transform hc.transform
  obtain ⟨methods, layout, -, hlayout, rfl⟩ := LoadedClass.define_eq_ok hk
  rw [hfile.fields, hunclaimed.withMarker_eq] at hlayout
  obtain ⟨slot, hslot, hlt⟩ := Layout.lookup_addAll_concat (by decide) hlayout
  refine ⟨slot, ?_, ?_⟩
  · rw [LoadedClass.declaredField?, LoadedClass.fieldSlots_eq_of_fixed hfix]
    exact hslot
  · rw [LoadedClass.slotCount_eq_of_fixed hfix]
    exact hlt

end Machine.Intercepts

end Interpose
