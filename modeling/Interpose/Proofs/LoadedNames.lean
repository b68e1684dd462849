import Interpose.Proofs.LoadHistories
/-!
# Names of loaded classes

Whoever asks a loader for a class takes it that the answer is the class of that name. What is read
is compared with the name that it was read under, and what a parent answers with was read by the
parent. What comes from a cache is compared with nothing. So the answer has the name that was asked
for exactly if no class of another name lay ready in the cache under it, and once an answer is of
another name, it stays the answer.

## Main results

* `Realm.Unused.name_of_loaded_iff`: when the answer has the name that was asked for
* `Realm.not_all_loaded_under_their_names`: a class that is cached under the name of another
-/

namespace Interpose

namespace Realm

variable {r r₀ : Realm} {l : LoaderRef} {name : String} {work : Instrumentation} {c : ClassRef}

theorem definedName_eq_iff : r.definedName l name = name ↔
    ∀ served, r.served? l name = some served → served.name = name := by
  rw [definedName]
  cases r.served? l name with
  | none => simp
  | some served => simp

/-- **Names.** Let a realm have come about by any calls, and let an instrumenting loader answer with a
class. If the loader defines it now, it has the name that was asked for exactly if what the loader
takes from its cache, if it takes anything, has that name. A class of another name is always one that
the loader has instrumented itself. Whatever its name is, the class is the answer ever after, and
keeps it. -/
theorem Unused.name_of_loaded_iff (h : r₀.Unused) {calls : List LoadingCall}
    (hr : r = r₀.afterAll calls) (hkind : (r.loader l).kind = .instrumenting work)
    (hc : (Load.load l name r).1 = .ok c) :
    (r.loaded? l name = none →
      (((Load.load l name r).2.classes.get c).name = name ↔
        ∀ served, r.served? l name = some served → served.name = name)) ∧
    (((Load.load l name r).2.classes.get c).name = name ∨
      ((Load.load l name r).2.classes.get c).instrumented = true ∧
        ((Load.load l name r).2.classes.get c).loader = l) ∧
    ∀ later, (Load.load l name ((Load.load l name r).2.afterAll later)).1 = .ok c ∧
      (((Load.load l name r).2.afterAll later).classes.get c).name =
        ((Load.load l name r).2.classes.get c).name := by
  obtain ⟨-, horderly⟩ := hr ▸ h.orderly.afterAll calls
  have hload := Load.load_orderly horderly l name
  obtain ⟨hfits, hloaded⟩ := hload.result c hc
  have hkind' := (hload.keeps.kind l).trans hkind
  refine ⟨fun hnew => ?_, hfits.named work hkind', fun later => ?_⟩
  · rw [Load.name_of_load horderly hnew hc, definedName_eq_iff]
  · obtain ⟨hkeeps, horderly'⟩ := hload.orderly.afterAll later
    have hstill := hkeeps.loaded l name c (hloaded (.of_kind hkind'))
    refine ⟨congrArg Prod.fst (Load.load_of_loaded? hstill), ?_⟩
    exact LoadedClass.name_eq_of_fixed (hkeeps.classes.fixed_eq c hfits.has)

/-! ### A class under the name of another -/

/-- A realm in which one class can be read, and another one is cached under its name. -/
def swappedRealm : Realm where
  loaders := #[{ kind := .bootstrap }, sharingLoader]
  resources := { classes := [("t.Mine", ClassFile.encode { name := "t.Mine" })] }
  storage := {
    stores := #[⟨[(("t.Mine", cacheVersion), ClassFile.encode { name := "t.Yours" })]⟩] }

theorem swappedRealm_unused : swappedRealm.Unused where
  idle l := by
    rcases l with ⟨_ | _ | index⟩ <;> rfl
  parents l work hl := by
    rcases l with ⟨_ | _ | index⟩
    · cases hl
    · cases hl
      exact ⟨by decide, rfl⟩
    · cases hl
  classes := rfl
  forgets l := by
    rcases l with ⟨_ | _ | index⟩ <;> rfl

theorem load_swappedRealm :
    (Load.load ⟨1⟩ "t.Mine" swappedRealm).1 = .ok ⟨0⟩ ∧
      ((Load.load ⟨1⟩ "t.Mine" swappedRealm).2.classes.get ⟨0⟩).name = "t.Yours" := by
  decide +kernel

/-- The class that was cached is the answer, and stays it. -/
theorem swappedRealm_misnamed :
    swappedRealm.Unused ∧ (swappedRealm.loader ⟨1⟩).kind = sharingLoader.kind ∧
      (Load.load ⟨1⟩ "t.Mine" swappedRealm).1 = .ok ⟨0⟩ ∧
      ∀ later, let r := (Load.load ⟨1⟩ "t.Mine" swappedRealm).2.afterAll later
        (Load.load ⟨1⟩ "t.Mine" r).1 = .ok ⟨0⟩ ∧ (r.classes.get ⟨0⟩).name = "t.Yours" := by
  obtain ⟨hload, hname⟩ := load_swappedRealm
  have hstart : swappedRealm = swappedRealm.afterAll [] := rfl
  have hkind : (swappedRealm.loader ⟨1⟩).kind = sharingLoader.kind := rfl
  obtain ⟨-, -, hlater⟩ := swappedRealm_unused.name_of_loaded_iff hstart hkind hload
  refine ⟨swappedRealm_unused, hkind, hload, fun later => ⟨(hlater later).1, ?_⟩⟩
  exact (hlater later).2.trans hname

/-- **Misnamed classes.** Not every class that an instrumenting loader answers with has the name that
it was asked for. -/
theorem not_all_loaded_under_their_names :
    ¬ ∀ (r : Realm) (l : LoaderRef) (work : Instrumentation) (name : String) (c : ClassRef),
      r.Unused → (r.loader l).kind = .instrumenting work → (Load.load l name r).1 = .ok c →
        ((Load.load l name r).2.classes.get c).name = name := by
  intro hall
  obtain ⟨hload, hname⟩ := load_swappedRealm
  have hmine := hall swappedRealm ⟨1⟩ _ "t.Mine" ⟨0⟩ swappedRealm_unused rfl hload
  rw [hname] at hmine
  exact absurd hmine (by decide)

end Realm

end Interpose
