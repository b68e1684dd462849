import Interpose.Proofs.FileTrees
/-!
# Directories stay

A walk asks for directories on its way and for nothing else. So what a path leads to can change
only at the end of the path, as long as no directory goes away, and making a directory that is there
already changes nothing. This is what lets a chain of file operations be read as one change at one
location.

## Main definitions

* `FileTree.Keeps`, `FileTree.Grows`: a tree has the directories, or everything, of another
* `FileTree.HasDirectory`: a path leads to a directory

## Main results

* `FileTree.resolve_of_keeps`: a path that can be followed can still be followed
* `FileTree.createDirectory_of_hasDirectory`: directories are made once
* `FileTree.createDirectory_join`: a directory in a directory is one more entry
* `FileTree.entry?_of_rename`: moving a file changes two locations
-/

namespace Interpose

/-- A path that ends in a name can denote a file. -/
theorem Path.namesDirectory_join {base x : Path} (hx : x.IsName) :
    (base.join x).namesDirectory = false := by
  obtain ⟨init, c, rfl⟩ := (List.eq_nil_or_concat x).resolve_left hx.ne_nil
  rw [List.concat_eq_append] at hx ⊢
  have hc : c ≠ '/' := by
    rintro rfl
    exact hx.no_slash (by simp)
  rw [join]
  split
  · simpa [namesDirectory] using hc
  split
  · simpa [namesDirectory, List.getLast?_cons] using hc
  · simpa [namesDirectory] using hc

namespace FileTree

variable {t t' t'' : FileTree} {p : Path} {place q : Location} {names : List String}
  {e : Option Entry} {content : Bytes}

/-- Directories are still directories. -/
def Keeps (t t' : FileTree) : Prop :=
  ∀ place, t.entry? place = some .directory → t'.entry? place = some .directory

/-- Whatever is there is still there. -/
def Grows (t t' : FileTree) : Prop :=
  ∀ place e, t.entry? place = some e → t'.entry? place = some e

theorem Grows.refl (t : FileTree) : t.Grows t := fun _ _ h => h

theorem Grows.trans (h : t.Grows t') (h' : t'.Grows t'') : t.Grows t'' :=
  fun place e he => h' place e (h place e he)

theorem Grows.keeps (h : t.Grows t') : t.Keeps t' := fun place => h place .directory

theorem Keeps.trans (h : t.Keeps t') (h' : t'.Keeps t'') : t.Keeps t'' :=
  fun place hd => h' place (h place hd)

theorem grows_put {e : Entry} (h : t.entry? place = none) : t.Grows (t.put place e) := by
  intro q e' he
  rw [entry?_put, if_neg, he]
  rintro ⟨-, rfl⟩
  cases h.symm.trans he

theorem keeps_put_file (h : t.entry? place ≠ some .directory) :
    t.Keeps (t.put place (.file content)) := by
  intro q hd
  rw [entry?_put, if_neg, hd]
  rintro ⟨-, rfl⟩
  exact h hd

/-- Taking something away takes it away and nothing else. -/
theorem entry?_erase (place q : Location) :
    FileTree.entry? (t.erase place) q = if q ≠ [] ∧ q = place then none else t.entry? q := by
  by_cases hnil : q = []
  · simp [hnil, entry?]
  by_cases hq : q = place
  · subst hq
    simp [erase, entry?, hnil, lookup_filter_self]
  · simp [erase, entry?, hnil, hq, MemoryStore.lookup_filter_ne hq]

/-- Taking a file away leaves the directories. -/
theorem keeps_erase_file (h : t.entry? place = some (.file content)) : t.Keeps (t.erase place) := by
  intro q hd
  rw [entry?_erase, if_neg, hd]
  rintro ⟨-, rfl⟩
  cases h.symm.trans hd

/-! ### Walks -/

theorem walk_of_keeps (hk : t.Keeps t') (h : t.walk place names = .ok (q, e)) :
    t'.walk place names = .ok (q, t'.entry? q) := by
  induction names generalizing place with
  | nil =>
    cases h
    rfl
  | cons name rest ih =>
    rw [walk] at h ⊢
    split at h
    · cases h
    · cases h
    · next hd =>
      rw [hk _ hd]
      dsimp only
      split at h
      · cases h
      · next hlength =>
        rw [if_neg hlength]
        exact ih h

/-- **Paths stay open.** A path without a slash at its end that can be followed can be followed as
long as no directory goes away, and leads to what is at its location by then. -/
theorem resolve_of_keeps (hk : t.Keeps t') (hp : p.namesDirectory = false)
    (h : t.resolve p = .ok (q, e)) : t'.resolve p = .ok (q, t'.entry? q) := by
  have hwalk : t.walk [] p.names = .ok (q, e) := by
    rw [resolve] at h
    split at h
    · cases h
    split at h
    · cases h
    split at h
    · next hw =>
      rw [hp] at h
      rw [hw, ← h]
      rfl
    · exact h
  have hwalk' := walk_of_keeps hk hwalk
  rw [resolve] at h ⊢
  split at h
  · cases h
  next hnul =>
  split at h
  · cases h
  next hlength =>
  rw [if_neg hnul, if_neg hlength, hwalk']
  split
  · next hfile =>
    rw [hp, hfile]
    rfl
  · rfl

/-- A path leads to a directory. -/
def HasDirectory (t : FileTree) (p : Path) : Prop :=
  t.walk [] p.names = .ok (p.location, some .directory)

theorem HasDirectory.entry? (h : t.HasDirectory p) : t.entry? p.location = some .directory :=
  (walk_eq_ok h).2.symm

theorem HasDirectory.keeps (h : t.HasDirectory p) (hk : t.Keeps t') : t'.HasDirectory p := by
  rw [HasDirectory, walk_of_keeps hk h, hk _ h.entry?]

/-! ### Making directories -/

theorem makeDirectories_eq_ok (h : t.makeDirectories place names = .ok t') :
    t.Grows t' ∧ t'.walk place names = .ok (names.foldl step place, some .directory) := by
  induction names generalizing t place with
  | nil =>
    rw [makeDirectories] at h
    split at h
    · next hd =>
      cases h
      refine ⟨.refl _, ?_⟩
      rw [walk, hd]
      rfl
    · cases h
    · next hnone =>
      cases h
      have hne : place ≠ [] := by
        rintro rfl
        cases hnone
      refine ⟨grows_put hnone, ?_⟩
      rw [walk, entry?_put, if_pos ⟨hne, rfl⟩]
      rfl
  | cons name rest ih =>
    rw [makeDirectories] at h
    split at h
    · cases h
    next hlength =>
    -- What is at the place by now stays there while the rest is made.
    suffices hrest : ∀ {t₁}, t₁.entry? place = some .directory → t.Grows t₁ →
        t₁.makeDirectories (step place name) rest = .ok t' →
        t.Grows t' ∧ t'.walk place (name :: rest) =
          .ok ((name :: rest).foldl step place, some .directory) by
      split at h
      · next hd => exact hrest hd (.refl t) h
      · cases h
      · next hnone =>
        have hne : place ≠ [] := by
          rintro rfl
          cases hnone
        refine hrest ?_ (grows_put hnone) h
        rw [entry?_put, if_pos ⟨hne, rfl⟩]
    intro t₁ hd hgrows hmade
    obtain ⟨hgrows', hwalk⟩ := ih hmade
    refine ⟨hgrows.trans hgrows', ?_⟩
    rw [walk, hgrows' _ _ hd]
    dsimp only
    rw [if_neg hlength, hwalk]
    rfl

theorem makeDirectories_of_walk (h : t.walk place names = .ok (q, some .directory)) :
    t.makeDirectories place names = .ok t := by
  induction names generalizing place with
  | nil =>
    have hd : t.entry? place = some .directory := congrArg Prod.snd (Except.ok.inj h)
    rw [makeDirectories, hd]
  | cons name rest ih =>
    rw [walk] at h
    split at h
    · cases h
    · cases h
    · next hd =>
      split at h
      · cases h
      · next hlength =>
        rw [makeDirectories, if_neg hlength, hd]
        exact ih h

/-- Where directories can be made below a place, the place is one or can be made one. -/
theorem exists_makeDirectories_nil (h : t.makeDirectories place names = .ok t') :
    ∃ t₁, t.makeDirectories place [] = .ok t₁ := by
  cases names with
  | nil => exact ⟨t', h⟩
  | cons name rest =>
    rw [makeDirectories] at h
    split at h
    · cases h
    split at h
    · next hd => exact ⟨t, by rw [makeDirectories, hd]⟩
    · cases h
    · next hnone => exact ⟨t.put place .directory, by rw [makeDirectories, hnone]⟩

/-- Making a place a directory first makes no difference to what is made below it. -/
theorem makeDirectories_of_nil {t₁ : FileTree} (h : t.makeDirectories place [] = .ok t₁)
    (names : List String) : t₁.makeDirectories place names = t.makeDirectories place names := by
  rw [makeDirectories] at h
  split at h
  · cases h
    rfl
  · cases h
  next hnone =>
  cases h
  have hne : place ≠ [] := by
    rintro rfl
    cases hnone
  have hd : FileTree.entry? (t.put place .directory) place = some .directory := by
    rw [entry?_put, if_pos ⟨hne, rfl⟩]
  cases names with
  | nil => simp only [makeDirectories, hd, hnone]
  | cons name rest => simp only [makeDirectories, hd, hnone]

/-- **Directories one below the other.** Some directories and then more are made by making the first
ones, and the others in what that leaves. -/
theorem makeDirectories_append_eq_ok {rest : List String} :
    t.makeDirectories place (names ++ rest) = .ok t' ↔
      ∃ t₁, t.makeDirectories place names = .ok t₁ ∧
        t₁.makeDirectories (names.foldl step place) rest = .ok t' := by
  induction names generalizing t place with
  | nil =>
    rw [List.nil_append, List.foldl_nil]
    constructor
    · intro h
      obtain ⟨t₁, h₁⟩ := exists_makeDirectories_nil h
      exact ⟨t₁, h₁, (makeDirectories_of_nil h₁ rest).trans h⟩
    · rintro ⟨t₁, h₁, h⟩
      exact (makeDirectories_of_nil h₁ rest).symm.trans h
  | cons first names ih =>
    rw [List.cons_append, makeDirectories, makeDirectories]
    split
    · simp
    split
    · exact ih
    · simp
    · exact ih

/-- One directory in a directory can be made unless its name is too long or a file is there. -/
theorem makeDirectories_singleton {name : String} (hd : t.entry? place = some .directory) :
    t.makeDirectories place [name] = .ok t' ↔ ¬ maxName < name.utf8ByteSize ∧
      (t.entry? (step place name) = some .directory ∧ t' = t ∨
        t.entry? (step place name) = none ∧ t' = t.put (step place name) .directory) := by
  rw [makeDirectories, hd]
  split
  · next hlength => simp [hlength]
  next hlength =>
  dsimp only
  rw [makeDirectories]
  split
  · next hplace => simp [hlength, hplace, eq_comm]
  · next hplace => simp [hplace]
  · next hplace => simp [hlength, hplace, eq_comm]

/-- Making a directory is making its names, if the path can be one. -/
theorem createDirectory_eq_ok_iff : t.createDirectory p = .ok t' ↔
    ¬ p.contains '\x00' ∧ ¬ maxPath < p.text.utf8ByteSize ∧
      t.makeDirectories [] p.names = .ok t' := by
  rw [createDirectory]
  split
  · next hnul => exact ⟨fun h => (by cases h), fun h => absurd hnul h.1⟩
  split
  · next hlength => exact ⟨fun h => (by cases h), fun h => absurd hlength h.2.1⟩
  · next hnul hlength => exact ⟨fun h => ⟨hnul, hlength, h⟩, fun h => h.2.2⟩

theorem createDirectory_eq_ok (h : t.createDirectory p = .ok t') :
    t.makeDirectories [] p.names = .ok t' :=
  (createDirectory_eq_ok_iff.1 h).2.2

theorem grows_createDirectory (h : t.createDirectory p = .ok t') : t.Grows t' :=
  (makeDirectories_eq_ok (createDirectory_eq_ok h)).1

theorem hasDirectory_createDirectory (h : t.createDirectory p = .ok t') : t'.HasDirectory p :=
  (makeDirectories_eq_ok (createDirectory_eq_ok h)).2

/-- **Directories are made once.** -/
theorem createDirectory_of_hasDirectory (hd : t.HasDirectory p) (h : t.createDirectory p = .ok t') :
    t' = t := by
  have hmade := createDirectory_eq_ok h
  rw [makeDirectories_of_walk hd] at hmade
  exact (Except.ok.inj hmade).symm

/-- A directory that could be made can be made again, wherever it is there by now. -/
theorem createDirectory_again (h : t.createDirectory p = .ok t') (hd : t''.HasDirectory p) :
    t''.createDirectory p = .ok t'' := by
  obtain ⟨hnul, hlength, -⟩ := createDirectory_eq_ok_iff.1 h
  exact createDirectory_eq_ok_iff.2 ⟨hnul, hlength, makeDirectories_of_walk hd⟩

/-- **A directory in a directory.** Making it adds one entry at most to what making the outer one
leaves. -/
theorem createDirectory_join {base x : Path} {t₁ : FileTree} (hx : x.IsName)
    (hbase : t.createDirectory base = .ok t₁) (h : t.createDirectory (base.join x) = .ok t') :
    t' = t₁ ∨ t' = t₁.put (base.join x).location .directory := by
  have hmade := createDirectory_eq_ok h
  rw [Path.names_join hx, makeDirectories_append_eq_ok] at hmade
  obtain ⟨t₂, h₂, hmade⟩ := hmade
  rw [createDirectory_eq_ok hbase] at h₂
  cases h₂
  have hlocation : (base.join x).location =
      step (base.names.foldl step []) (String.ofList x) := by
    rw [Path.location, Path.names_join hx, List.foldl_append]
    rfl
  rw [hlocation]
  have hd := HasDirectory.entry? (hasDirectory_createDirectory hbase)
  obtain ⟨-, ⟨-, ht⟩ | ⟨-, ht⟩⟩ := (makeDirectories_singleton hd).1 hmade
  · exact .inl ht
  · exact .inr ht

/-! ### Writing and moving -/

theorem keeps_write (h : t.write p content = .ok t') : t.Keeps t' := by
  obtain ⟨rfl, hd⟩ := write_eq_ok h
  exact keeps_put_file hd

/-- The target of a move can be followed, and is no directory. -/
theorem resolve_of_rename {source target : Path} (h : t.rename source target = .ok t') :
    ∃ e, t.resolve target = .ok (target.location, e) ∧ e ≠ some .directory := by
  rw [rename] at h
  split at h
  · cases h
  · cases h
  · cases h
  split at h
  · cases h
  · cases h
  next e hnd hr =>
  obtain ⟨rfl, -⟩ := resolve_eq_ok hr
  exact ⟨e, hr, hnd⟩

theorem keeps_rename {source target : Path} (h : t.rename source target = .ok t') :
    t.Keeps t' := by
  obtain ⟨e, hr, he⟩ := resolve_of_rename h
  obtain ⟨content, hsource, rfl⟩ := rename_eq_ok h
  refine (keeps_erase_file hsource).trans (keeps_put_file fun hd => he ?_)
  rw [(resolve_eq_ok hr).2]
  exact entry?_of_erase hd

/-- **Moving a file.** The target holds what the source held, the source holds nothing, and the
rest is as it was. -/
theorem entry?_of_rename {source target : Path} (h : t.rename source target = .ok t') :
    ∃ content, t.entry? source.location = some (.file content) ∧ ∀ q, t'.entry? q =
      if q = target.location then some (.file content)
      else if q = source.location then none else t.entry? q := by
  obtain ⟨e, hr, he⟩ := resolve_of_rename h
  obtain ⟨content, hsource, rfl⟩ := rename_eq_ok h
  refine ⟨content, hsource, fun q => ?_⟩
  have htarget : target.location ≠ [] := by
    intro hnil
    refine he ((resolve_eq_ok hr).2.trans ?_)
    rw [hnil]
    rfl
  have hne : source.location ≠ [] := by
    intro hnil
    rw [hnil] at hsource
    cases hsource
  rw [entry?_put, entry?_erase]
  by_cases hq : q = target.location
  · rw [if_pos ⟨hq ▸ htarget, hq⟩, if_pos hq]
  rw [if_neg fun h => hq h.2, if_neg hq]
  by_cases hs : q = source.location
  · rw [if_pos ⟨hs ▸ hne, hs⟩, if_pos hs]
  · rw [if_neg fun h => hs h.2, if_neg hs]

end FileTree

end Interpose
