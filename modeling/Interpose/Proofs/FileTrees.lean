import Interpose.Cache.Disk
import Interpose.Cache.Memory
/-!
# What file operations leave behind

A path denotes one location, wherever the directories are: walks ask what lies on the way, but where
they lead is settled by the names alone. So what an operation can do to the files of a tree is said
in locations. Making directories adds no file, writing adds one at a known location, and moving
takes a content from one location to another.

Writing a cache entry is a chain of such operations that can break off anywhere. However it ends, a
file that was not there before holds the entry's bytes and lies in one of two places: where the
entry belongs, or under the temporary name.

## Main definitions

* `Path.location`: the location that a path denotes
* `FileTree.Adds`: what is new among the files of a tree

## Main results

* `FileTree.resolve_eq_ok`: a resolved path leads to its location
* `Disk.adds_writeEntry`: what writing an entry adds, also when it fails
-/

namespace Interpose

/-! ### Names and locations -/

namespace Text

theorem split_append_cons (sep : Char) (cs rest : List Char) :
    split sep (cs ++ sep :: rest) = split sep cs ++ split sep rest := by
  induction cs with
  | nil => simp [split]
  | cons c cs ih =>
    by_cases h : c = sep
    · simp [split, h, ih]
    · obtain ⟨s, ss, hs⟩ := List.exists_cons_of_ne_nil (split_ne_nil sep cs)
      simp [split, h, ih, hs]

theorem split_of_not_mem {sep : Char} {cs : List Char} (h : sep ∉ cs) : split sep cs = [cs] := by
  induction cs with
  | nil => rfl
  | cons c cs ih =>
    have hc : c ≠ sep := fun e => h (e ▸ List.mem_cons_self)
    have hcs : sep ∉ cs := fun hm => h (List.mem_cons_of_mem _ hm)
    simp [split, hc, ih hcs]

end Text

namespace Path

variable {base x : Path}

/-- A single name, which leads down. -/
structure IsName (x : Path) : Prop where
  ne_nil : x ≠ []
  ne_dot : x ≠ ['.']
  ne_dots : x ≠ ['.', '.']
  no_slash : '/' ∉ x

/-- The location that a path denotes, seen from the root. -/
def location (p : Path) : Location := p.names.foldl FileTree.step []

theorem names_of_isName (hx : x.IsName) : x.names = [String.ofList x] := by
  simp [names, Text.split_of_not_mem hx.no_slash, hx.ne_nil, hx.ne_dot]

theorem names_append_slash (p rest : Path) : names (p ++ '/' :: rest) = names p ++ names rest := by
  simp [names, Text.split_append_cons]

@[simp] theorem names_nil : names [] = [] := rfl

/-- A path that needs no slash is empty or has one at its end. -/
theorem eq_of_not_needsSlash (h : ¬ base.needsSlash) : base = [] ∨ ∃ p, base = p ++ ['/'] := by
  rcases List.eq_nil_or_concat base with rfl | ⟨p, c, rfl⟩
  · exact .inl rfl
  · refine .inr ⟨p, ?_⟩
    have hc : c = '/' := by simpa [needsSlash] using h
    rw [List.concat_eq_append, hc]

theorem IsName.not_isAbsolute (hx : x.IsName) : ¬ x.isAbsolute := by
  obtain ⟨c, cs, rfl⟩ := List.exists_cons_of_ne_nil hx.ne_nil
  have hc : c ≠ '/' := fun e => hx.no_slash (e ▸ List.mem_cons_self)
  simpa [isAbsolute] using hc

/-- **Below another path.** The names along a relative path come behind those of what it is joined
to. -/
theorem names_join_of_relative (hx : ¬ x.isAbsolute) :
    (base.join x).names = base.names ++ x.names := by
  rw [join, if_neg hx]
  by_cases hs : base.needsSlash
  · rw [if_pos hs, names_append_slash]
  rw [if_neg hs]
  rcases eq_of_not_needsSlash hs with rfl | ⟨p, rfl⟩
  · rw [List.nil_append, names_nil, List.nil_append]
  · rw [List.append_assoc, List.singleton_append, names_append_slash, names_append_slash,
      names_nil, List.append_nil]

theorem names_join (hx : x.IsName) : (base.join x).names = base.names ++ [String.ofList x] := by
  rw [names_join_of_relative hx.not_isAbsolute, names_of_isName hx]

theorem location_join (hx : x.IsName) :
    (base.join x).location = base.location ++ [String.ofList x] := by
  have hstep : String.ofList x ≠ ".." := by
    intro h
    exact hx.ne_dots (by simpa using congrArg String.toList h)
  rw [location, names_join hx, List.foldl_append]
  simp [FileTree.step, hstep, location]

end Path

namespace FileTree

variable {t t' t'' : FileTree} {p : Path} {place : Location} {content : Bytes}

/-! ### Entries -/

theorem entry?_put (place : Location) (e : Entry) (q : Location) :
    FileTree.entry? (t.put place e) q = if q ≠ [] ∧ q = place then some e else t.entry? q := by
  by_cases hnil : q = []
  · simp [hnil, entry?]
  by_cases hq : q = place
  · subst hq
    simp [put, entry?, hnil]
  · have hb : (q == place) = false := by simpa using hq
    simp [put, entry?, List.lookup_cons, hb, hq, MemoryStore.lookup_filter_ne hq]

theorem lookup_filter_self {α β : Type} [BEq α] [LawfulBEq α] (a : α) (l : List (α × β)) :
    (l.filter fun e => e.1 != a).lookup a = none := by
  rw [List.lookup_eq_none_iff]
  intro e he
  have hne : e.1 ≠ a := by simpa using (List.mem_filter.1 he).2
  simpa using fun h => hne h.symm

/-- What is left after taking something away was there before. -/
theorem entry?_of_erase {q : Location} {e : Entry}
    (h : FileTree.entry? (t.erase place) q = some e) : t.entry? q = some e := by
  by_cases hnil : q = []
  · simpa [hnil, entry?] using h
  by_cases hq : q = place
  · subst hq
    simp [erase, entry?, hnil, lookup_filter_self] at h
  · simpa [erase, entry?, hnil, MemoryStore.lookup_filter_ne hq] using h

/-! ### Where paths lead -/

theorem walk_eq_ok {place q : Location} {names : List String} {e : Option Entry}
    (h : t.walk place names = .ok (q, e)) :
    q = names.foldl step place ∧ e = t.entry? q := by
  induction names generalizing place with
  | nil =>
    cases h
    exact ⟨rfl, rfl⟩
  | cons name rest ih =>
    rw [walk] at h
    split at h
    · cases h
    · cases h
    · split at h
      · cases h
      · exact ih h

/-- **Resolution.** A path that can be followed leads to its location. -/
theorem resolve_eq_ok {q : Location} {e : Option Entry} (h : t.resolve p = .ok (q, e)) :
    q = p.location ∧ e = t.entry? q := by
  rw [resolve] at h
  split at h
  · cases h
  split at h
  · cases h
  split at h
  · rename_i hw
    split at h
    · cases h
    · cases h
      exact walk_eq_ok hw
  · exact walk_eq_ok h

theorem read_eq_ok (h : t.read p = .ok content) : t.entry? p.location = some (.file content) := by
  rw [read] at h
  split at h
  · cases h
  · cases h
  · cases h
  · rename_i hr
    cases h
    obtain ⟨hq, he⟩ := resolve_eq_ok hr
    rw [← hq, ← he]

/-! ### New files -/

/-- Files that are in the second tree and not in the first have the place and content that is
said. -/
def Adds (t t' : FileTree) (New : Location → Bytes → Prop) : Prop :=
  ∀ place content, t'.entry? place = some (.file content) →
    t.entry? place = some (.file content) ∨ New place content

variable {New : Location → Bytes → Prop}

theorem Adds.refl (t : FileTree) : t.Adds t New := fun _ _ h => .inl h

theorem Adds.trans (h : t.Adds t' New) (h' : t'.Adds t'' New) : t.Adds t'' New :=
  fun place content hc => (h' place content hc).elim (h place content) .inr

theorem adds_put_directory (place : Location) : t.Adds (t.put place .directory) New := by
  intro q content h
  rw [entry?_put] at h
  split at h
  · cases h
  · exact .inl h

theorem adds_put_file (h : New place content) : t.Adds (t.put place (.file content)) New := by
  intro q c hq
  rw [entry?_put] at hq
  split at hq
  · next heq =>
    cases hq
    exact .inr (heq.2 ▸ h)
  · exact .inl hq

theorem adds_erase (place : Location) : t.Adds (t.erase place) New :=
  fun _ _ h => .inl (entry?_of_erase h)

theorem adds_remove (p : Path) : t.Adds (t.remove p) New := by
  rw [remove]
  split
  · exact adds_erase _
  · exact .refl t

theorem adds_makeDirectories {names : List String} (h : t.makeDirectories place names = .ok t') :
    t.Adds t' New := by
  induction names generalizing t place with
  | nil =>
    rw [makeDirectories] at h
    split at h
    · cases h
      exact .refl _
    · cases h
    · cases h
      exact adds_put_directory place
  | cons name rest ih =>
    rw [makeDirectories] at h
    split at h
    · cases h
    split at h
    · exact ih h
    · cases h
    · exact (adds_put_directory place).trans (ih h)

theorem adds_createDirectory (h : t.createDirectory p = .ok t') : t.Adds t' New := by
  rw [createDirectory] at h
  split at h
  · cases h
  split at h
  · cases h
  · exact adds_makeDirectories h

/-- A file is written to the location of its path, where no directory is. -/
theorem write_eq_ok (h : t.write p content = .ok t') :
    t' = t.put p.location (.file content) ∧ t.entry? p.location ≠ some .directory := by
  rw [write] at h
  split at h
  · cases h
  · cases h
  · rename_i hr
    obtain ⟨rfl, he⟩ := resolve_eq_ok hr
    cases h
    exact ⟨rfl, fun hd => nomatch he.trans hd⟩
  · rename_i hr
    obtain ⟨rfl, he⟩ := resolve_eq_ok hr
    split at h
    · cases h
    · cases h
      exact ⟨rfl, fun hd => nomatch he.trans hd⟩

/-- What was written is there. -/
theorem entry?_of_write (h : t.write p content = .ok t') :
    t'.entry? p.location = some (.file content) := by
  obtain ⟨rfl, hd⟩ := write_eq_ok h
  have hne : p.location ≠ [] := fun hnil => hd (by simp [hnil, entry?])
  rw [entry?_put, if_pos ⟨hne, rfl⟩]

theorem rename_eq_ok {source target : Path} (h : t.rename source target = .ok t') :
    ∃ content, t.entry? source.location = some (.file content) ∧
      t' = (t.erase source.location).put target.location (.file content) := by
  rw [rename] at h
  split at h
  · cases h
  · cases h
  · cases h
  rename_i hold
  obtain ⟨rfl, he⟩ := resolve_eq_ok hold
  split at h
  · cases h
  · cases h
  rename_i hnew
  obtain ⟨rfl, -⟩ := resolve_eq_ok hnew
  cases h
  exact ⟨_, he.symm, rfl⟩

end FileTree

/-! ### Entries of a cache -/

namespace Disk

variable {root : Path} {version : UInt32} {name : String}

/-- A character that would lead out of a directory is in no entry name. -/
theorem not_mem_of_isEntryName (h : isEntryName name) : '/' ∉ name.toList := by
  simp only [isEntryName, Bool.and_eq_true] at h
  simpa using h.1.1.2

/-- A name with an extension of some length is a single name. -/
theorem isName_of_extension {cs extension : List Char} (h : '/' ∉ cs) (he : '/' ∉ extension)
    (hlength : 2 < extension.length) : Path.IsName (cs ++ extension) := by
  have hlong : 2 < (cs ++ extension).length := by
    rw [List.length_append]
    exact Nat.lt_of_lt_of_le hlength (Nat.le_add_left ..)
  refine ⟨?_, ?_, ?_, ?_⟩
  · rintro e
    simp [e] at hlong
  · rintro e
    simp [e] at hlong
  · rintro e
    simp [e] at hlong
  · simp [h, he]

theorem location_entryPath (h : isEntryName name) :
    (entryPath root version name).location =
      (versionDirectory root version).location ++ [name ++ ".umbc"] := by
  have hname : Path.IsName (name ++ ".umbc").toList := by
    rw [String.toList_append]
    exact isName_of_extension (not_mem_of_isEntryName h) (by decide) (by decide)
  rw [entryPath, Path.location_join hname, String.ofList_toList]

/-- Numbers are written without slashes. -/
theorem slash_not_mem_toString (n : Nat) : '/' ∉ (toString n).toList := by
  intro h
  rw [Nat.toString_eq_repr, Nat.toList_repr] at h
  exact absurd (Nat.isDigit_of_mem_toDigits (by decide) (by decide) h) (by decide)

/-- A temporary name is a single name. -/
theorem isName_temporary (d : Disk) (h : isEntryName name) :
    Path.IsName (s!"{name}.{d.writer}.{d.serial}" ++ ".tmp").toList := by
  rw [String.toList_append]
  refine isName_of_extension ?_ (by decide) (by decide)
  have hw := slash_not_mem_toString d.writer
  have hs := slash_not_mem_toString d.serial
  have hn := not_mem_of_isEntryName h
  simp only [String.toList_append, List.mem_append, not_or]
  exact ⟨⟨⟨⟨hn, by decide⟩, hw⟩, by decide⟩, hs⟩

theorem location_temporaryPath (d : Disk) (h : isEntryName name) :
    ∃ stem, (d.temporaryPath root name).location =
      (temporaryDirectory root).location ++ [stem ++ ".tmp"] := by
  refine ⟨s!"{name}.{d.writer}.{d.serial}", ?_⟩
  exact (Path.location_join (d.isName_temporary h)).trans (by rw [String.ofList_toList])

/-- The files that writing an entry can leave behind. -/
def Written (d : Disk) (root : Path) (version : UInt32) (name : String) (bytes : Bytes)
    (place : Location) (content : Bytes) : Prop :=
  isEntryName name ∧ content = withChecksum bytes ∧
    (place = (d.temporaryPath root name).location ∨ place = (entryPath root version name).location)

/-- **Writing an entry.** However it ends, what it adds are the entry's bytes, in their place or
under the temporary name. -/
theorem adds_writeEntry (d : Disk) (root : Path) (version : UInt32) (name : String)
    (bytes : Bytes) :
    d.files.Adds (d.writeEntry root version name bytes).2.files
      (d.Written root version name bytes) := by
  rw [writeEntry]
  split
  · exact .refl _
  rename_i hname
  have hname : isEntryName name := by simpa using hname
  split
  · exact .refl _
  rename_i files₁ hdirectory
  have h₁ : d.files.Adds files₁ (d.Written root version name bytes) :=
    FileTree.adds_createDirectory hdirectory
  dsimp only
  split
  · exact h₁.trans (FileTree.adds_remove _)
  rename_i files₂ hwrite
  have hheld := FileTree.entry?_of_write hwrite
  have h₂ : files₁.Adds files₂ (d.Written root version name bytes) := by
    rw [(FileTree.write_eq_ok hwrite).1]
    exact FileTree.adds_put_file ⟨hname, rfl, .inl rfl⟩
  split
  · exact h₁.trans h₂
  rename_i files₃ hversion
  have h₃ : files₂.Adds files₃ (d.Written root version name bytes) :=
    FileTree.adds_createDirectory hversion
  rw [settle]
  split
  · exact ((h₁.trans h₂).trans h₃).trans (FileTree.adds_remove _)
  rename_i files₄ hrename
  obtain ⟨content, hcontent, rfl⟩ := FileTree.rename_eq_ok hrename
  -- The moved file is the one that was written: making directories in between adds none.
  have hnone : files₂.Adds files₃ fun _ _ => False := FileTree.adds_createDirectory hversion
  have hmoved : content = withChecksum bytes := by
    rcases hnone _ _ hcontent with h | h
    · cases h.symm.trans hheld
      rfl
    · exact h.elim
  refine ((h₁.trans h₂).trans h₃).trans ?_
  exact (FileTree.adds_erase _).trans (FileTree.adds_put_file ⟨hname, hmoved, .inr rfl⟩)

end Disk

end Interpose
