/-!
# Documents

A document is a table. Its text is a sequence of statements: a key with a value, or a header that
says which table the following keys belong to. How tables come about decides what may be added to
them later, so a table remembers it:

* a table *written out* under a header of its own is closed to dotted keys from outside;
* a table *implied* by the header of a table below it may still get its header;
* a table made by a *dotted* key may get more dotted keys, but no header;
* an *inline* table is complete where it stands.

Adding something that the rules forbid gives no document at all.
-/

namespace Interpose.Toml

/-- How a table has come about. -/
inductive TableKind
  | written | implied | dotted | inline
  deriving DecidableEq, Repr

/-- A value. Fractions, and dates and times, are told apart from nothing else. -/
inductive Node
  | text (s : String)
  | integer (n : Int)
  | boolean (b : Bool)
  | fraction
  | moment
  | array (items : List Node)
  | table (kind : TableKind) (entries : List (String × Node))
  /-- Tables under headers with doubled brackets, the latest first. -/
  | tables (items : List (List (String × Node)))
  deriving Inhabited

/-- Keys with their values, in the order in which they came. -/
abbrev Entries := List (String × Node)

/-- One statement of a document. -/
inductive Statement
  /-- A value under a dotted key. -/
  | pair (path : List String) (value : Node)
  /-- A header, whether the brackets are doubled, and the names of the table. -/
  | header (doubled : Bool) (path : List String)
  deriving Inhabited

namespace Entries

/-- Puts a value in the place of the one under a key, or behind the others. -/
def replace (key : String) (value : Node) : Entries → Entries
  | [] => [(key, value)]
  | (k, v) :: rest => if k = key then (key, value) :: rest else (k, v) :: replace key value rest

/-- Adds a value under a dotted key. The names in front lead through tables made by dotted keys, and
the value's own name has to be new. A table that is only implied may be passed through, but not
added to. -/
def insert (e : Entries) : List String → Node → Option Entries
  | [], _ => none
  | [key], value =>
    match e.lookup key with
    | some _ => none
    | none => some (e ++ [(key, value)])
  | key :: next :: rest, value =>
    match e.lookup key with
    | none => do
      return replace key (.table .dotted (← insert [] (next :: rest) value)) e
    | some (.table .dotted inner) => do
      return replace key (.table .dotted (← insert inner (next :: rest) value)) e
    | some (.table .implied inner) =>
      if rest.isEmpty then none
      else do
        return replace key (.table .implied (← insert inner (next :: rest) value)) e
    | some (.tables (last :: earlier)) =>
      if rest.isEmpty then none
      else do
        return replace key (.tables ((← insert last (next :: rest) value) :: earlier)) e
    | some _ => none

/-- Follows a header: makes its table, or gives an implied one its header. -/
def openTable (e : Entries) : List String → Option Entries
  | [] => none
  | [key] =>
    match e.lookup key with
    | none => some (e ++ [(key, .table .written [])])
    | some (.table .implied inner) => some (replace key (.table .written inner) e)
    | some _ => none
  | key :: next :: rest =>
    match e.lookup key with
    | none => do
      return replace key (.table .implied (← openTable [] (next :: rest))) e
    | some (.table .inline _) => none
    | some (.table kind inner) => do
      return replace key (.table kind (← openTable inner (next :: rest))) e
    | some (.tables (last :: earlier)) => do
      return replace key (.tables ((← openTable last (next :: rest)) :: earlier)) e
    | some _ => none

/-- Follows a header with doubled brackets: adds a table to those of its name. -/
def openTables (e : Entries) : List String → Option Entries
  | [] => none
  | [key] =>
    match e.lookup key with
    | none => some (e ++ [(key, .tables [[]])])
    | some (.tables items) => some (replace key (.tables ([] :: items)) e)
    | some _ => none
  | key :: next :: rest =>
    match e.lookup key with
    | none => do
      return replace key (.table .implied (← openTables [] (next :: rest))) e
    | some (.table .inline _) => none
    | some (.table kind inner) => do
      return replace key (.table kind (← openTables inner (next :: rest))) e
    | some (.tables (last :: earlier)) => do
      return replace key (.tables ((← openTables last (next :: rest)) :: earlier)) e
    | some _ => none

/-- Changes the table that a header has opened. -/
def update (f : Entries → Option Entries) (e : Entries) : List String → Option Entries
  | [] => f e
  | key :: rest =>
    match e.lookup key with
    | some (.table kind inner) => do
      return replace key (.table kind (← update f inner rest)) e
    | some (.tables (last :: earlier)) => do
      return replace key (.tables ((← update f last rest) :: earlier)) e
    | _ => none

end Entries

/-- A document under construction: its table, and the names of the table that keys belong to. -/
structure Draft where
  entries : Entries := []
  current : List String := []

/-- Follows a statement. -/
def Draft.add (d : Draft) : Statement → Option Draft
  | .pair path value => do
    return { d with entries := ← d.entries.update (·.insert path value) d.current }
  | .header false path => do return ⟨← d.entries.openTable path, path⟩
  | .header true path => do return ⟨← d.entries.openTables path, path⟩

/-- The document of some statements. -/
def document (statements : List Statement) : Option Entries := do
  return (← statements.foldlM Draft.add {}).entries

end Interpose.Toml
