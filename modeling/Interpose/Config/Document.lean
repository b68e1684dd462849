import Interpose.Config.Basic
import Interpose.Toml.Parser
import Interpose.Toml.Printer
/-!
# Configuration files

A configuration as a document. Every key may be left out, and keys of other names are ignored
whatever they hold; a key with a value of the wrong type spoils the document. The policy is a table
of its own. It may also be given as an array of its lists in order, of which the last ones may be
missing. A date or time in its place counts as a table without any of the policy's keys.

Reading back what has been written gives the same configuration.
-/

namespace Interpose

open Toml (Node Entries Writable)

namespace Config

/-! ### Reading -/

/-- A key that may be left out. -/
def field {α : Type} (e : Entries) (key : String) (read : Node → Option α) (default : α) :
    Option α :=
  match e.lookup key with
  | none => some default
  | some v => read v

def readText : Node → Option String
  | .text s => some s
  | _ => none

def readBool : Node → Option Bool
  | .boolean b => some b
  | _ => none

/-- A number that is not negative and stays below a limit. -/
def readNat (limit : Nat) : Node → Option Nat
  | .integer n => if 0 ≤ n ∧ n < limit then some n.toNat else none
  | _ => none

def readTexts : Node → Option (List String)
  | .array items => items.mapM readText
  | _ => none

/-- The policy of a table's keys. -/
def policyOfTable (e : Entries) : Option Policy :=
  Policy.ofLists fun key default => field e key readTexts default

/-- The policy of an array's items. -/
def policyOfItems (items : List Node) : Option Policy := do
  let d : Policy := {}
  let item := fun (i : Nat) (default : List String) =>
    match items[i]? with
    | none => some default
    | some v => readTexts v
  return {
    reserved := ← item 0 d.reserved
    delegated := ← item 1 d.delegated
    acquired := ← item 2 d.acquired
    instrumented := ← item 3 d.instrumented
    valueTypes := ← item 4 d.valueTypes }

def readPolicy : Node → Option Policy
  | .table _ e => policyOfTable e
  | .moment => policyOfTable []
  | .array items => policyOfItems items
  | .tables items => policyOfItems (items.reverse.map (.table .written ·))
  | _ => none

/-- The configuration of a document. -/
def ofDocument (e : Entries) : Option Config := do
  let d : Config := {}
  return {
    classPath := ← field e "class_path" readTexts d.classPath
    cacheDirectory := ← field e "cache_dir" readText d.cacheDirectory
    cacheEnabled := ← field e "cache_enabled" readBool d.cacheEnabled
    cacheVersion :=
      UInt32.ofNat (← field e "cache_version" (readNat UInt32.size) d.cacheVersion.toNat)
    strict := ← field e "strict_i18n" readBool d.strict
    callThrough := ← field e "call_through_by_default" readBool d.callThrough
    dumpTransformed := ← field e "dump_transformed" readBool d.dumpTransformed
    maxDepth := ← field e "max_call_depth" (readNat UInt64.size) d.maxDepth
    policy := ← field e "policy" readPolicy d.policy }

/-- Reads a configuration that makes sense. -/
def parse (text : String) : Except ConfigError Config :=
  match (Toml.parse text).bind ofDocument with
  | none => .error .parse
  | some c =>
    match c.validate with
    | .error e => .error e
    | .ok () => .ok c

/-- Reads a configuration from a file, if there is one. -/
def load (text? : Option String) : Except ConfigError Config :=
  match text? with
  | none => .error (.io .notFound)
  | some text => parse text

/-! ### Writing -/

/-- The keys outside the policy, in their order. -/
def pairs (c : Config) : List (String × Writable) :=
  [("class_path", .texts c.classPath),
    ("cache_dir", .text c.cacheDirectory),
    ("cache_enabled", .boolean c.cacheEnabled),
    ("cache_version", .number c.cacheVersion.toNat),
    ("strict_i18n", .boolean c.strict),
    ("call_through_by_default", .boolean c.callThrough),
    ("dump_transformed", .boolean c.dumpTransformed),
    ("max_call_depth", .number c.maxDepth)]

/-- The keys of the policy, in their order. -/
def policyPairs (p : Policy) : List (String × Writable) :=
  p.lists.map fun (key, texts) => (key, .texts texts)

/-- The configuration as the text of a document. -/
def render (c : Config) : String :=
  Writable.renderPairs c.pairs ++ Writable.renderTable "policy" (policyPairs c.policy)

end Config

end Interpose
