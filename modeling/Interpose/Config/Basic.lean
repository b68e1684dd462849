import Interpose.Cache.Basic
import Interpose.Dispatch.Wrangler
import Interpose.Loading.Policy
/-!
# Configuration

What a user can choose: where classes come from, where instrumented classes are kept, how the
machine and the wrangler behave, and the acquisition policy. Two variables of the surroundings can
override the configuration, one for the directory of the cache and one for strictness.
-/

namespace Interpose

/-- The choices of a user. -/
structure Config where
  /-- Directories that are searched for class files. -/
  classPath : List String := []
  /-- The directory that the class cache lies in. -/
  cacheDirectory : String := "./tmp"
  /-- Keep instrumented classes on disk. -/
  cacheEnabled : Bool := true
  cacheVersion : UInt32 := Interpose.cacheVersion
  strict : Bool := false
  callThrough : Bool := true
  dumpTransformed : Bool := false
  maxDepth : Nat := defaultMaxDepth
  policy : Policy := {}
  deriving DecidableEq, Repr, Inhabited

/-- Why a configuration cannot be used. -/
inductive ConfigError
  | io (cause : FileError)
  /-- The text is no document, or a value has the wrong type. -/
  | parse
  | zeroDepth
  | emptyReservedPrefix
  | cache (cause : CacheError)
  deriving DecidableEq, Repr

/-- The report of a configuration whose values make no sense. -/
def ConfigError.invalidMessage? : ConfigError → Option String
  | zeroDepth => some "Invalid config: max_call_depth must be positive"
  | emptyReservedPrefix =>
    some "Invalid config: an empty reserved prefix would exclude every class"
  | io _ | parse | cache _ => none

namespace Config

/-- The name of the cache's directory inside the configured one. -/
def cacheDirectoryName : String := "cached-umbra-classes"

/-- The variable that overrides the directory. -/
def cachePathVariable : String := "UMBRA_CLASS_CACHE_PATH"

/-- The variable that overrides strictness. -/
def strictVariable : String := "UMBRA_STRICT_I18N"

variable (c : Config)

/-- Refuses a configuration that nothing can run under. -/
def validate : Except ConfigError Unit :=
  if c.maxDepth = 0 then .error .zeroDepth
  else if c.policy.reserved.contains "" then .error .emptyReservedPrefix
  else .ok ()

/-- The directory of the cache. -/
def cachePath : Path := (Path.ofString c.cacheDirectory).join cacheDirectoryName.toList

/-- How the wrangler starts. -/
def wranglerOptions : WranglerOptions := ⟨c.strict, c.callThrough⟩

/-! ### Overrides -/

/-- A blank character at the end of a flag does not count. -/
def isBlank (c : Char) : Bool :=
  let n := c.toNat
  (0x09 ≤ n ∧ n ≤ 0x0d) || n = 0x20 || n = 0x85 || n = 0xa0 || n = 0x1680 ||
    (0x2000 ≤ n ∧ n ≤ 0x200a) || n = 0x2028 || n = 0x2029 || n = 0x202f || n = 0x205f || n = 0x3000

/-- The characters between blanks at both ends. -/
def trim (cs : List Char) : List Char :=
  ((cs.dropWhile isBlank).reverse.dropWhile isBlank).reverse

/-- Whether a text means yes, in any case of its letters. -/
def flag (text : String) : Bool :=
  ["1", "true", "yes", "on"].contains
    (String.ofList ((trim text.toList).map Char.toLower))

/-- Applies the variables. An empty directory overrides nothing; strictness follows its variable
whatever that says. -/
def withOverrides (lookup : String → Option String) : Config :=
  let c := match lookup cachePathVariable with
    | none | some "" => c
    | some directory => { c with cacheDirectory := directory }
  match lookup strictVariable with
  | none => c
  | some text => { c with strict := flag text }

end Config

end Interpose
