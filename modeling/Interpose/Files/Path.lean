import Interpose.Text.Split
/-!
# Paths

A path is a text with slashes. Joining two paths is not concatenation: an absolute second path
replaces the first, and a slash is put between them only where there is none. Joining with the empty
path leaves a slash at the end.

A class has a path of its own, made from the segments of its name. The segments are joined as they
are, so a name with slashes in it can denote a path anywhere.
-/

namespace Interpose

/-- A path, as characters. -/
abbrev Path := List Char

namespace Path

def ofString (s : String) : Path := s.toList

def text (p : Path) : String := String.ofList p

def isAbsolute (p : Path) : Bool := p.head? == some '/'

/-- Whether a slash has to come before the next name. -/
def needsSlash (p : Path) : Bool :=
  match p.getLast? with
  | some c => c != '/'
  | none => false

/-- The path of `rest` as seen from `base`. -/
def join (base rest : Path) : Path :=
  if rest.isAbsolute then rest
  else if base.needsSlash then base ++ '/' :: rest
  else base ++ rest

/-- The path without slashes at its end. -/
def trimmed (p : Path) : Path := (p.reverse.dropWhile (· == '/')).reverse

/-- The path without its last name. -/
def parent (p : Path) : Path := (p.trimmed.reverse.dropWhile (· != '/')).reverse

/-- Puts an extension behind the last name, if there is a name. The names in the path must hold no
dot: then there is no extension to replace. -/
def withExtension (p : Path) (extension : String) : Path :=
  if p.trimmed.isEmpty then p else p.trimmed ++ '.' :: extension.toList

/-- The names along the path. Doubled slashes count as one, and a lone dot stays in place. -/
def names (p : Path) : List String :=
  ((Text.split '/' p).filter fun s => s ≠ [] ∧ s ≠ ['.']).map String.ofList

/-- A path that ends in a slash can denote a directory only. -/
def namesDirectory (p : Path) : Bool := p.getLast? == some '/'

end Path

/-- The extension of class files. -/
def classFileExtension : String := "umbc"

/-- The path of a class file below a root, `a/b/C.umbc` for the class `a.b.C`. -/
def classFilePath (className : String) : Path :=
  ((Text.split '.' className.toList).foldl Path.join []).withExtension classFileExtension

end Interpose
