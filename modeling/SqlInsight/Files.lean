/-
The files that a computation can look at, and their paths: names with slashes between them. A path
that starts with a slash is absolute.
-/
import SqlInsight.Text.Basic

namespace SqlInsight

/-- The files that a computation can look at: the text of a file if it can be read, and whether
there is anything under a path. -/
structure Files (m : Type → Type) where
  read? : Text → m (Option Text)
  isThere : Text → m Bool

end SqlInsight

namespace SqlInsight.Path

/-- A path taken from a directory; an absolute path stands for itself. -/
def join (directory path : Text) : Text :=
  if path.head? == some '/' then path
  else if directory.isEmpty || directory.getLast? == some '/' then directory ++ path
  else directory ++ '/' :: path

/-- The directory of a file, without slashes at its end unless it is the root. -/
def parent (path : Text) : Text :=
  let directory := Text.dropEndWhile (· != '/') path
  match Text.dropEndWhile (· == '/') directory with
  | [] => if directory.isEmpty then [] else ['/']
  | kept => kept

end SqlInsight.Path
