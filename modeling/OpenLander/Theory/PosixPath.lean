import Mathlib.Data.List.Infix

/-! # POSIX paths

An absolute path is a `Location`, the names on the way from the root directory, without `.` and
`..`. `join` reads a path from a location on, and `resolve` does so unless the path is absolute.
A path that nowhere steps up stays below the location that it is read from. -/

namespace OpenLander.Theory

abbrev Location := List String

/-- What stands between the slashes. -/
def segments (path : String) : List String := (path.toList.splitOn '/').map String.ofList

/-- Follow one segment. The parent of the root directory is the root directory. -/
def enter (location : Location) (segment : String) : Location :=
  if segment = "" ∨ segment = "." then location
  else if segment = ".." then location.dropLast
  else location ++ [segment]

def walk (location : Location) (path : List String) : Location := path.foldl enter location

def isAbsolute (path : String) : Bool := path.toList.head? == some '/'

/-- Every path is read from the location on, also one with a slash in front. -/
def join (root : Location) (path : String) : Location := walk root (segments path)

def resolve (root : Location) (path : String) : Location :=
  if isAbsolute path then walk [] (segments path) else walk root (segments path)

variable {root location : Location} {path : String}

theorem prefix_enter (h : root <+: location) {segment : String} (hup : segment ≠ "..") :
    root <+: enter location segment := by
  rw [enter]
  split
  · exact h
  · exact h.trans (List.prefix_append _ _)

theorem prefix_walk (h : root <+: location) {path : List String} (hup : ".." ∉ path) :
    root <+: walk location path := by
  induction path generalizing location with
  | nil => exact h
  | cons segment path ih =>
    rw [List.mem_cons, not_or] at hup
    exact ih (prefix_enter h (Ne.symm hup.1)) hup.2

/-- Without a step up, a path stays below. -/
theorem prefix_join (hup : ".." ∉ segments path) : root <+: join root path :=
  prefix_walk (List.prefix_refl root) hup

/-- What is in a directory below is below. -/
theorem prefix_of_prefix_dropLast (h : root <+: location.dropLast) : root <+: location :=
  h.trans (List.dropLast_prefix location)

end OpenLander.Theory
