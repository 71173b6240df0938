namespace MiniLisp

/-!
# Paths

A path is a text with slashes between its steps.  Following it from the working
directory or from the root leads to a place, which is known by the names on the
way there from the root.  Names and paths have a greatest length, which counts
bytes and not characters.
-/

/-- The pieces of a path between its slashes. -/
def pathPieces (path : String) : List String :=
  (path.toList.splitOnP (· == '/')).map String.ofList

/-- The steps of a path: names, and dots for the same or the parent directory. -/
def pathSteps (path : String) : List String :=
  (pathPieces path).filter fun piece => piece ≠ ""

/-- The steps of a path without those that lead nowhere. -/
def pathNames (path : String) : List String :=
  (pathSteps path).filter fun piece => piece ≠ "."

/-- Whether a path by its form can only lead to a directory. -/
def endsInDirectory (path : String) : Bool :=
  match (pathPieces path).getLast? with
  | some last => last = "" ∨ last = "." ∨ last = ".."
  | none => true

/-- The shortest spelling of a path: no empty steps, no steps that lead nowhere. -/
def normalPath (path : String) : String :=
  let slashes := path.toList.takeWhile (· == '/')
  let root := if slashes.length = 2 then "//" else if slashes.isEmpty then "" else "/"
  let spelling := root ++ "/".intercalate (pathNames path)
  if spelling = "" then "." else spelling

/-- The most bytes that a name may have. -/
def maxNameBytes : Nat := 255

/-- The most bytes that a path may have. -/
def maxPathBytes : Nat := 4095

/-- A place by the names that lead to it from the root. -/
abbrev Place := List String

namespace Place

/-- Where one step from a directory leads; the root is its own parent. -/
def step (place : Place) (name : String) : Place :=
  if name = "." then
    place
  else if name = ".." then
    place.dropLast
  else
    place ++ [name]

/-- The places on the way along steps, from where they start to where they lead. -/
def along (place : Place) : List String → List Place
  | [] => [place]
  | name :: rest => place :: (place.step name).along rest

/-- The path from the root to a place. -/
def path (place : Place) : String :=
  "/" ++ "/".intercalate place

end Place

end MiniLisp
