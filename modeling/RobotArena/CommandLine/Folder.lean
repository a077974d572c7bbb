import RobotArena.CommandLine.Run

/-!
# Folders in memory

A folder that is given by its files, for calls that are carried out away from a disk. A path is
followed from the folder in which the call is made, one step after another: `follow?_append` says
that a path may be cut anywhere. Each step is taken from a folder that is there, so a path through
a missing folder or through a file leads nowhere even if it comes back. What lies outside the
folder is not known.
-/

namespace RobotArena.CommandLine

/-- A folder: the files in it and in the folders below it, each with the names on the way to it. -/
structure Folder where
  files : List (List String × List UInt8) := []

namespace Folder

/-- The steps of a path. -/
def steps (path : String) : List String :=
  (Text.pieces (· == '/') path.toList).map String.ofList

/-- Whether a step stays where it starts. -/
def stays (step : String) : Bool :=
  step == "" || step == "."

/-- The folder that holds some files, each given by its path. -/
def ofFiles (files : List (String × List UInt8)) : Folder :=
  ⟨files.map fun (path, data) => ((steps path).filter (!stays ·), data)⟩

/-- The files below a place, by their paths from it. -/
def below (f : Folder) (place : List String) : List (String × List UInt8) :=
  f.files.filterMap fun (names, data) =>
    if place.length < names.length && place.isPrefixOf names then
      some ("/".intercalate (names.drop place.length), data)
    else none

/-- Whether a place is a folder: the one of the call, or one that holds a file somewhere. -/
def isFolder (f : Folder) (place : List String) : Bool :=
  place.isEmpty || !(f.below place).isEmpty

/-- The place to which steps lead from a place. -/
def follow? (f : Folder) (place : List String) : List String → Option (List String)
  | [] => some place
  | step :: rest =>
    if !f.isFolder place then none
    else if stays step then f.follow? place rest
    else if step == ".." then
      if place.isEmpty then none else f.follow? place.dropLast rest
    else f.follow? (place ++ [step]) rest

/-- Following steps one part after the other leads to the same place. -/
theorem follow?_append (f : Folder) (place first second : List String) :
    f.follow? place (first ++ second) =
      (f.follow? place first).bind fun between => f.follow? between second := by
  induction first generalizing place with
  | nil => rfl
  | cons step rest ih =>
    simp only [List.cons_append, follow?, ih]
    repeat' split
    all_goals rfl

/-- The place to which a path leads that starts in the folder. -/
def locate? (f : Folder) (path : String) : Option (List String) :=
  if path.isEmpty || path.front == '/' then none else f.follow? [] (steps path)

/-- The file to which a path leads. -/
def file? (f : Folder) (path : String) : Option (List UInt8) :=
  (f.locate? path).bind fun place => f.files.lookup place

/-- The files below the folder to which a path leads. -/
def sources? (f : Folder) (path : String) : Option (List (String × List UInt8)) :=
  ((f.locate? path).filter f.isFolder).map f.below

/-- What a call finds that is made in the folder. -/
def look (f : Folder) (environment : List (String × String)) (call : Invocation) : Inputs where
  config := call.config.bind f.file?
  sources := f.sources? call.dir
  environment := environment

end Folder

end RobotArena.CommandLine
