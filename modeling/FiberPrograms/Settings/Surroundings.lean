/-!
# Surroundings

Settings can come from files and from the variables of the environment. A path leads to a file
step by step, from the working directory.

## Main definitions

* `Surroundings`: the files and the variables that settings can come from
* `Surroundings.file?`, `Surroundings.valueOf?`: the text of a file, and the value of a variable
* `Surroundings.endedPath`: a path with an ending behind it
-/

namespace FiberPrograms

/-- The files that there are, by path, and the environment variables. -/
structure Surroundings where
  files : List (String × String) := []
  bindings : List (String × String) := []

/-- The parts between slashes, of which there is at least one. -/
def slashParts : List Char → List (List Char)
  | [] => [[]]
  | c :: rest =>
    if c == '/' then [] :: slashParts rest
    else
      match slashParts rest with
      | [] => [[c]]
      | part :: parts => (c :: part) :: parts

/-- The parts of a path. -/
def pathParts (path : String) : List String :=
  (slashParts path.toList).map String.ofList

/-- The steps of a path, without those that lead nowhere. -/
def pathSteps (path : String) : List String :=
  (pathParts path).filter fun step => !step.isEmpty && step != "."

/-- The part of a file name behind its last dot, unless that dot is its first character. -/
def endingOf (name : String) : Option String :=
  match name.toList.reverse.span (· != '.') with
  | (_, []) => none
  | (_, [_]) => none
  | (ending, _) => some (String.ofList ending.reverse)

namespace Surroundings

/-- Where steps lead from a place that has been reached; places are told by the steps to them from
the working directory, in reverse. Nothing outside of it is known. -/
def lead? : (reached : List String) → List String → Option (List String)
  | reached, [] => some reached
  | [], ".." :: _ => none
  | _ :: reached, ".." :: rest => lead? reached rest
  | reached, step :: rest => lead? (step :: reached) rest

/-- Whether there is a directory at a place: the working directory, or one on the way to a file. -/
def isDirectory (surroundings : Surroundings) (place : List String) : Bool :=
  place.isEmpty || surroundings.files.any fun (name, _) =>
    let steps := pathSteps name
    (List.range steps.length).any fun count => lead? [] (steps.take count) == some place

/-- The directory that parts of a path lead to from one that has been reached. -/
def walk? (surroundings : Surroundings) (reached : List String) :
    List String → Option (List String)
  | [] => some reached
  | part :: rest =>
    if part.isEmpty || part == "." then surroundings.walk? reached rest
    else if part == ".." then
      match reached with
      | [] => none
      | _ :: reached => surroundings.walk? reached rest
    else if surroundings.isDirectory (part :: reached) then
      surroundings.walk? (part :: reached) rest
    else none

/-- The text of the file at a place. Of several names for the place the last one counts. -/
def fileAt? (surroundings : Surroundings) (place : List String) : Option String :=
  (surroundings.files.reverse.find? fun (name, _) =>
    lead? [] (pathSteps name) == some place).map (·.2)

/-- The text of the file that a path leads to, if it is there: one below the working directory, or
else the file of that very name. -/
def file? (surroundings : Surroundings) (path : String) : Option String :=
  let below : Option String :=
    match (pathParts path).reverse with
    | [] => none
    | last :: before =>
      if path.startsWith "/" || ["", ".", ".."].contains last then none
      else
        (surroundings.walk? [] before.reverse).bind fun directory =>
          surroundings.fileAt? (last :: directory)
  match below with
  | some text => some text
  | none => surroundings.files.lookup path

/-- The value of a variable. -/
def valueOf? (surroundings : Surroundings) (name : String) : Option String :=
  surroundings.bindings.lookup name

/-- A path without the steps that lead nowhere. -/
def plainPath (path : String) : String :=
  (if path.startsWith "/" then "/" else "") ++ "/".intercalate (pathSteps path)

/-- A path with an ending behind it. -/
def endedPath (path ending : String) : String :=
  plainPath path ++ "." ++ ending

/-- Whether a path ends with the name of a file, to which an ending can be added. -/
def isNamed (path : String) : Bool :=
  match (pathSteps path).getLast? with
  | none => false
  | some last => last != ".."

end Surroundings

end FiberPrograms
