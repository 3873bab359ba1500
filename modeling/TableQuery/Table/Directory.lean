import TableQuery.Table.Reader
import TableQuery.Text.Search

/-!
# The files of a directory

A join table may be a file, named by its path from a directory. A path is taken apart
at its slashes. Empty parts and single points stay in the directory that they are in, so
that only the other parts are steps.
-/

namespace TableQuery

/-- The files of a directory by name, with their lines. -/
abbrev Directory := List (String × List InputLine)

namespace Directory

/-- The parts of a path, between its slashes. -/
def parts (path : String) : List (List Char) :=
  Text.split ['/'] path.toList

/-- The parts of a path that lead elsewhere. -/
def steps (path : String) : List (List Char) :=
  (parts path).filter fun part => part != [] && part != ['.']

/-- Whether a path does not start from the directory. -/
def isAbsolute (path : String) : Bool :=
  path.toList.head? = some '/'

/-- Whether a path ends in a step, as a path to a file does. -/
def endsInStep (path : String) : Bool :=
  (parts path).getLast? = (steps path).getLast?

/-- The lines of the file at a path. A path without steps, or one step up, leads to a
directory, which can be opened but has no line to read. Nothing is known of what lies
outside the directory, so nothing is found there. -/
def linesAt (directory : Directory) (path : String) : Except TableError (List InputLine) :=
  if path.toList.contains '\x00' then
    .error (.unreadable .nullCharacter)
  else
    match steps path with
    | [] => .ok [.error (.unreadable .directory)]
    | [['.', '.']] => .ok [.error (.unreadable .directory)]
    | step :: others =>
      if isAbsolute path then
        .error (.missingJoinTable path)
      else if 255 < Text.Utf8.size step then
        .error (.unreadable .longName)
      else
        match directory.lookup (String.ofList (Text.joinWith ['/'] (step :: others))) with
        | some lines =>
          if endsInStep path then .ok lines else .error (.unreadable .notDirectory)
        | none =>
          if (directory.lookup (String.ofList step)).isSome then
            .error (.unreadable .notDirectory)
          else
            .error (.missingJoinTable path)

end Directory
end TableQuery
