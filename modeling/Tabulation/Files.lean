/-! Files: paths as text, and reading a file by its path. -/
namespace Tabulation

/-- Why a file cannot be read. -/
inductive FileFault where
  | notFound
  | notDirectory
  | isDirectory
  | invalidName
  | nameTooLong
  | other (reason : String)
deriving DecidableEq, Repr

def FileFault.message : FileFault → String
  | .notFound => "No such file or directory (os error 2)"
  | .notDirectory => "Not a directory (os error 20)"
  | .isDirectory => "Is a directory (os error 21)"
  | .invalidName => "file name contained an unexpected NUL byte"
  | .nameTooLong => "File name too long (os error 36)"
  | .other reason => reason

namespace FilePath

/-- The parts between the slashes. -/
def parts (path : String) : List String := path.splitOn "/"

/-- Whether a part says nothing: it is empty or a dot. -/
def isIdle (part : String) : Bool := part = "" ∨ part = "."

/-- A part of a path has at most this many bytes. -/
def maxPartSize : Nat := 255

/-- A path has at most this many bytes. -/
def maxSize : Nat := 4095

def isAbsolute (path : String) : Bool := path.toList.head? = some '/'

/-- Drops idle parts at the end. The first part stays: it may be the root or a dot that leads. -/
def dropIdle : List String → List String
  | [] => []
  | first :: rest => first :: ((rest.reverse.dropWhile isIdle).reverse)

/-- The directory of a path, empty for a name alone. The root and the empty path have none. -/
def parent? (path : String) : Option String :=
  match dropIdle (parts path) with
  | [] | [""] => none
  | [_] => some ""
  | found =>
    match dropIdle found.dropLast with
    | [""] => some "/"
    | kept => some ("/".intercalate kept)

/-- A path within a directory. An absolute path stands for itself. -/
def join (directory path : String) : String :=
  if isAbsolute path then path
  else if directory = "" ∨ directory.toList.getLast? = some '/' then directory ++ path
  else directory ++ "/" ++ path

end FilePath

/-- The files below a working directory, by path. -/
abbrev FileTree := List (String × String)

namespace FileTree

/-- The names from the working directory down to each file. -/
def names (tree : FileTree) : List (List String × String) :=
  tree.map fun file => ((FilePath.parts file.1).filter fun part => !FilePath.isIdle part, file.2)

/-- Whether a path leads to a directory. -/
def hasDirectory (tree : FileTree) (path : List String) : Bool :=
  path.isEmpty || tree.names.any fun file =>
    path.length < file.1.length && path.isPrefixOf file.1

/-- Follows parts from a directory. It is given by its names, last first, if it is the working
directory or lies in it; of other directories no entries are known. -/
def follow (tree : FileTree) (directory : Option (List String)) :
    List String → Except FileFault String
  | [] => .error .isDirectory
  | part :: rest =>
    if FilePath.isIdle part then follow tree directory rest
    else if part = ".." then
      match directory with
      | some (_ :: outer) => follow tree (some outer) rest
      | _ => follow tree none rest
    else if FilePath.maxPartSize < part.utf8ByteSize then .error .nameTooLong
    else
      match directory with
      | none => .error .notFound
      | some names =>
        let here := part :: names
        if tree.hasDirectory here.reverse then follow tree (some here) rest
        else
          match tree.names.lookup here.reverse with
          | some text => if rest.isEmpty then .ok text else .error .notDirectory
          | none => .error .notFound

/-- Reads a file by its path from the working directory. -/
def read (tree : FileTree) (path : String) : Except FileFault String :=
  if path.contains '\x00' then .error .invalidName
  else if path = "" then .error .notFound
  else if FilePath.maxSize < path.utf8ByteSize then .error .nameTooLong
  else tree.follow (if FilePath.isAbsolute path then none else some []) (FilePath.parts path)

end FileTree

end Tabulation
