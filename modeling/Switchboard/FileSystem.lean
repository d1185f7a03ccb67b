import Switchboard.OsError
/-!
# The host's file system

Files and directories by absolute path, with a working directory, and the reading of a file by a
path resolved as the operating system resolves it: a NUL or a path of 4096 bytes or more is refused
first, `.` and `..` move as usual, a missing name is not found, a name over 255 bytes is too long,
and only a directory can be walked through or not read as a file.
-/
namespace Switchboard

/-- What a path names: a file with its bytes, or a directory. -/
inductive FileEntry where
  | file (bytes : List UInt8)
  | directory

/-- Files by absolute path components, directories named on their own, and the working
directory. The root, every directory above a file or a named directory, and every named
directory exist. -/
structure FileSystem where
  files : List (List String × List UInt8) := []
  directories : List (List String) := []
  workingDirectory : List String := []

namespace FileSystem

def pathMax : Nat := 4096

def nameMax : Nat := 255

def entry? (fs : FileSystem) (path : List String) : Option FileEntry :=
  match fs.files.lookup path with
  | some bytes => some (.file bytes)
  | none =>
    if path.isEmpty || fs.directories.any (path.isPrefixOf ·) || fs.files.any (path.isPrefixOf ·.1) then
      some .directory
    else none

/-- Walks components from the directory `here`. `trailingSlash` marks a path that ends with a
slash, which only a directory can satisfy. Ending at a directory fails, since a directory is not
read as a file. -/
def walk (fs : FileSystem) (trailingSlash : Bool) (here : List String) :
    List String → Except OsError (List UInt8)
  | [] => .error .isDirectory
  | "." :: rest => fs.walk trailingSlash here rest
  | ".." :: rest => fs.walk trailingSlash here.dropLast rest
  | name :: rest =>
    if nameMax < name.utf8ByteSize then .error .nameTooLong
    else match fs.entry? (here ++ [name]) with
      | none => .error .notFound
      | some .directory => fs.walk trailingSlash (here ++ [name]) rest
      | some (.file bytes) => if rest.isEmpty && !trailingSlash then .ok bytes else .error .notADirectory

def read (fs : FileSystem) (path : String) : Except OsError (List UInt8) :=
  if path.contains '\x00' then .error .nulInName
  else if pathMax ≤ path.utf8ByteSize then .error .nameTooLong
  else if path.isEmpty then .error .notFound
  else
    let start := if path.startsWith "/" then [] else fs.workingDirectory
    fs.walk (path.endsWith "/") start ((path.splitOn "/").filter (· != ""))

end FileSystem

end Switchboard
