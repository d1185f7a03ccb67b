import Switchboard.Http.Response
import Switchboard.Web.Path
/-!
# Static content

A cache of ready `200 OK` responses, kept as wire bytes under the path they are served at. A file
is served with the content type of its name. A folder is served below a prefix (its trailing
slashes dropped): each file at the prefix followed by its path, and each `index.html` also at its
directory's path with a trailing slash. Look-ups ignore the URL's query and fragment.
-/
namespace Switchboard.Web

open Switchboard.Http

/-- Wire bytes of responses by the path they are served at. -/
structure StaticContent where
  entries : List (String × List UInt8) := []
  deriving Repr

namespace StaticContent

def insert (c : StaticContent) (path : String) (wire : List UInt8) : StaticContent :=
  if c.entries.any (·.1 == path) then
    ⟨c.entries.map fun e => if e.1 == path then (path, wire) else e⟩
  else ⟨c.entries ++ [(path, wire)]⟩

def servedFile (name : String) (content : List UInt8) : List UInt8 :=
  (({} : Response).makeGet content (mimeType name)).raw

def registerFile (c : StaticContent) (path name : String) (content : List UInt8) : StaticContent :=
  c.insert path (servedFile name content)

/-- A folder's files by their relative path; a later file of a path that resolves to the same
file replaces an earlier one. -/
abbrev Folder := List (String × List UInt8)

/-- The components of a path inside a folder as the file system resolves them: an empty or `.`
component stays in its directory and `..` goes up to the parent. None when the path is absolute,
climbs out of the folder or names the folder itself. -/
def components? (path : String) : Option (List String) := do
  if path.startsWith "/" then none
  let ks ← (path.splitOn "/").foldlM (fun (acc : List String) p =>
    if p == "" || p == "." then some acc
    else if p == ".." then (if acc.isEmpty then none else some acc.dropLast)
    else some (acc ++ [p])) []
  if ks.isEmpty then none else some ks

/-- The distinct files of a folder, each with its last content, by path components; paths that
do not name a file inside the folder are left out. -/
def Folder.files (f : Folder) : List (List String × List UInt8) :=
  f.foldl (fun (acc : List (List String × List UInt8)) e =>
    match components? e.1 with
    | none => acc
    | some k =>
      if acc.any (·.1 == k) then acc.map (fun x => if x.1 == k then (k, e.2) else x) else acc ++ [(k, e.2)]) []

def registerFolder (c : StaticContent) (base : String) (folder : Folder) : Nat × StaticContent :=
  let root := String.ofList (base.toList.reverse.dropWhile (· == '/')).reverse
  let files := folder.files
  (files.length, files.foldl (fun (c : StaticContent) (f : List String × List UInt8) =>
    let name := f.1.getLastD ""
    let dir := root ++ String.join (f.1.dropLast.map ("/" ++ ·))
    let wire := servedFile name f.2
    let c := c.insert (dir ++ "/" ++ name) wire
    if name == "index.html" then c.insert (dir ++ "/") wire else c) c)

def get? (c : StaticContent) (url : String) : Option (List UInt8) := c.entries.lookup (requestPath url)

def remove (c : StaticContent) (path : String) : Bool × StaticContent :=
  (c.entries.any (·.1 == path), ⟨c.entries.filter (·.1 != path)⟩)

def size (c : StaticContent) : Nat := c.entries.length

end StaticContent

end Switchboard.Web
