import Switchboard.Text.Ascii
/-!
# Request paths and content types

A request path is the part of a URL before the first `?` or `#`. A file's content type follows
from the extension of its name: the last component of its path (empty components and `.` do not
count; `..` has no name), after its last dot, unless that dot is the name's first character. The
extension is compared without regard to ASCII case.
-/
namespace Switchboard.Web

def requestPath (url : String) : String :=
  String.ofList (url.toList.takeWhile fun c => c != '?' && c != '#')

def fileName? (path : String) : Option String :=
  match ((path.splitOn "/").filter fun p => p != "" && p != ".").getLast? with
  | some ".." => none
  | some n => some n
  | none => none

def extension? (name : String) : Option String :=
  if name == ".." then none
  else
    let cs := name.toList
    match (cs.reverse.findIdx? (· == '.')) with
    | none => none
    | some k =>
      let before := cs.take (cs.length - 1 - k)
      if before.isEmpty then none else some (String.ofList (cs.drop (cs.length - k)))

def mimeType (path : String) : String :=
  match ((fileName? path).bind extension?).map (String.map Ascii.lower) with
  | some "html" | some "htm" => "text/html; charset=UTF-8"
  | some "css" => "text/css; charset=UTF-8"
  | some "js" | some "mjs" => "text/javascript; charset=UTF-8"
  | some "json" => "application/json"
  | some "txt" => "text/plain; charset=UTF-8"
  | some "xml" => "application/xml"
  | some "svg" => "image/svg+xml"
  | some "png" => "image/png"
  | some "jpg" | some "jpeg" => "image/jpeg"
  | some "gif" => "image/gif"
  | some "ico" => "image/x-icon"
  | some "webp" => "image/webp"
  | some "wasm" => "application/wasm"
  | some "pdf" => "application/pdf"
  | some "woff" => "font/woff"
  | some "woff2" => "font/woff2"
  | _ => "application/octet-stream"

end Switchboard.Web
