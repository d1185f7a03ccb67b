import Switchboard.Http.Error
/-!
# Status codes

Status codes run from 100 to 599. Each known code has its reason phrase; every other code reads
"Unknown".
-/
namespace Switchboard.Http

def reasonPhrase : Nat → String
  | 100 => "Continue"
  | 101 => "Switching Protocols"
  | 102 => "Processing"
  | 103 => "Early Hints"
  | 200 => "OK"
  | 201 => "Created"
  | 202 => "Accepted"
  | 203 => "Non-Authoritative Information"
  | 204 => "No Content"
  | 205 => "Reset Content"
  | 206 => "Partial Content"
  | 300 => "Multiple Choices"
  | 301 => "Moved Permanently"
  | 302 => "Found"
  | 303 => "See Other"
  | 304 => "Not Modified"
  | 305 => "Use Proxy"
  | 307 => "Temporary Redirect"
  | 308 => "Permanent Redirect"
  | 400 => "Bad Request"
  | 401 => "Unauthorized"
  | 402 => "Payment Required"
  | 403 => "Forbidden"
  | 404 => "Not Found"
  | 405 => "Method Not Allowed"
  | 406 => "Not Acceptable"
  | 407 => "Proxy Authentication Required"
  | 408 => "Request Timeout"
  | 409 => "Conflict"
  | 410 => "Gone"
  | 411 => "Length Required"
  | 412 => "Precondition Failed"
  | 413 => "Payload Too Large"
  | 414 => "URI Too Long"
  | 415 => "Unsupported Media Type"
  | 416 => "Range Not Satisfiable"
  | 417 => "Expectation Failed"
  | 421 => "Misdirected Request"
  | 422 => "Unprocessable Entity"
  | 426 => "Upgrade Required"
  | 428 => "Precondition Required"
  | 429 => "Too Many Requests"
  | 431 => "Request Header Fields Too Large"
  | 500 => "Internal Server Error"
  | 501 => "Not Implemented"
  | 502 => "Bad Gateway"
  | 503 => "Service Unavailable"
  | 504 => "Gateway Timeout"
  | 505 => "HTTP Version Not Supported"
  | _ => "Unknown"

/-- A status code within 100..599. -/
structure Status where
  code : Nat
  low : 100 ≤ code
  high : code < 600

namespace Status

def ofCode (code : Nat) : Except HttpError Status :=
  if h : 100 ≤ code ∧ code < 600 then .ok ⟨code, h.1, h.2⟩
  else .error (.invalidStatus s!"Invalid status code: {code}")

def reason (s : Status) : String := reasonPhrase s.code

def isSuccess (s : Status) : Bool := 200 ≤ s.code && s.code < 300

def isClientError (s : Status) : Bool := 400 ≤ s.code && s.code < 500

def isServerError (s : Status) : Bool := 500 ≤ s.code && s.code < 600

def render (s : Status) : String := s!"{s.code} {s.reason}"

end Status

end Switchboard.Http
