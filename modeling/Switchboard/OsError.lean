/-!
# Operating-system errors

The failures of input and output that reach this library, each with the kind it is filed under
and its text.
-/
namespace Switchboard

/-- A failure of input or output. -/
inductive OsError where
  | notFound
  | notConnected
  | writeZero
  | unreachable
  | addrNotAvailable
  | invalidArgument
  | noDevice
  | isDirectory
  | notADirectory
  | nameTooLong
  | nulInName
  | addrInUse
  | other (text : String)
  deriving Repr, DecidableEq, Inhabited

namespace OsError

def kind : OsError → String
  | .notFound => "NotFound"
  | .notConnected => "NotConnected"
  | .writeZero => "WriteZero"
  | .unreachable => "NetworkUnreachable"
  | .addrNotAvailable => "AddrNotAvailable"
  | .invalidArgument => "InvalidInput"
  | .noDevice => "Uncategorized"
  | .isDirectory => "IsADirectory"
  | .notADirectory => "NotADirectory"
  | .nameTooLong => "InvalidFilename"
  | .nulInName => "InvalidInput"
  | .addrInUse => "AddrInUse"
  | .other _ => "Other"

def message : OsError → String
  | .notFound => "No such file or directory (os error 2)"
  | .notConnected => "not connected"
  | .writeZero => "write zero"
  | .unreachable => "Network is unreachable (os error 101)"
  | .addrNotAvailable => "Cannot assign requested address (os error 99)"
  | .invalidArgument => "Invalid argument (os error 22)"
  | .noDevice => "No such device (os error 19)"
  | .isDirectory => "Is a directory (os error 21)"
  | .notADirectory => "Not a directory (os error 20)"
  | .nameTooLong => "File name too long (os error 36)"
  | .nulInName => "file name contained an unexpected NUL byte"
  | .addrInUse => "Address already in use (os error 98)"
  | .other t => t

end OsError

end Switchboard
