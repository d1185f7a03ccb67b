import Switchboard.Tls.Config
import Switchboard.Server.Report
/-!
# Reports of TLS values

Errors are reported by kind with their text; errors of the TLS library and failed handshakes by
kind alone, as their text belongs to the library.
-/
namespace Switchboard.Tls

def TlsError.kind : TlsError → String
  | .library => "OpenSsl"
  | .io _ => "Io"
  | .invalidVersion _ => "InvalidVersion"
  | .invalidConfig _ => "InvalidConfig"
  | .certificate _ => "Certificate"
  | .handshakeFailed _ => "HandshakeFailed"

def TlsError.report (e : TlsError) : Report :=
  match e with
  | .library | .handshakeFailed _ => .record [("error", .text e.kind)]
  | _ => Report.error e.kind e.message

def reportTls {α : Type} (f : α → Report) : Except TlsError α → Report
  | .ok a => f a
  | .error e => e.report

def CertInfo.report (c : CertInfo) : Report :=
  .record [("subject", .text c.subject), ("issuer", .text c.issuer), ("subject_alt_names", Report.texts c.altNames)]

end Switchboard.Tls
