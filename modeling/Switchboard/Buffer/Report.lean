import Switchboard.Buffer
import Switchboard.Report
/-!
# Reports of byte buffers

A buffer is reported by its length, capacity, read position, contents and the contents from the
read position on.
-/
namespace Switchboard.ByteBuffer

def Reply.report : Reply → Report
  | .unit => .null
  | .count c => .num c
  | .text t => .text t
  | .byte b => .num b.toNat
  | .outOfRange e => Report.error "OutOfRange" e.message
  | .fault => .record [("error", .text "panic")]

def report (b : ByteBuffer) : Report :=
  .record [("len", .num b.length), ("capacity", .num b.capacity), ("position", .num b.position),
    ("is_empty", .bool b.isEmpty), ("data", Report.bytes b.bytes), ("remaining", Report.bytes b.remaining)]

end Switchboard.ByteBuffer
