/-!
# Reports

A report is the structured description of a value that the library gives out: absent, a truth
value, a natural number, a text, a list or a record of named parts. Bytes are reported as
lowercase hexadecimal text.
-/
namespace Switchboard

/-- A structured description of a value. -/
inductive Report where
  | null
  | bool (b : Bool)
  | num (n : Nat)
  | int (i : Int)
  | text (s : String)
  | list (items : List Report)
  | record (fields : List (String × Report))
  deriving Repr, Inhabited

namespace Report

instance : Coe Bool Report := ⟨.bool⟩
instance : Coe String Report := ⟨.text⟩

def hexDigit (n : Nat) : Char := if n < 10 then Char.ofNat (48 + n) else Char.ofNat (87 + n)

def hex (bs : List UInt8) : String :=
  String.ofList (bs.flatMap fun b => [hexDigit (b.toNat / 16), hexDigit (b.toNat % 16)])

def bytes (bs : List UInt8) : Report := .text (hex bs)

def opt {α : Type} (f : α → Report) : Option α → Report
  | some a => f a
  | none => .null

def texts (l : List String) : Report := .list (l.map .text)

def pairs (l : List (String × String)) : Report := .list (l.map fun p => .list [.text p.1, .text p.2])

def withField (r : Report) (k : String) (v : Report) : Report :=
  match r with
  | .record fs => .record ((k, v) :: fs)
  | r => r

def error (kind message : String) : Report := .record [("error", .text kind), ("message", .text message)]

end Report

end Switchboard
