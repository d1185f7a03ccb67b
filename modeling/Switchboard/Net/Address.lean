import Switchboard.OsError
/-!
# Socket addresses

An IPv4 address and a port (`a.b.c.d:port`), or a bracketed IPv6 address with an optional scope and
a port, parsed without looking names up. The host has only the loopback device, holding the IPv4
loopback range and no IPv6 address, and no route out; binding follows `Transport.bind`.
-/
namespace Switchboard.Net

/-- A socket address. -/
inductive SocketAddr where
  | v4 (octets : List Nat) (port : Nat)
  | v6 (groups : List Nat) (scope : Nat) (port : Nat)
  deriving Repr, DecidableEq

abbrev Reader (α : Type) := List Char → Option (α × List Char)

def digitValue (radix : Nat) (c : Char) : Option Nat :=
  let v := if '0' ≤ c && c ≤ '9' then c.toNat - 48
    else if 'a' ≤ c && c ≤ 'z' then c.toNat - 87
    else if 'A' ≤ c && c ≤ 'Z' then c.toNat - 55 else 99
  if v < radix then some v else none

/-- A number of at most `maxDigits` digits (any number when none) below `bound`; a leading zero
is refused before more digits unless `zeroPrefix`. -/
def number (radix bound : Nat) (maxDigits : Option Nat) (zeroPrefix : Bool) : Reader Nat := fun cs =>
  let ds := cs.takeWhile fun c => (digitValue radix c).isSome
  let v := ds.foldl (fun acc c => acc * radix + (digitValue radix c).getD 0) 0
  let tooMany := match maxDigits with
    | some m => m < ds.length
    | none => false
  if ds.isEmpty || tooMany || bound ≤ v || (!zeroPrefix && ds.head? == some '0' && 1 < ds.length) then none
  else some (v, cs.drop ds.length)

def expect (c : Char) : Reader Unit
  | d :: rest => if c == d then some ((), rest) else none
  | [] => none

def ipv4 : Reader (List Nat) := fun cs => do
  let (a, cs) ← number 10 256 (some 3) false cs
  let ((), cs) ← expect '.' cs
  let (b, cs) ← number 10 256 (some 3) false cs
  let ((), cs) ← expect '.' cs
  let (c, cs) ← number 10 256 (some 3) false cs
  let ((), cs) ← expect '.' cs
  let (d, cs) ← number 10 256 (some 3) false cs
  return ([a, b, c, d], cs)

/-- Up to `limit` colon-separated groups; the last two may be an IPv4 address when at least two
places are left. Answers the groups and whether they end in an IPv4 address. -/
def groups (limit : Nat) (first : Bool) : Reader (List Nat × Bool) := fun cs =>
  match limit with
  | 0 => some (([], false), cs)
  | k + 1 =>
    let sep : Option (List Char) := if first then some cs else (expect ':' cs).map (·.2)
    match sep with
    | none => some (([], false), cs)
    | some rest =>
      let four := if 2 ≤ k + 1 then ipv4 rest else none
      match four with
      | some ([a, b, c, d], r) => some (([a * 256 + b, c * 256 + d], true), r)
      | _ =>
        match number 16 65536 (some 4) true rest with
        | none => some (([], false), cs)
        | some (g, r) =>
          match groups k false r with
          | some ((gs, v4), r) => some ((g :: gs, v4), r)
          | none => some (([g], false), r)

def ipv6 : Reader (List Nat) := fun cs => do
  let ((head, headV4), cs) ← groups 8 true cs
  if head.length == 8 then return (head, cs)
  if headV4 then none
  let ((), cs) ← expect ':' cs
  let ((), cs) ← expect ':' cs
  let ((tail, _), cs) ← groups (8 - (head.length + 1)) true cs
  return (head ++ List.replicate (8 - head.length - tail.length) 0 ++ tail, cs)

def port : Reader Nat := fun cs => do
  let ((), cs) ← expect ':' cs
  number 10 65536 none true cs

def SocketAddr.parse? (s : String) : Option SocketAddr :=
  let cs := s.toList
  let v4 : Option SocketAddr := do
    let (o, r) ← ipv4 cs
    let (p, r) ← port r
    if r.isEmpty then some (.v4 o p) else none
  let v6 : Option SocketAddr := do
    let ((), r) ← expect '[' cs
    let (g, r) ← ipv6 r
    let (scope, r) := match expect '%' r >>= fun (_, r) => number 10 (Nat.pow 2 32) none true r with
      | some (sc, r) => (sc, r)
      | none => (0, r)
    let ((), r) ← expect ']' r
    let (p, r) ← port r
    if r.isEmpty then some (.v6 g scope p) else none
  v4 <|> v6

/-- What a socket carries: a stream of bytes or datagrams. -/
inductive Transport where
  | stream
  | datagram
  deriving DecidableEq, Repr

def loopbackDevice : Nat := 1

/-- Whether an IPv4 address can be bound: the wildcard and the rest of `0.0.0.0/8`, the limited
broadcast, multicast groups, and the host's own loopback range. -/
def ipv4Bindable : List Nat → Bool
  | [a, b, c, d] =>
    a == 0 || a == 127 || (224 ≤ a && a ≤ 239) || [a, b, c, d] == [255, 255, 255, 255]
  | _ => false

def mappedIpv4? : List Nat → Option (List Nat)
  | [0, 0, 0, 0, 0, 0xffff, hi, lo] => some [hi / 256, hi % 256, lo / 256, lo % 256]
  | _ => none

def isMulticast6 (g : List Nat) : Bool := 0xff00 ≤ g.headD 0

/-- Whether an IPv6 address only has a meaning on one device: link-local unicast `fe80::/10`, or
a multicast group of interface-local or link-local scope. -/
def needsDevice (g : List Nat) : Bool :=
  let first := g.headD 0
  first / 64 == 0xfe80 / 64 || (isMulticast6 g && (first % 16 == 1 || first % 16 == 2))

/-- Binds an address for a transport. An IPv4 address, bare or embedded in IPv6 as
`::ffff:a.b.c.d`, must be bindable; otherwise it cannot be assigned. A stream cannot bind an IPv6
multicast group. An IPv6 address that needs a device must name one by its scope, and the device
must exist; multicast groups then bind, and other addresses must be the host's own, which no
IPv6 address is. -/
def Transport.bind (t : Transport) : SocketAddr → Except OsError Unit
  | .v4 o _ => if ipv4Bindable o then .ok () else .error .addrNotAvailable
  | .v6 g scope _ =>
    if isMulticast6 g && t == .stream then .error .invalidArgument
    else if g == List.replicate 8 0 then .ok ()
    else match mappedIpv4? g with
      | some o => if ipv4Bindable o then .ok () else .error .addrNotAvailable
      | none =>
        if needsDevice g && scope == 0 then .error .invalidArgument
        else if needsDevice g && scope != loopbackDevice then .error .noDevice
        else if isMulticast6 g then .ok ()
        else .error .addrNotAvailable

def SocketAddr.connect (_ : SocketAddr) : Except OsError Unit := .error .unreachable

end Switchboard.Net
