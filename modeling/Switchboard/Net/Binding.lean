import Switchboard.Net.Address
/-!
# Bound sockets

The sockets bound on the host, and when binding one more conflicts with them. Ports are per
transport. A socket bound to port zero gets a free port from the host and conflicts with nothing.
Two sockets claim the same local address when their addresses are equal or either is a wildcard.
An IPv4 socket compares with an IPv6 one through the IPv4 address the IPv6 one stands for. An IPv6
socket compares with an IPv4 one only when it is the IPv6 wildcard or an embedded IPv4 address.
Stream sockets here are listening, and no socket can share a listener's address. Datagram sockets
may share one when both allow the address to be reused.
-/
namespace Switchboard.Net

def SocketAddr.port : SocketAddr → Nat
  | .v4 _ p => p
  | .v6 _ _ p => p

def ipv6Wildcard : List Nat := List.replicate 8 0

def isIpv4Wildcard (o : List Nat) : Bool := o == [0, 0, 0, 0]

/-- The IPv4 address a socket stands for next to IPv4 sockets: its own, the one embedded as
`::ffff:a.b.c.d`, the wildcard for the IPv6 wildcard, and `127.0.0.6` for any other IPv6
address. -/
def SocketAddr.ipv4View : SocketAddr → List Nat
  | .v4 o _ => o
  | .v6 g _ _ => if g == ipv6Wildcard then [0, 0, 0, 0] else (mappedIpv4? g).getD [127, 0, 0, 6]

def sameIpv4 (a b : List Nat) : Bool := a == b || isIpv4Wildcard a || isIpv4Wildcard b

def SocketAddr.overlaps (a b : SocketAddr) : Bool :=
  match a, b with
  | .v4 o _, b => sameIpv4 o b.ipv4View
  | .v6 g _ _, .v4 o _ =>
    match mappedIpv4? g with
    | some m => sameIpv4 m o
    | none => g == ipv6Wildcard
  | .v6 g _ _, .v6 h _ _ =>
    match mappedIpv4? g, mappedIpv4? h with
    | some m, some n => sameIpv4 m n
    | _, _ => g == ipv6Wildcard || h == ipv6Wildcard || g == h

/-- A socket bound on the host: what it carries, where, and whether it lets others reuse its
address. -/
structure Binding where
  transport : Transport
  address : SocketAddr
  reusable : Bool
  deriving DecidableEq, Repr

/-- Whether a bound socket stands in the way of binding `a` for `t`: same transport and port
(not zero), overlapping addresses, and the address not shared. A listening stream socket never
shares it; datagram sockets share it when both allow reuse. -/
def Binding.blocks (b : Binding) (t : Transport) (reusable : Bool) (a : SocketAddr) : Bool :=
  b.transport == t && a.port != 0 && b.address.port == a.port && a.overlaps b.address &&
    (t == .stream || !(reusable && b.reusable))

/-- Binds an address on a host with the given bound sockets. The address must be one the host
can bind (`Transport.bind`), and then no bound socket may stand in the way. Answers the bound
sockets with the new one last. -/
def Transport.bindAmong (t : Transport) (bound : List Binding) (reusable : Bool) (a : SocketAddr) :
    Except OsError (List Binding) := do
  t.bind a
  if bound.any (·.blocks t reusable a) then throw .addrInUse
  return bound ++ [⟨t, a, reusable⟩]

end Switchboard.Net
