/-!
# White space

The characters with the Unicode White_Space property: the ASCII controls tab to carriage return,
space, next line, no-break space, ogham space mark, the spaces from en quad to hair space, line and
paragraph separators, narrow no-break space, medium mathematical space and ideographic space.
-/
namespace Switchboard

def isWhiteSpace (c : Char) : Bool :=
  let n := c.toNat
  (9 ≤ n && n ≤ 13) || n == 32 || n == 0x85 || n == 0xA0 || n == 0x1680 ||
    (0x2000 ≤ n && n ≤ 0x200A) || n == 0x2028 || n == 0x2029 || n == 0x202F || n == 0x205F ||
    n == 0x3000

end Switchboard
