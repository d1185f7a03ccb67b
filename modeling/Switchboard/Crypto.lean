/-!
# The cryptography library

The handshake takes SHA-1 and Base64 from the TLS library, so both are a parameter here.
-/
namespace Switchboard

/-- The functions of the cryptography library that the opening handshake calls. -/
class Crypto where
  sha1 : List UInt8 → List UInt8
  base64 : List UInt8 → String

def isBase64Digit (c : Char) : Bool := c.isAlphanum || c == '+' || c == '/' || c == '='

/-- What the handshake assumes of the library: Base64 writes only characters of its alphabet, four
for every three bytes begun. -/
structure Crypto.Lawful [Crypto] : Prop where
  alphabet : ∀ bs, ∀ c ∈ (Crypto.base64 bs).toList, isBase64Digit c = true
  length : ∀ bs, (Crypto.base64 bs).length = 4 * ((bs.length + 2) / 3)

end Switchboard
