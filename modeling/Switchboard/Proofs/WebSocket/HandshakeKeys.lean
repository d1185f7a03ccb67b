import Switchboard.Proofs.Http.Composing
import Switchboard.WebSocket.Handshake
/-!
# Handshake keys

Nonces and accept keys for every source of random bytes and every lawful library.
-/
namespace Switchboard

theorem Entropy.length_bytes (g : Entropy) (n : Nat) : (g.bytes n).1.length = n := by
  simp [Entropy.bytes]

theorem Entropy.exists_bytes (nonce : List UInt8) : ∃ g : Entropy, (g.bytes nonce.length).1 = nonce := by
  refine ⟨{ draw := fun i => nonce.getD i 0 }, List.ext_getElem (Entropy.length_bytes _ _) fun i _ inside => ?_⟩
  simp [Entropy.bytes, List.getD_eq_getElem?_getD, List.getElem?_eq_getElem inside]

section Lawful

variable [Crypto]

theorem Crypto.Lawful.headerValue_base64 (lawful : Crypto.Lawful) (bs : List UInt8) :
    Http.HeaderValue (Crypto.base64 bs) := by
  have plain : ∀ c ∈ (Crypto.base64 bs).toList, c ≠ '\r' ∧ c ≠ ' ' ∧ c ≠ '\t' := by
    intro c mem
    have digit := lawful.alphabet bs c mem
    refine ⟨?_, ?_, ?_⟩ <;> rintro rfl <;> exact absurd digit (by decide)
  exact ⟨fun mem => (plain _ mem).1 rfl, fun first => (plain _ (List.mem_of_mem_head? first)).2.1 rfl,
    fun first => (plain _ (List.mem_of_mem_head? first)).2.2 rfl⟩

theorem WebSocket.generateKey_eq (g : Entropy) :
    WebSocket.generateKey g = (Crypto.base64 (g.bytes 16).1, (g.bytes 16).2) := rfl

theorem WebSocket.exists_generateKey {nonce : List UInt8} (sixteen : nonce.length = 16) :
    ∃ g : Entropy, (WebSocket.generateKey g).1 = Crypto.base64 nonce := by
  obtain ⟨g, drawn⟩ := Entropy.exists_bytes nonce
  exact ⟨g, by rw [WebSocket.generateKey_eq, ← sixteen, drawn]⟩

theorem WebSocket.headerValue_acceptKey (lawful : Crypto.Lawful) (key : String) :
    Http.HeaderValue (WebSocket.acceptKey key) :=
  lawful.headerValue_base64 _

end Lawful

/-- A lawful library for closed instances of the theorems: every digest is empty, and Base64 writes
`A` at each place of its text. -/
abbrev Crypto.sample : Crypto :=
  ⟨fun _ => [], fun bs => String.ofList (List.replicate (4 * ((bs.length + 2) / 3)) 'A')⟩

theorem Crypto.sample_lawful : @Crypto.Lawful Crypto.sample := by
  refine @Crypto.Lawful.mk Crypto.sample (fun bs c mem => ?_) (fun bs => ?_)
  · have : c = 'A' := (by simpa [Crypto.base64] using mem : _ ∧ c = 'A').2
    subst this
    rfl
  · simp [Crypto.base64]

end Switchboard
