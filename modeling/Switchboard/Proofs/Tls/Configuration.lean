import Switchboard.Proofs.Tls.Alpn
/-!
# Building TLS configurations

A server without a certificate file takes the library's self-signed certificate for `localhost`,
whatever the library; a lawful library names `localhost` in it and lets a client offer its
protocols.
-/
namespace Switchboard.Tls

section Library

variable [TlsLibrary]

theorem serverConfig_of_no_certificate (s : TlsSettings) (files : FileSystem) (noCert : s.certFile = none)
    {lo hi : Option Version} (readLo : Version.parse? s.minVersion = .ok lo)
    (readHi : Version.parse? s.maxVersion = .ok hi) (ordered : checkRange lo hi = .ok ()) :
    serverConfig s files = (TlsLibrary.selfSigned "localhost").map fun info =>
      { isServer := true, minVersion := lo, maxVersion := hi, alpn := s.alpn, identity := some info } := by
  cases made : TlsLibrary.selfSigned "localhost" <;>
    simp [serverConfig, readLo, readHi, ordered, noCert, made, bind, Except.bind, pure, Except.pure, Except.map]

/-- Under a lawful library, a server whose versions read and are in order and that names no
certificate file is built with a certificate for `localhost`. -/
theorem serverConfig_self_signed_localhost (lawful : TlsLibrary.Lawful) (s : TlsSettings) (files : FileSystem)
    (noCert : s.certFile = none) {lo hi : Option Version} (readLo : Version.parse? s.minVersion = .ok lo)
    (readHi : Version.parse? s.maxVersion = .ok hi) (ordered : checkRange lo hi = .ok ()) :
    ∃ c info, serverConfig s files = .ok c ∧ c.isServer = true ∧ c.identity = some info ∧
      info.subject = "localhost" ∧ info.issuer = "localhost" ∧ "DNS:localhost" ∈ info.altNames ∧
      "IP:127.0.0.1" ∈ info.altNames := by
  obtain ⟨info, made, subject, issuer, named, address⟩ := lawful.localhost
  rw [serverConfig_of_no_certificate s files noCert readLo readHi ordered, made]
  exact ⟨_, info, rfl, rfl, rfl, subject, issuer, named, address⟩

/-- Under a lawful library, a client with no trust file, its versions in order and its protocols
each nonempty and at most 255 bytes long, is built with the options it was given. -/
theorem ClientBuilder.build_of_lawful (lawful : TlsLibrary.Lawful) (b : ClientBuilder) (files : FileSystem)
    (ordered : checkRange b.minVersion b.maxVersion = .ok ()) (noCa : b.caFile = none)
    (named : ∀ p ∈ b.alpn, p ≠ "") (fit : ∀ p ∈ b.alpn, p.utf8ByteSize ≤ 255) :
    b.build files = some (.ok { isServer := false, servername := b.servername, minVersion := b.minVersion,
                                maxVersion := b.maxVersion, alpn := b.alpn }) := by
  have written : alpnWire b.alpn = .ok (wire b.alpn) := by
    rw [alpnWire_eq]
    have none : b.alpn.find? (255 < ·.utf8ByteSize) = none := by
      simp only [List.find?_eq_none, decide_eq_true_eq, Nat.not_lt]
      exact fit
    rw [none]
  have offered := lawful.offers b.alpn _ named written
  simp only [ClientBuilder.build, ordered, noCa, Option.map_none]
  cases empty : b.alpn.isEmpty <;>
    simp [written, offered, bind, Except.bind, pure, Except.pure]

end Library

/-- A library that meets the contract: a certificate names what it was made for, and every call
succeeds. -/
abbrev TlsLibrary.sample : TlsLibrary where
  selfSigned n := .ok ⟨n, n, ["DNS:" ++ n, "DNS:localhost", "IP:127.0.0.1"]⟩
  certificateFromPem _ := .ok ⟨"", "", []⟩
  privateKeyFromPem _ := .ok ()
  useIdentity _ _ := .ok ()
  setCaFile _ _ := some (.ok ())
  setAlpnProtos _ := .ok ()

theorem TlsLibrary.sample_lawful : @TlsLibrary.Lawful TlsLibrary.sample :=
  @TlsLibrary.Lawful.mk TlsLibrary.sample ⟨_, rfl, rfl, rfl, by simp, by simp⟩ fun _ _ _ _ => rfl

end Switchboard.Tls
