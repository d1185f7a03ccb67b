import Switchboard.Proofs.Text.Utf8
import Switchboard.Tls.Config

/-!
# Choosing an application protocol

Every byte list reads as exactly one list of entries (`Offers`), the server's cursor picks the first
entry it accepts (`selectProtocol_eq_find?`), and what `alpnWire` writes reads back as the protocols
written (`server_picks_the_first_offered_protocol_it_accepts`).
-/

namespace Switchboard

theorem length_utf8 (s : String) : (utf8 s).length = s.utf8ByteSize := by
  rw [utf8, ByteArray.toList, toList_loop_eq, String.toUTF8_eq_toByteArray, ← String.size_toByteArray]
  simp only [List.reverse_nil, List.nil_append, List.drop_zero, Array.length_toList]
  rfl

namespace Tls

/-! ## Reading an offer list -/

/-- The entries a byte list in the wire format offers: each a length byte and that many bytes,
read in order up to the end or up to an entry whose length runs past the end. -/
inductive Offers : List UInt8 → List (List UInt8) → Prop
  | nil : Offers [] []
  | truncated {n : UInt8} {rest : List UInt8} (short : rest.length < n.toNat) : Offers (n :: rest) []
  | entry {n : UInt8} {p rest : List UInt8} {ps : List (List UInt8)} (sized : p.length = n.toNat)
      (more : Offers rest ps) : Offers (n :: (p ++ rest)) (p :: ps)

theorem offers_cons_iff (n : UInt8) (rest : List UInt8) (ps : List (List UInt8)) :
    Offers (n :: rest) ps ↔ (rest.length < n.toNat ∧ ps = []) ∨
      (n.toNat ≤ rest.length ∧ ∃ ps', ps = rest.take n.toNat :: ps' ∧ Offers (rest.drop n.toNat) ps') := by
  constructor
  · intro h
    cases h with
    | truncated short => exact Or.inl ⟨short, rfl⟩
    | @entry _ p rest' ps' sized more =>
      have front : (p ++ rest').take n.toNat = p := List.take_left' sized
      have back : (p ++ rest').drop n.toNat = rest' := List.drop_left' sized
      refine Or.inr ⟨by simp only [List.length_append]; omega, ps', ?_, ?_⟩
      · rw [front]
      · rwa [back]
  · rintro (⟨short, rfl⟩ | ⟨fits, ps', rfl, more⟩)
    · exact .truncated short
    · have whole := Offers.entry (n := n) (p := rest.take n.toNat) (by simp; omega) more
      rwa [List.take_append_drop] at whole

theorem offers_nil_iff (ps : List (List UInt8)) : Offers [] ps ↔ ps = [] := by
  constructor
  · intro h
    cases h
    rfl
  · rintro rfl
    exact .nil

/-- Every byte list reads as some list of entries. -/
theorem exists_offers : (b : List UInt8) → ∃ ps, Offers b ps
  | [] => ⟨[], .nil⟩
  | n :: rest =>
    if short : rest.length < n.toNat then ⟨[], .truncated short⟩
    else
      have : (rest.drop n.toNat).length < (n :: rest).length := by
        simp only [List.length_drop, List.length_cons]
        omega
      have ⟨ps, more⟩ := exists_offers (rest.drop n.toNat)
      ⟨_, (offers_cons_iff n rest _).2 (Or.inr ⟨by omega, ps, rfl, more⟩)⟩
termination_by b => b.length

/-- A byte list reads as one list of entries only. -/
theorem Offers.unique {b : List UInt8} {ps qs : List (List UInt8)} (h : Offers b ps) (h' : Offers b qs) :
    ps = qs := by
  induction h generalizing qs with
  | nil => exact ((offers_nil_iff qs).1 h').symm
  | truncated short =>
    rcases (offers_cons_iff _ _ qs).1 h' with ⟨-, rfl⟩ | ⟨fits, -⟩
    · rfl
    · omega
  | @entry n p rest ps sized more ih =>
    rcases (offers_cons_iff _ _ qs).1 h' with ⟨short, -⟩ | ⟨-, qs', rfl, more'⟩
    · simp only [List.length_append] at short
      omega
    · rw [List.drop_left' sized] at more'
      rw [List.take_left' sized, ih more']

/-! ## The server's scan -/

theorem scan_eq_find? (accepted : List (List UInt8)) (offered : List UInt8) (pos : Nat)
    {ps : List (List UInt8)} (offers : Offers (offered.drop pos) ps) :
    selectProtocol.scan accepted offered pos = ps.find? (fun p => p ∈ accepted) := by
  fun_induction selectProtocol.scan accepted offered pos generalizing ps with
  | case1 pos inside len =>
    -- the entry at the cursor runs past the end, so no entry is read from here
    rw [List.drop_eq_getElem_cons inside, offers_cons_iff] at offers
    rcases offers with ⟨-, rfl⟩ | ⟨fits, -⟩
    · rfl
    · simp only [List.length_drop] at fits
      omega
  | case2 pos inside len fits candidate =>
    rename_i picked
    have mem : (offered.drop (pos + 1)).take offered[pos].toNat ∈ accepted := by simpa using picked
    rw [List.drop_eq_getElem_cons inside, offers_cons_iff] at offers
    rcases offers with ⟨short, -⟩ | ⟨-, ps', rfl, -⟩
    · simp only [List.length_drop] at short
      omega
    · rw [List.find?_cons_of_pos (p := fun q => decide (q ∈ accepted)) (decide_eq_true mem)]
  | case3 pos inside len fits candidate passed =>
    rename_i ih
    have gone : (offered.drop (pos + 1)).take offered[pos].toNat ∉ accepted := by simpa using passed
    rw [List.drop_eq_getElem_cons inside, offers_cons_iff] at offers
    rcases offers with ⟨short, -⟩ | ⟨-, ps', rfl, more⟩
    · simp only [List.length_drop] at short
      omega
    · -- the next entry starts right after this one
      rw [List.drop_drop] at more
      rw [ih more, List.find?_cons_of_neg (p := fun q => decide (q ∈ accepted)) fun h => gone (of_decide_eq_true h)]
  | case4 pos outside =>
    rw [List.drop_of_length_le (Nat.le_of_not_lt outside), offers_nil_iff] at offers
    rw [offers]
    rfl

/-- The server picks the first entry of the offer list that it accepts. -/
theorem selectProtocol_eq_find? (accepted : List (List UInt8)) {offered : List UInt8}
    {ps : List (List UInt8)} (offers : Offers offered ps) :
    selectProtocol accepted offered = ps.find? (fun p => p ∈ accepted) :=
  scan_eq_find? accepted offered 0 (by rwa [List.drop_zero])

/-! ## Writing an offer list -/

def wire (protocols : List String) : List UInt8 :=
  protocols.flatMap fun p => p.utf8ByteSize.toUInt8 :: utf8 p

/-- Writing protocols fails at the first one longer than 255 bytes, and otherwise lays them out
one after another. -/
theorem alpnWire_eq (protocols : List String) :
    alpnWire protocols = match protocols.find? (255 < ·.utf8ByteSize) with
      | some p => .error (.invalidConfig ("ALPN protocol too long: " ++ p))
      | none => .ok (wire protocols) := by
  induction protocols with
  | nil => rfl
  | cons p ps ih =>
    rw [alpnWire, length_utf8]
    by_cases long : 255 < p.utf8ByteSize
    · rw [if_pos long, List.find?_cons_of_pos (by simpa using long)]
    · rw [if_neg long, List.find?_cons_of_neg (by simpa using long), ih]
      split
      · rfl
      · simp [wire, Except.map]

/-- What is written reads back as the protocols written. -/
theorem offers_wire {protocols : List String} (fit : ∀ p ∈ protocols, p.utf8ByteSize ≤ 255) :
    Offers (wire protocols) (protocols.map utf8) := by
  induction protocols with
  | nil => exact .nil
  | cons p ps ih =>
    have small := fit p List.mem_cons_self
    have sized : (utf8 p).length = p.utf8ByteSize.toUInt8.toNat := by
      have byte : p.utf8ByteSize.toUInt8.toNat = p.utf8ByteSize := by
        rw [Nat.toUInt8_eq, UInt8.toNat_ofNat', Nat.mod_eq_of_lt (by omega)]
      rw [length_utf8, byte]
    exact .entry sized (ih fun q mem => fit q (List.mem_cons_of_mem p mem))

/-- Whatever a client offers, well formed or cut short, a server configuration reads it as one list
of entries and picks the first of them among its own protocols, or none. Writing a client's
protocols fails, naming the first one longer than 255 bytes, exactly when there is one; otherwise
it lays each one out after its length, and that list reads back as the client's protocols, so the
server picks the first protocol of the client's list that it also accepts. -/
theorem server_picks_the_first_offered_protocol_it_accepts (c : TlsConfig) (offered : List UInt8)
    (protocols : List String) :
    (∃ ps, Offers offered ps ∧ (∀ qs, Offers offered qs → qs = ps) ∧
      c.selectAlpn offered = ps.find? (fun p => p ∈ c.alpn.map utf8)) ∧
    ((∃ e, alpnWire protocols = .error e) ↔ ∃ p ∈ protocols, 255 < p.utf8ByteSize) ∧
    (∀ e, alpnWire protocols = .error e →
      ∃ p ∈ protocols, 255 < p.utf8ByteSize ∧ e = .invalidConfig ("ALPN protocol too long: " ++ p)) ∧
    (∀ w, alpnWire protocols = .ok w →
      w = protocols.flatMap (fun p => p.utf8ByteSize.toUInt8 :: utf8 p) ∧ Offers w (protocols.map utf8) ∧
        c.selectAlpn w = (protocols.map utf8).find? (fun p => p ∈ c.alpn.map utf8)) := by
  obtain ⟨ps, offers⟩ := exists_offers offered
  refine ⟨⟨ps, offers, fun qs other => other.unique offers, selectProtocol_eq_find? _ offers⟩, ?_, ?_, ?_⟩
  · rw [alpnWire_eq]
    split
    · next p first =>
      obtain ⟨long, mem⟩ : 255 < p.utf8ByteSize ∧ p ∈ protocols :=
        ⟨by simpa using List.find?_some first, List.mem_of_find?_eq_some first⟩
      exact ⟨fun _ => ⟨p, mem, long⟩, fun _ => ⟨_, rfl⟩⟩
    · next none =>
      simp only [List.find?_eq_none, decide_eq_true_eq] at none
      simp only [reduceCtorEq, exists_false, false_iff, not_exists, not_and]
      exact none
  · intro e failed
    rw [alpnWire_eq] at failed
    split at failed
    · next p first =>
      cases failed
      exact ⟨p, List.mem_of_find?_eq_some first, by simpa using List.find?_some first, rfl⟩
    · cases failed
  · intro w written
    rw [alpnWire_eq] at written
    split at written
    · cases written
    · next none =>
      cases written
      have fit : ∀ p ∈ protocols, p.utf8ByteSize ≤ 255 := by
        simp only [List.find?_eq_none, decide_eq_true_eq] at none
        exact fun p mem => Nat.le_of_not_lt (none p mem)
      exact ⟨rfl, offers_wire fit, selectProtocol_eq_find? _ (offers_wire fit)⟩

end Tls

end Switchboard
