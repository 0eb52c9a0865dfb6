import Latticed.Net.Identity
import Mathlib.Data.Sym.Sym2

/-!
# The channel binding

`channel_binding` hashes the certificates of both ends of a TLS connection.  A pairing exchange
mixes it into its transcript, so that a relay that ends TLS separately towards each device is
noticed.  Both ends derive the same value because the two digests are ordered before they are
hashed.
-/

namespace Latticed

namespace Net

/-- Two byte strings, the smaller one first. -/
def ordered (a b : Bytes) : Bytes × Bytes := if a ≤ b then (a, b) else (b, a)

theorem ordered_comm (a b : Bytes) : ordered a b = ordered b a := by
  unfold ordered
  by_cases hab : a ≤ b <;> by_cases hba : b ≤ a
  · rw [List.le_antisymm hab hba]
  · rw [if_pos hab, if_neg hba]
  · rw [if_neg hab, if_pos hba]
  · rcases List.le_total a b with h | h
    · exact absurd h hab
    · exact absurd h hba

theorem ordered_eq_of_pair {a b a' b' : Bytes} (h : s(a, b) = s(a', b')) :
    ordered a b = ordered a' b' := by
  rcases Sym2.eq_iff.1 h with ⟨rfl, rfl⟩ | ⟨rfl, rfl⟩
  · rfl
  · exact ordered_comm a b

/-- `CHANNEL_BINDING_CONTEXT`. -/
def channelBindingContext : Bytes := Rust.asBytes "lattice-channel-binding-v1"

/-- `channel_binding`; a certificate is the bytes of its DER encoding. -/
def channelBinding (sha256 : Bytes → Bytes32) (ownCert peerCert : Bytes) : Bytes32 :=
  let digests := ordered (sha256 ownCert).toList (sha256 peerCert).toList
  sha256 (channelBindingContext ++ digests.1 ++ digests.2)

/-- Both ends of a connection derive the same binding. -/
theorem channelBinding_comm (sha256 : Bytes → Bytes32) (a b : Bytes) :
    channelBinding sha256 a b = channelBinding sha256 b a := by
  simp only [channelBinding, ordered_comm (sha256 a).toList]

end Net

end Latticed
