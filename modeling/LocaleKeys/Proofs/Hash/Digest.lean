import LocaleKeys.Hash.Sha256
import Mathlib.Data.List.Basic
import LocaleKeys.Proofs.Text.Point

/-!
The shape of a digest: sixty-four lower-case hexadecimal digits, whatever the message is.
-/

namespace LocaleKeys.Sha256

theorem length_bytesOf (n value : Nat) : (bytesOf n value).length = n := by
  induction n generalizing value with
  | zero => rfl
  | succ n ih => rw [bytesOf, List.length_append, ih, List.length_singleton]

/-- Bytes as two digits each. -/
def hexDigits (bytes : List UInt8) : List Point :=
  bytes.flatMap fun b => [Nat.digitChar (b.toNat / 16), Nat.digitChar (b.toNat % 16)]

theorem length_hexDigits (bytes : List UInt8) : (hexDigits bytes).length = 2 * bytes.length := by
  induction bytes with
  | nil => rfl
  | cons b bytes ih =>
      have hcons : hexDigits (b :: bytes) =
          [Point.char (Nat.digitChar (b.toNat / 16)), Nat.digitChar (b.toNat % 16)] ++
            hexDigits bytes := rfl
      rw [hcons, List.length_append, ih, List.length_cons, List.length_cons, List.length_nil,
        List.length_cons]
      omega

theorem mem_hexDigits {bytes : List UInt8} {c : Point} (h : c ∈ hexDigits bytes) :
    ∃ n < 16, c = Nat.digitChar n := by
  obtain ⟨b, -, hc⟩ := List.mem_flatMap.mp h
  have hb : b.toNat < 256 := b.toNat_lt
  rcases List.mem_pair.mp hc with rfl | rfl
  · exact ⟨b.toNat / 16, by omega, rfl⟩
  · exact ⟨b.toNat % 16, Nat.mod_lt _ (by decide), rfl⟩

/-- A digest is thirty-two bytes in hexadecimal. -/
theorem hexDigest_eq (message : List UInt8) :
    ∃ bytes, bytes.length = 32 ∧ (hexDigest message).toList = hexDigits bytes := by
  refine ⟨_, ?_, Text.toList_ofList _⟩
  simp [length_bytesOf]

theorem length_hexDigest (message : List UInt8) : (hexDigest message).toList.length = 64 := by
  obtain ⟨bytes, hlength, heq⟩ := hexDigest_eq message
  rw [heq, length_hexDigits, hlength]

theorem mem_hexDigest {message : List UInt8} {c : Point} (h : c ∈ (hexDigest message).toList) :
    ∃ n < 16, c = Nat.digitChar n := by
  obtain ⟨bytes, -, heq⟩ := hexDigest_eq message
  rw [heq] at h
  exact mem_hexDigits h

end LocaleKeys.Sha256
