import Mathlib.Logic.Basic

/-! # Encryption of secrets

`crypto.rs` under the key of the installation.  The cipher is AES-256-GCM.
-/

namespace PatchManager

structure Crypto where
  /-- what a ciphertext and a nonce stand for -/
  decrypt : List UInt8 → List UInt8 → Option String

/-- The ciphertext has a tag of 16 bytes, and `decrypt` undoes what `encrypt` has done. -/
def Crypto.isEncryption (crypto : Crypto) (plaintext : String) (ciphertext nonce : List UInt8) : Bool :=
  crypto.decrypt ciphertext nonce == some plaintext && ciphertext.length == plaintext.utf8ByteSize + 16 &&
    nonce.length == 12

variable {crypto : Crypto} {plaintext : String} {ciphertext nonce : List UInt8}

theorem Crypto.decrypt_encryption (encryption : crypto.isEncryption plaintext ciphertext nonce = true) :
    crypto.decrypt ciphertext nonce = some plaintext := by
  simp only [isEncryption, Bool.and_eq_true, beq_iff_eq] at encryption
  exact encryption.1.1

theorem Crypto.nonempty (encryption : crypto.isEncryption plaintext ciphertext nonce = true) :
    ciphertext ≠ [] ∧ nonce ≠ [] := by
  simp only [isEncryption, Bool.and_eq_true, beq_iff_eq] at encryption
  constructor
  · exact List.ne_nil_of_length_pos (by omega)
  · exact List.ne_nil_of_length_pos (by omega)

end PatchManager
