/-!
# Ideal authenticated encryption

A ciphertext opens under the key and the associated data it was made with, and
under no others.  Which nonce goes with it is left open: it says nothing about
the plaintext.
-/

namespace HoprStrategy.Library

structure Aead (Key Nonce Aad Plain Cipher : Type) where
  encrypt : Key → Nonce → Aad → Plain → Option Cipher
  decrypt : Key → Nonce → Aad → Cipher → Option Plain

namespace Aead

variable {Key Nonce Aad Plain Cipher : Type}

structure Ideal (aead : Aead Key Nonce Aad Plain Cipher) : Prop where
  decrypts : ∀ {key nonce aad plain cipher},
    aead.encrypt key nonce aad plain = some cipher →
      aead.decrypt key nonce aad cipher = some plain
  bound : ∀ {key nonce aad plain cipher other reader context opened},
    aead.encrypt key nonce aad plain = some cipher →
      aead.decrypt reader other context cipher = some opened →
        reader = key ∧ context = aad

variable {aead : Aead Key Nonce Aad Plain Cipher}

/-- What is read from a ciphertext is what was put into it, by the holder of
the same key, for the same associated data. -/
theorem Ideal.origin (hideal : aead.Ideal) {key reader : Key} {nonce : Nonce}
    {aad context : Aad} {plain opened : Plain} {cipher : Cipher}
    (hencrypt : aead.encrypt key nonce aad plain = some cipher)
    (hdecrypt : aead.decrypt reader nonce context cipher = some opened) :
    reader = key ∧ context = aad ∧ opened = plain := by
  obtain ⟨hkey, haad⟩ := hideal.bound hencrypt hdecrypt
  subst hkey
  subst haad
  have hplain := hideal.decrypts hencrypt
  rw [hdecrypt, Option.some.injEq] at hplain
  exact ⟨rfl, rfl, hplain⟩

/-- Encryption in the symbolic model: the ciphertext carries what it was made
of. -/
def symbolic [DecidableEq Key] [DecidableEq Aad]
    (pack : Key × Aad × Plain → Cipher)
    (unpack : Cipher → Option (Key × Aad × Plain)) :
    Aead Key Nonce Aad Plain Cipher where
  encrypt key _ aad plain := some (pack (key, aad, plain))
  decrypt key _ aad cipher :=
    match unpack cipher with
    | some (maker, context, plain) =>
        if key = maker ∧ aad = context then some plain else none
    | none => none

theorem symbolic_ideal [DecidableEq Key] [DecidableEq Aad]
    {pack : Key × Aad × Plain → Cipher}
    {unpack : Cipher → Option (Key × Aad × Plain)}
    (hunpack : ∀ made, unpack (pack made) = some made) :
    (symbolic pack unpack : Aead Key Nonce Aad Plain Cipher).Ideal := by
  constructor
  · intro key nonce aad plain cipher hencrypt
    cases hencrypt
    simp [symbolic, hunpack]
  · intro key nonce aad plain cipher other reader context opened hencrypt
      hdecrypt
    cases hencrypt
    simp only [symbolic, hunpack, Option.ite_none_right_eq_some] at hdecrypt
    exact hdecrypt.1

end Aead

end HoprStrategy.Library
