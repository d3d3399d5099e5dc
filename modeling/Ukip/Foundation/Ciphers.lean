import Mathlib.Data.List.Basic

/-!
# Ciphers and rings of keys

A cipher that tells a wrong key: what a key has enciphered is opened by that key and refused
by every other one.  A ring tries its keys in turn, so it opens exactly what one of them
has enciphered.
-/

namespace Foundation.Ciphers

structure Cipher (Key Nonce Text : Type) where
  encipher : Key → Nonce → Text → Text
  /-- `none` where the text is no token of the key -/
  decipher : Key → Text → Option Text

variable {Key Nonce Text : Type}

structure Cipher.Lawful (cipher : Cipher Key Nonce Text) : Prop where
  decipher_encipher : ∀ key nonce text, cipher.decipher key (cipher.encipher key nonce text) = some text
  decipher_other : ∀ key other nonce text, other ≠ key →
    cipher.decipher other (cipher.encipher key nonce text) = none

def Cipher.decipherAny (cipher : Cipher Key Nonce Text) (keys : List Key) (token : Text) :
    Option Text :=
  keys.findSome? fun key => cipher.decipher key token

variable {cipher : Cipher Key Nonce Text} {key : Key}

theorem Cipher.Lawful.decipherAny_of_mem (lawful : cipher.Lawful) {keys : List Key}
    (member : key ∈ keys) (nonce : Nonce) (text : Text) :
    cipher.decipherAny keys (cipher.encipher key nonce text) = some text := by
  unfold decipherAny
  induction keys with
  | nil => cases member
  | cons head rest ih =>
    rw [List.findSome?_cons]
    by_cases same : head = key
    · rw [same, lawful.decipher_encipher]
    · rw [lawful.decipher_other key head nonce text same]
      exact ih ((List.mem_cons.mp member).resolve_left fun here => same here.symm)

theorem Cipher.Lawful.decipherAny_of_not_mem (lawful : cipher.Lawful) {keys : List Key}
    (missing : key ∉ keys) (nonce : Nonce) (text : Text) :
    cipher.decipherAny keys (cipher.encipher key nonce text) = none := by
  unfold decipherAny
  refine List.findSome?_eq_none_iff.mpr fun other member => ?_
  refine lawful.decipher_other key other nonce text ?_
  rintro rfl
  exact missing member

theorem Cipher.Lawful.encipher_ne (lawful : cipher.Lawful) {text : Text}
    (unopened : cipher.decipher key text = none) (nonce : Nonce) :
    cipher.encipher key nonce text ≠ text := by
  intro same
  have opened := lawful.decipher_encipher key nonce text
  rw [same, unopened] at opened
  cases opened

end Foundation.Ciphers
