import Mathlib.Tactic

/-!
# Authenticated ciphers

A correct authenticated cipher: what was encrypted under a key decrypts under
that key, and no token is accepted under two keys.
-/

/-- A correct authenticated cipher; `Seed` is what makes two tokens of one
message differ. -/
structure AuthCipher (Key Seed Message Token : Type) where
  encrypt : Key → Seed → Message → Token
  decrypt : Key → Token → Option Message
  decrypt_encrypt : ∀ k s m, decrypt k (encrypt k s m) = some m
  key_unique : ∀ k k' t m m', decrypt k t = some m → decrypt k' t = some m' → k = k'

namespace AuthCipher

variable {Key Seed Message Token : Type} (c : AuthCipher Key Seed Message Token)

/-- A token that is accepted under one key is refused under every other. -/
theorem decrypt_other (k k' : Key) (t : Token) (m : Message) (h : c.decrypt k t = some m)
    (hne : k' ≠ k) : c.decrypt k' t = none := by
  cases h' : c.decrypt k' t with
  | none => rfl
  | some m' => exact absurd (c.key_unique k' k t m' m h' h) hne

/-- The cipher whose tokens show their key. -/
def envelope (Key Seed Message : Type) [DecidableEq Key] :
    AuthCipher Key Seed Message (Key × Seed × Message) where
  encrypt k s m := (k, s, m)
  decrypt k t := if t.1 = k then some t.2.2 else none
  decrypt_encrypt _ _ _ := if_pos rfl
  key_unique k k' t m m' h h' := by
    have hk := (Option.ite_none_right_eq_some.mp h).1
    have hk' := (Option.ite_none_right_eq_some.mp h').1
    exact hk.symm.trans hk'

end AuthCipher
