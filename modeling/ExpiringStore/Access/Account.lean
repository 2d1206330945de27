import ExpiringStore.Access.Level
import ExpiringStore.Hash.Sha256
import ExpiringStore.Text.Utf8

/-!
# Accounts

An account does not hold its password but a digest of the user's name and the password together.
The name goes in with its length in front, so no two pairs of name and password give the same
message. Digests are compared over all of their bytes, wherever the first difference is, and a login
under an unknown name goes through the same digest and comparison as any other.
-/

namespace ExpiringStore

/-- A digest of 32 bytes. -/
structure Digest where
  /-- The bytes. -/
  bytes : Bytes
  /-- There are 32 of them. -/
  length_eq : bytes.length = 32
deriving DecidableEq

namespace Digest

/-- The digest of 32 zero bytes. -/
def zero : Digest := ⟨List.replicate 32 0, by simp⟩

/-- The message whose digest stands for a password. -/
def credentials (username password : String) : Bytes :=
  let name := Utf8.encode username
  Bytes.ofWord64 (UInt64.ofNat name.length) ++ name ++ Utf8.encode password

/-- The digest that stands for a password. -/
def ofCredentials (username password : String) : Digest :=
  ⟨Sha256.hash (credentials username password), Sha256.length_hash _⟩

/-- Whether two digests agree. Every pair of bytes contributes its differing bits, and none may
remain. -/
def agrees (a b : Digest) : Bool :=
  (List.zipWith (· ^^^ ·) a.bytes b.bytes).foldl (· ||| ·) 0 == 0

end Digest

/-- A known user. -/
structure Account where
  /-- The user's name. -/
  username : String
  /-- The digest that stands for the password. -/
  password : Digest
  /-- What the user may do. -/
  access : AccessLevel
deriving DecidableEq

namespace Account

/-- The account of a user with a password. -/
def create (username password : String) (access : AccessLevel) : Account :=
  ⟨username, .ofCredentials username password, access⟩

/-- Whether a password is the account's. -/
def accepts (a : Account) (password : String) : Bool :=
  a.password.agrees (.ofCredentials a.username password)

/-- What stands in for `accepts` where there is no account: the same work, and always a refusal. -/
def acceptsStranger (username password : String) : Bool :=
  Digest.zero.agrees (.ofCredentials username password) && false

end Account

end ExpiringStore
