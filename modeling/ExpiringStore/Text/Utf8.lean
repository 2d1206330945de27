import ExpiringStore.Bytes

/-!
# UTF-8

`encode` writes a text as bytes. Reading goes through `pieces`, which cuts any byte string into
well-formed characters and ill-formed chunks. A chunk is a maximal subpart: the longest run of bytes
that begins some well-formed character but is not carried to its end, or a single byte that begins
none. `decode?` accepts a byte string without ill-formed chunks, and `decodeLossy` puts one
replacement character in place of each.

The decoder holds the character under way as a `Pending`: the range that the next byte must lie
in, how many bytes follow that one, and the value so far. Only the byte after the lead has a range
narrower than `80..BF`; that range shuts out overlong forms, surrogates and values past `10FFFF`.
-/

namespace ExpiringStore.Utf8

/-- A continuation byte with the low six bits of `n`. -/
def continuation (n : Nat) : UInt8 := UInt8.ofNat (0x80 + n % 0x40)

/-- The bytes of one character. -/
def encodeChar (c : Char) : Bytes :=
  let n := c.toNat
  if n < 0x80 then
    [UInt8.ofNat n]
  else if n < 0x800 then
    [UInt8.ofNat (0xC0 + n / 0x40), continuation n]
  else if n < 0x10000 then
    [UInt8.ofNat (0xE0 + n / 0x1000), continuation (n / 0x40), continuation n]
  else
    [UInt8.ofNat (0xF0 + n / 0x40000), continuation (n / 0x1000), continuation (n / 0x40),
     continuation n]

/-- The bytes of a text. -/
def encode (text : String) : Bytes := text.toList.flatMap encodeChar

/-- A character of which some bytes have been read. -/
structure Pending where
  /-- The least value the next byte may have. -/
  low : UInt8
  /-- The greatest value the next byte may have. -/
  high : UInt8
  /-- How many bytes follow the next one. -/
  more : Nat
  /-- The bits read so far. -/
  value : Nat
deriving DecidableEq

/-- What a byte is where a character may begin. -/
inductive Lead where
  /-- A character of its own. -/
  | ascii
  /-- The first byte of a longer character. -/
  | opens (pending : Pending)
  /-- A byte that begins no character. -/
  | illFormed

/-- Classifies a byte that stands where a character may begin. -/
def lead (b : UInt8) : Lead :=
  if b < 0x80 then .ascii
  else if b < 0xC2 then .illFormed
  else if b < 0xE0 then .opens ⟨0x80, 0xBF, 0, b.toNat - 0xC0⟩
  else if b = 0xE0 then .opens ⟨0xA0, 0xBF, 1, 0⟩
  else if b = 0xED then .opens ⟨0x80, 0x9F, 1, 0xD⟩
  else if b < 0xF0 then .opens ⟨0x80, 0xBF, 1, b.toNat - 0xE0⟩
  else if b = 0xF0 then .opens ⟨0x90, 0xBF, 2, 0⟩
  else if b < 0xF4 then .opens ⟨0x80, 0xBF, 2, b.toNat - 0xF0⟩
  else if b = 0xF4 then .opens ⟨0x80, 0x8F, 2, 4⟩
  else .illFormed

/-- A decoder between two bytes. -/
structure Decoder where
  /-- What has been read, the latest first; `none` is an ill-formed chunk. -/
  out : List (Option Char)
  /-- The character under way, if there is one. -/
  pending : Option Pending

namespace Decoder

/-- Takes in a byte where a character may begin, after `out`. -/
def begin (out : List (Option Char)) (b : UInt8) : Decoder :=
  match lead b with
  | .ascii => ⟨some (Char.ofNat b.toNat) :: out, none⟩
  | .opens pending => ⟨out, some pending⟩
  | .illFormed => ⟨none :: out, none⟩

/-- Takes in a byte. One that does not carry on the character under way ends an ill-formed chunk and
is looked at anew. -/
def step (d : Decoder) (b : UInt8) : Decoder :=
  match d.pending with
  | none => begin d.out b
  | some pending =>
    if pending.low ≤ b ∧ b ≤ pending.high then
      let value := pending.value * 0x40 + (b.toNat - 0x80)
      match pending.more with
      | 0 => ⟨some (Char.ofNat value) :: d.out, none⟩
      | more + 1 => ⟨d.out, some ⟨0x80, 0xBF, more, value⟩⟩
    else begin (none :: d.out) b

/-- What has been read when no byte follows. -/
def finish (d : Decoder) : List (Option Char) :=
  match d.pending with
  | none => d.out.reverse
  | some _ => (none :: d.out).reverse

end Decoder

/-- Cuts bytes into characters and, as `none`, ill-formed chunks. -/
def pieces (bytes : Bytes) : List (Option Char) :=
  (bytes.foldl Decoder.step ⟨[], none⟩).finish

/-- The text that the bytes encode, if they are well-formed throughout. -/
def decode? (bytes : Bytes) : Option String :=
  ((pieces bytes).mapM id).map String.ofList

/-- The text of the bytes, each ill-formed chunk replaced by U+FFFD. -/
def decodeLossy (bytes : Bytes) : String :=
  String.ofList ((pieces bytes).map (·.getD '\uFFFD'))

end ExpiringStore.Utf8
