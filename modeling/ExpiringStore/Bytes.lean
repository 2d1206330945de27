/-!
# Byte strings

Keys, values and everything that crosses a connection are byte strings. They are lists, so that
framing, escaping and decoding are recursions on the data.
-/

namespace ExpiringStore

/-- A string of bytes. -/
abbrev Bytes := List UInt8

namespace Bytes

/-- The eight bytes of a 64-bit word, most significant first. -/
def ofWord64 (w : UInt64) : Bytes :=
  ([56, 48, 40, 32, 24, 16, 8, 0] : List UInt64).map fun shift => (w >>> shift).toUInt8

/-- The four bytes of a 32-bit word, most significant first. -/
def ofWord32 (w : UInt32) : Bytes :=
  ([24, 16, 8, 0] : List UInt32).map fun shift => (w >>> shift).toUInt8

theorem length_ofWord64 (w : UInt64) : (ofWord64 w).length = 8 := rfl

end Bytes

end ExpiringStore
