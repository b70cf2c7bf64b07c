
/-!
Numbers in bytes. A number of fixed width has its high byte first. A number of varying
width has seven bits in a byte for as long as the top bit is set, and all eight bits of the
ninth byte. Past the end of the bytes there are only zeros.
-/

set_option autoImplicit false
set_option relaxedAutoImplicit false

namespace TreeAudit.Database.Bytes

def byteAt (bytes : ByteArray) (offset : Nat) : Nat :=
  if h : offset < bytes.size then (bytes.get offset h).toNat else 0

/-- The number in `width` bytes from an offset. -/
def numberAt (bytes : ByteArray) (offset width : Nat) : Nat :=
  (List.range width).foldl (fun value place ↦ 256 * value + byteAt bytes (offset + place)) 0

/-- Reads on in a number of varying width, of which at most `left` bytes are to come before
the ninth. Gives the number and the offset behind it. -/
def varyingFrom (bytes : ByteArray) : (left offset value : Nat) → Nat × Nat
  | 0, offset, value => (256 * value + byteAt bytes offset, offset + 1)
  | left + 1, offset, value =>
    let byte := byteAt bytes offset
    if byte < 128 then (128 * value + byte, offset + 1)
    else varyingFrom bytes left (offset + 1) (128 * value + byte % 128)

/-- The number of varying width at an offset, and the offset behind it. -/
def varyingAt (bytes : ByteArray) (offset : Nat) : Nat × Nat := varyingFrom bytes 8 offset 0

/-- The number of varying width at an offset, which counts as `2 ^ 32 - 1` if it is larger,
and the offset behind it. -/
def shortVaryingAt (bytes : ByteArray) (offset : Nat) : Nat × Nat :=
  let (value, next) := varyingAt bytes offset
  (min value (0x100000000 - 1), next)

/-- The number that some bits stand for when the top one of them counts negatively. -/
def signed (bits value : Nat) : Int :=
  if value < Nat.pow 2 (bits - 1) then value else value - Nat.pow 2 bits

end TreeAudit.Database.Bytes
