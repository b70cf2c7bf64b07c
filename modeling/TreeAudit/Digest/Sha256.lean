import TreeAudit.Numeric.Natural

/-!
SHA-256: a fingerprint of 256 bits for any sequence of bytes. The bytes are padded to
whole blocks, with their number of bits at the end, and every block is mixed into a
state of eight words.
-/

set_option autoImplicit false
set_option relaxedAutoImplicit false

namespace TreeAudit.Digest.Sha256

structure State where
  a : UInt32
  b : UInt32
  c : UInt32
  d : UInt32
  e : UInt32
  f : UInt32
  g : UInt32
  h : UInt32

def State.add (s t : State) : State :=
  ⟨s.a + t.a, s.b + t.b, s.c + t.c, s.d + t.d, s.e + t.e, s.f + t.f, s.g + t.g, s.h + t.h⟩

def State.words (s : State) : List UInt32 := [s.a, s.b, s.c, s.d, s.e, s.f, s.g, s.h]

def initial : State :=
  ⟨0x6a09e667, 0xbb67ae85, 0x3c6ef372, 0xa54ff53a, 0x510e527f, 0x9b05688c, 0x1f83d9ab,
    0x5be0cd19⟩

def constants : List UInt32 :=
  [0x428a2f98, 0x71374491, 0xb5c0fbcf, 0xe9b5dba5, 0x3956c25b, 0x59f111f1, 0x923f82a4,
    0xab1c5ed5, 0xd807aa98, 0x12835b01, 0x243185be, 0x550c7dc3, 0x72be5d74, 0x80deb1fe,
    0x9bdc06a7, 0xc19bf174, 0xe49b69c1, 0xefbe4786, 0x0fc19dc6, 0x240ca1cc, 0x2de92c6f,
    0x4a7484aa, 0x5cb0a9dc, 0x76f988da, 0x983e5152, 0xa831c66d, 0xb00327c8, 0xbf597fc7,
    0xc6e00bf3, 0xd5a79147, 0x06ca6351, 0x14292967, 0x27b70a85, 0x2e1b2138, 0x4d2c6dfc,
    0x53380d13, 0x650a7354, 0x766a0abb, 0x81c2c92e, 0x92722c85, 0xa2bfe8a1, 0xa81a664b,
    0xc24b8b70, 0xc76c51a3, 0xd192e819, 0xd6990624, 0xf40e3585, 0x106aa070, 0x19a4c116,
    0x1e376c08, 0x2748774c, 0x34b0bcb5, 0x391c0cb3, 0x4ed8aa4a, 0x5b9cca4f, 0x682e6ff3,
    0x748f82ee, 0x78a5636f, 0x84c87814, 0x8cc70208, 0x90befffa, 0xa4506ceb, 0xbef9a3f7,
    0xc67178f2]

def rotate (word : UInt32) (count : UInt32) : UInt32 :=
  (word >>> count) ||| (word <<< (32 - count))

def choose (x y z : UInt32) : UInt32 := (x &&& y) ^^^ (~~~x &&& z)

def majority (x y z : UInt32) : UInt32 := (x &&& y) ^^^ (x &&& z) ^^^ (y &&& z)

def spreadA (x : UInt32) : UInt32 := rotate x 2 ^^^ rotate x 13 ^^^ rotate x 22

def spreadE (x : UInt32) : UInt32 := rotate x 6 ^^^ rotate x 11 ^^^ rotate x 25

def blendLow (x : UInt32) : UInt32 := rotate x 7 ^^^ rotate x 18 ^^^ (x >>> 3)

def blendHigh (x : UInt32) : UInt32 := rotate x 17 ^^^ rotate x 19 ^^^ (x >>> 10)

def round (s : State) (constant word : UInt32) : State :=
  let t := s.h + spreadE s.e + choose s.e s.f s.g + constant + word
  let u := spreadA s.a + majority s.a s.b s.c
  ⟨t + u, s.a, s.b, s.c, s.d + t, s.e, s.f, s.g⟩

/-- The word after the sixteen given. -/
def nextWord (window : List UInt32) : UInt32 :=
  blendHigh (window.getD 14 0) + window.getD 9 0 + blendLow (window.getD 1 0) + window.getD 0 0

/-- Runs a round for each constant. The first word of the window is its word, and the
window moves on by one. -/
def rounds (s : State) (window : List UInt32) : List UInt32 → State
  | [] => s
  | constant :: rest =>
    rounds (round s constant (window.getD 0 0)) (window.drop 1 ++ [nextWord window]) rest

/-- Mixes a block of sixteen words into a state. -/
def mix (s : State) (block : List UInt32) : State := s.add (rounds s block constants)

def wordOf : List UInt8 → UInt32 :=
  List.foldl (fun word byte ↦ (word <<< 8) ||| byte.toUInt32) 0

/-- Consecutive groups of `size` elements, as many as are asked for. -/
def groups {α : Type} (size : Nat) : (count : Nat) → List α → List (List α)
  | 0, _ => []
  | count + 1, elements => elements.take size :: groups size count (elements.drop size)

def bigEndian (n : Nat) : (bytes : Nat) → List UInt8
  | 0 => []
  | bytes + 1 => .ofNat (n / Nat.pow 256 bytes) :: bigEndian n bytes

/-- A one bit, zeros, and the number of bits, up to whole blocks of 64 bytes. -/
def padded (bytes : List UInt8) : List UInt8 :=
  let zeros := (64 - (bytes.length + 9) % 64) % 64
  bytes ++ 0x80 :: List.replicate zeros 0 ++ bigEndian (8 * bytes.length) 8

def blocks (bytes : List UInt8) : List (List UInt32) :=
  (groups 64 (bytes.length / 64) bytes).map fun block ↦ (groups 4 16 block).map wordOf

def digest (bytes : List UInt8) : List UInt8 :=
  ((blocks (padded bytes)).foldl mix initial).words.flatMap fun word ↦ bigEndian word.toNat 4

def hexDigits : List Char := "0123456789abcdef".toList

def hexByte (byte : UInt8) : List Char :=
  [hexDigits.getD (byte.toNat / 16) '0', hexDigits.getD (byte.toNat % 16) '0']

/-- The fingerprint in hexadecimal digits. -/
def hex (bytes : List UInt8) : String := String.ofList ((digest bytes).flatMap hexByte)

end TreeAudit.Digest.Sha256
