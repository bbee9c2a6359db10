/-!
# SHA-256

The digest of a byte sequence, as a list of 32 bytes, and its leading bytes read as a number.
-/

namespace Tidemark.Sha256

/-- The round constants. -/
def roundConstants : Array UInt32 := #[
  0x428a2f98, 0x71374491, 0xb5c0fbcf, 0xe9b5dba5, 0x3956c25b, 0x59f111f1, 0x923f82a4, 0xab1c5ed5,
  0xd807aa98, 0x12835b01, 0x243185be, 0x550c7dc3, 0x72be5d74, 0x80deb1fe, 0x9bdc06a7, 0xc19bf174,
  0xe49b69c1, 0xefbe4786, 0x0fc19dc6, 0x240ca1cc, 0x2de92c6f, 0x4a7484aa, 0x5cb0a9dc, 0x76f988da,
  0x983e5152, 0xa831c66d, 0xb00327c8, 0xbf597fc7, 0xc6e00bf3, 0xd5a79147, 0x06ca6351, 0x14292967,
  0x27b70a85, 0x2e1b2138, 0x4d2c6dfc, 0x53380d13, 0x650a7354, 0x766a0abb, 0x81c2c92e, 0x92722c85,
  0xa2bfe8a1, 0xa81a664b, 0xc24b8b70, 0xc76c51a3, 0xd192e819, 0xd6990624, 0xf40e3585, 0x106aa070,
  0x19a4c116, 0x1e376c08, 0x2748774c, 0x34b0bcb5, 0x391c0cb3, 0x4ed8aa4a, 0x5b9cca4f, 0x682e6ff3,
  0x748f82ee, 0x78a5636f, 0x84c87814, 0x8cc70208, 0x90befffa, 0xa4506ceb, 0xbef9a3f7, 0xc67178f2]

/-- The eight words that the compression function transforms. -/
structure Words where
  a : UInt32
  b : UInt32
  c : UInt32
  d : UInt32
  e : UInt32
  f : UInt32
  g : UInt32
  h : UInt32

/-- The words before the first block. -/
def Words.start : Words :=
  ⟨0x6a09e667, 0xbb67ae85, 0x3c6ef372, 0xa54ff53a, 0x510e527f, 0x9b05688c, 0x1f83d9ab, 0x5be0cd19⟩

def rotateRight (x n : UInt32) : UInt32 :=
  (x >>> n) ||| (x <<< (32 - n))

/-- One of the sixty-four rounds. -/
def Words.round (w : Words) (constant scheduled : UInt32) : Words :=
  let s₁ := rotateRight w.e 6 ^^^ rotateRight w.e 11 ^^^ rotateRight w.e 25
  let choice := (w.e &&& w.f) ^^^ (~~~w.e &&& w.g)
  let t₁ := w.h + s₁ + choice + constant + scheduled
  let s₀ := rotateRight w.a 2 ^^^ rotateRight w.a 13 ^^^ rotateRight w.a 22
  let majority := (w.a &&& w.b) ^^^ (w.a &&& w.c) ^^^ (w.b &&& w.c)
  ⟨t₁ + (s₀ + majority), w.a, w.b, w.c, w.d + t₁, w.e, w.f, w.g⟩

def Words.sum (v w : Words) : Words :=
  ⟨v.a + w.a, v.b + w.b, v.c + w.c, v.d + w.d, v.e + w.e, v.f + w.f, v.g + w.g, v.h + w.h⟩

/-- The byte at an index as a word, zero outside the sequence. -/
def byteAt (bytes : ByteArray) (i : Nat) : UInt32 :=
  (bytes[i]?.getD 0).toUInt32

/-- The big-endian word that starts at a byte. -/
def wordAt (bytes : ByteArray) (i : Nat) : UInt32 :=
  byteAt bytes i <<< 24 ||| byteAt bytes (i + 1) <<< 16
    ||| byteAt bytes (i + 2) <<< 8 ||| byteAt bytes (i + 3)

/-- The sixty-four scheduled words of a block: its sixteen words, then each from four before it. -/
def schedule (bytes : ByteArray) (start : Nat) : Array UInt32 :=
  let first := (List.range 16).foldl (fun ws i => ws.push (wordAt bytes (start + 4 * i))) #[]
  (List.range 48).foldl (fun ws k =>
    let i := k + 16
    let x := ws.getD (i - 15) 0
    let y := ws.getD (i - 2) 0
    let s₀ := rotateRight x 7 ^^^ rotateRight x 18 ^^^ (x >>> 3)
    let s₁ := rotateRight y 17 ^^^ rotateRight y 19 ^^^ (y >>> 10)
    ws.push (ws.getD (i - 16) 0 + s₀ + ws.getD (i - 7) 0 + s₁)) first

/-- The compression of the block that starts at a byte. -/
def Words.absorb (w : Words) (bytes : ByteArray) (start : Nat) : Words :=
  let ws := schedule bytes start
  w.sum ((List.range 64).foldl
    (fun v i => v.round (roundConstants.getD i 0) (ws.getD i 0)) w)

/-- The bytes of a number, most significant first. -/
def bigEndian (width n : Nat) : List UInt8 :=
  (List.range width).map fun i => (n / 256 ^ (width - 1 - i) % 256).toUInt8

/-- The message followed by a one bit, zeros up to a whole number of blocks, and its length in
bits. -/
def padded (message : ByteArray) : ByteArray :=
  let zeros := (119 - message.size % 64) % 64
  let tail := 0x80 :: List.replicate zeros 0 ++ bigEndian 8 (8 * message.size)
  tail.foldl ByteArray.push message

/-- The digest of a message. -/
def digest (message : ByteArray) : List UInt8 :=
  let bytes := padded message
  let w := (List.range (bytes.size / 64)).foldl (fun w i => w.absorb bytes (64 * i)) Words.start
  [w.a, w.b, w.c, w.d, w.e, w.f, w.g, w.h].flatMap fun x => bigEndian 4 x.toNat

/-- The leading bytes of the digest as a big-endian number. -/
def leading (count : Nat) (message : ByteArray) : Nat :=
  ((digest message).take count).foldl (fun n b => 256 * n + b.toNat) 0

end Tidemark.Sha256
