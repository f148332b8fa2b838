import TwoStage.Text.Hex

/-!
# SHA-256

The 256-bit secure hash: the message is padded to blocks of 64 bytes, each block is expanded into
64 words, and 64 rounds mix these into a state of eight words. A word is a number below `2 ^ 32`,
and the operations on words are those of the numbers by name, so that a hash of a fixed text can be
computed in a proof as well.

## Main definitions

- `Sha256.State`, `Sha256.round`, `Sha256.compress` — the state and how a block changes it
- `Sha256.padded` — a message with its padding
- `sha256` — the hash of a message, in hexadecimal digits
-/

namespace TwoStage

namespace Sha256

/-- The state: eight words. -/
structure State where
  a : Nat
  b : Nat
  c : Nat
  d : Nat
  e : Nat
  f : Nat
  g : Nat
  h : Nat

/-- The first 32 bits of the fractional parts of the square roots of the first eight primes. -/
def initial : State :=
  ⟨0x6a09e667, 0xbb67ae85, 0x3c6ef372, 0xa54ff53a,
    0x510e527f, 0x9b05688c, 0x1f83d9ab, 0x5be0cd19⟩

/-- The first 32 bits of the fractional parts of the cube roots of the first 64 primes. -/
def roundConstants : List Nat :=
  [0x428a2f98, 0x71374491, 0xb5c0fbcf, 0xe9b5dba5, 0x3956c25b, 0x59f111f1, 0x923f82a4, 0xab1c5ed5,
    0xd807aa98, 0x12835b01, 0x243185be, 0x550c7dc3, 0x72be5d74, 0x80deb1fe, 0x9bdc06a7, 0xc19bf174,
    0xe49b69c1, 0xefbe4786, 0x0fc19dc6, 0x240ca1cc, 0x2de92c6f, 0x4a7484aa, 0x5cb0a9dc, 0x76f988da,
    0x983e5152, 0xa831c66d, 0xb00327c8, 0xbf597fc7, 0xc6e00bf3, 0xd5a79147, 0x06ca6351, 0x14292967,
    0x27b70a85, 0x2e1b2138, 0x4d2c6dfc, 0x53380d13, 0x650a7354, 0x766a0abb, 0x81c2c92e, 0x92722c85,
    0xa2bfe8a1, 0xa81a664b, 0xc24b8b70, 0xc76c51a3, 0xd192e819, 0xd6990624, 0xf40e3585, 0x106aa070,
    0x19a4c116, 0x1e376c08, 0x2748774c, 0x34b0bcb5, 0x391c0cb3, 0x4ed8aa4a, 0x5b9cca4f, 0x682e6ff3,
    0x748f82ee, 0x78a5636f, 0x84c87814, 0x8cc70208, 0x90befffa, 0xa4506ceb, 0xbef9a3f7, 0xc67178f2]

/-- The sum of two numbers as a word. -/
def add (x y : Nat) : Nat := Nat.mod (Nat.add x y) 0x100000000

/-- The bits that an odd number of three words have. -/
def xor3 (x y z : Nat) : Nat := Nat.xor (Nat.xor x y) z

/-- A word with its bits moved to the right by `n`, around the end; `0 < n < 32`. -/
def rotateRight (x n : Nat) : Nat :=
  Nat.lor (Nat.shiftRight x n) (Nat.mod (Nat.shiftLeft x (Nat.sub 32 n)) 0x100000000)

/-- One round: mixes a constant and a word of the expanded block into the state. -/
def round : State → (constant word : Nat) → State
  | ⟨a, b, c, d, e, f, g, h⟩, constant, word =>
    let s1 := xor3 (rotateRight e 6) (rotateRight e 11) (rotateRight e 25)
    let choice := Nat.xor (Nat.land e f) (Nat.land (Nat.xor 0xffffffff e) g)
    let t1 := Nat.add (Nat.add (Nat.add (Nat.add h s1) choice) constant) word
    let s0 := xor3 (rotateRight a 2) (rotateRight a 13) (rotateRight a 22)
    let majority := xor3 (Nat.land a b) (Nat.land a c) (Nat.land b c)
    ⟨add t1 (Nat.add s0 majority), a, b, c, add d t1, e, f, g⟩

/-- The words of a list of bytes, the greatest byte of each first. -/
def wordsOf : List UInt8 → List Nat
  | a :: b :: c :: d :: rest =>
    (((a.toNat * 256 + b.toNat) * 256 + c.toNat) * 256 + d.toNat) :: wordsOf rest
  | _ => []

/-- Expands a block by `count` words, each made of four of the last sixteen; the words stand in the
list from the newest to the oldest. -/
def expand : (count : Nat) → (words : List Nat) → List Nat
  | 0, words => words
  | count + 1, words =>
    match words with
    | _ :: y :: _ :: _ :: _ :: _ :: z :: _ :: _ :: _ :: _ :: _ :: _ :: _ :: x :: w :: _ =>
      let s0 := xor3 (rotateRight x 7) (rotateRight x 18) (Nat.shiftRight x 3)
      let s1 := xor3 (rotateRight y 17) (rotateRight y 19) (Nat.shiftRight y 10)
      expand count (add (Nat.add w s0) (Nat.add z s1) :: words)
    | _ => words

/-- A round for each constant with its word. -/
def rounds : (constants words : List Nat) → State → State
  | constant :: constants, word :: words, s => rounds constants words (round s constant word)
  | _, _, s => s

/-- Mixes a block of sixteen words into the state. -/
def compress (block : List Nat) (s : State) : State :=
  let t := rounds roundConstants (expand 48 block.reverse).reverse s
  ⟨add s.a t.a, add s.b t.b, add s.c t.c, add s.d t.d, add s.e t.e, add s.f t.f, add s.g t.g,
    add s.h t.h⟩

/-- Mixes the first `count` blocks of a list of bytes into the state. -/
def compressBlocks : (count : Nat) → (bytes : List UInt8) → State → State
  | 0, _, s => s
  | count + 1, bytes, s =>
    compressBlocks count (bytes.drop 64) (compress (wordsOf (bytes.take 64)) s)

/-- The last `count` bytes of a number, the greatest first. -/
def numberBytes (n : Nat) : (count : Nat) → List UInt8
  | 0 => []
  | count + 1 => UInt8.ofNat (n >>> (8 * count)) :: numberBytes n count

/-- A message with a one bit, zeros and its length in bits behind it, in whole blocks. -/
def padded (message : ByteArray) : List UInt8 :=
  let zeros := (119 - message.size % 64) % 64
  message.data.toList ++ 0x80 :: (List.replicate zeros 0 ++ numberBytes (8 * message.size) 8)

/-- The digits of a state. -/
def State.digits (s : State) : List Char :=
  [s.a, s.b, s.c, s.d, s.e, s.f, s.g, s.h].flatMap fun word => hexDigits 8 word

end Sha256

/-- The hash of a message, in 64 small hexadecimal digits. -/
def sha256 (message : ByteArray) : String :=
  let bytes := Sha256.padded message
  String.ofList (Sha256.compressBlocks (bytes.length / 64) bytes Sha256.initial).digits

theorem length_sha256 (message : ByteArray) : (sha256 message).length = 64 := by
  simp [sha256, Sha256.State.digits, length_hexDigits]

end TwoStage
