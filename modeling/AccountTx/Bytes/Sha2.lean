import AccountTx.Bytes.Basic

/-!
The hash functions SHA-256 and SHA-512. Both are one construction over words of 32 or of 64 bits:
the padded message is cut into blocks of sixteen words, each block is stretched into a schedule, and
every word of the schedule turns the eight words of the state once.
-/

namespace AccountTx.Sha2

/-- The words of one of the two functions, with the rotations that it uses. -/
class Word (w : Type) extends Add w, AndOp w, XorOp w, Complement w, Inhabited w where
  /-- Bytes in a word. -/
  width : Nat
  ofNat : Nat → w
  toNat : w → Nat
  /-- The top bits of a tabulated 64-bit constant, as many as a word has. -/
  ofConstant : UInt64 → w
  rounds : Nat
  /-- Mixes the schedule words fifteen back and two back. -/
  schedule0 : w → w
  schedule1 : w → w
  /-- Mixes the first and the fifth word of the state. -/
  state0 : w → w
  state1 : w → w

/-- The first 64 bits of the fractional parts of the square roots of the first eight primes. -/
def initialConstants : List UInt64 :=
  [0x6a09e667f3bcc908, 0xbb67ae8584caa73b, 0x3c6ef372fe94f82b, 0xa54ff53a5f1d36f1,
    0x510e527fade682d1, 0x9b05688c2b3e6c1f, 0x1f83d9abfb41bd6b, 0x5be0cd19137e2179]

/-- The first 64 bits of the fractional parts of the cube roots of the first eighty primes. -/
def roundConstants : List UInt64 :=
  [0x428a2f98d728ae22, 0x7137449123ef65cd, 0xb5c0fbcfec4d3b2f, 0xe9b5dba58189dbbc,
    0x3956c25bf348b538, 0x59f111f1b605d019, 0x923f82a4af194f9b, 0xab1c5ed5da6d8118,
    0xd807aa98a3030242, 0x12835b0145706fbe, 0x243185be4ee4b28c, 0x550c7dc3d5ffb4e2,
    0x72be5d74f27b896f, 0x80deb1fe3b1696b1, 0x9bdc06a725c71235, 0xc19bf174cf692694,
    0xe49b69c19ef14ad2, 0xefbe4786384f25e3, 0x0fc19dc68b8cd5b5, 0x240ca1cc77ac9c65,
    0x2de92c6f592b0275, 0x4a7484aa6ea6e483, 0x5cb0a9dcbd41fbd4, 0x76f988da831153b5,
    0x983e5152ee66dfab, 0xa831c66d2db43210, 0xb00327c898fb213f, 0xbf597fc7beef0ee4,
    0xc6e00bf33da88fc2, 0xd5a79147930aa725, 0x06ca6351e003826f, 0x142929670a0e6e70,
    0x27b70a8546d22ffc, 0x2e1b21385c26c926, 0x4d2c6dfc5ac42aed, 0x53380d139d95b3df,
    0x650a73548baf63de, 0x766a0abb3c77b2a8, 0x81c2c92e47edaee6, 0x92722c851482353b,
    0xa2bfe8a14cf10364, 0xa81a664bbc423001, 0xc24b8b70d0f89791, 0xc76c51a30654be30,
    0xd192e819d6ef5218, 0xd69906245565a910, 0xf40e35855771202a, 0x106aa07032bbd1b8,
    0x19a4c116b8d2d0c8, 0x1e376c085141ab53, 0x2748774cdf8eeb99, 0x34b0bcb5e19b48a8,
    0x391c0cb3c5c95a63, 0x4ed8aa4ae3418acb, 0x5b9cca4f7763e373, 0x682e6ff3d6b2b8a3,
    0x748f82ee5defb2fc, 0x78a5636f43172f60, 0x84c87814a1f0ab72, 0x8cc702081a6439ec,
    0x90befffa23631e28, 0xa4506cebde82bde9, 0xbef9a3f7b2c67915, 0xc67178f2e372532b,
    0xca273eceea26619c, 0xd186b8c721c0c207, 0xeada7dd6cde0eb1e, 0xf57d4f7fee6ed178,
    0x06f067aa72176fba, 0x0a637dc5a2c898a6, 0x113f9804bef90dae, 0x1b710b35131c471b,
    0x28db77f523047d84, 0x32caab7b40c72493, 0x3c9ebe0a15c9bebc, 0x431d67c49c100d4c,
    0x4cc5d4becb3e42b6, 0x597f299cfc657e2a, 0x5fcb6fab3ad6faec, 0x6c44198c4a475817]

structure State (w : Type) where
  (a b c d e f g h : w)

variable {w : Type} [Word w]

/-- The message, a single one bit, zeros, and the length in bits, filling whole blocks. -/
def pad (w : Type) [Word w] (message : Bytes) : Bytes :=
  let block := 16 * Word.width w
  let tail := 2 * Word.width w
  let zeros := (2 * block - 1 - tail - message.length % block) % block
  message ++ 0x80 :: (List.replicate zeros 0 ++ BigEndian.ofNat tail (8 * message.length))

/-- `n` words read from the front of a byte string, and the bytes after them. -/
def readWords : Nat → Bytes → Array w → Array w × Bytes
  | 0, bytes, words => (words, bytes)
  | n + 1, bytes, words =>
      readWords n (bytes.drop (Word.width w))
        (words.push (Word.ofNat (BigEndian.toNat (bytes.take (Word.width w)))))

/-- The words of a block followed by those derived from them, one for each round. -/
def expand (block : Array w) : Array w :=
  (List.range (Word.rounds w - 16)).foldl (fun words t =>
    words.push (Word.schedule1 (words.getD (t + 14) default) + words.getD (t + 9) default
      + Word.schedule0 (words.getD (t + 1) default) + words.getD t default)) block

def round (s : State w) (constant word : w) : State w :=
  let choice := (s.e &&& s.f) ^^^ (~~~s.e &&& s.g)
  let majority := (s.a &&& s.b) ^^^ (s.a &&& s.c) ^^^ (s.b &&& s.c)
  let t1 := s.h + Word.state1 s.e + choice + constant + word
  let t2 := Word.state0 s.a + majority
  ⟨t1 + t2, s.a, s.b, s.c, s.d + t1, s.e, s.f, s.g⟩

def compress (constants : List w) (s : State w) (block : Array w) : State w :=
  let t := (constants.zip (expand block).toList).foldl (fun s kw => round s kw.1 kw.2) s
  ⟨s.a + t.a, s.b + t.b, s.c + t.c, s.d + t.d, s.e + t.e, s.f + t.f, s.g + t.g, s.h + t.h⟩

def absorb (constants : List w) : Nat → State w → Bytes → State w
  | 0, s, _ => s
  | blocks + 1, s, bytes =>
      let next := readWords 16 bytes #[]
      absorb constants blocks (compress constants s next.1) next.2

def State.words (s : State w) : List w := [s.a, s.b, s.c, s.d, s.e, s.f, s.g, s.h]

def State.initial : State w :=
  let word (i : Nat) : w := Word.ofConstant (initialConstants.getD i 0)
  ⟨word 0, word 1, word 2, word 3, word 4, word 5, word 6, word 7⟩

def hash (w : Type) [Word w] (message : Bytes) : Bytes :=
  let padded := pad w message
  let constants : List w := (roundConstants.take (Word.rounds w)).map Word.ofConstant
  let final := absorb constants (padded.length / (16 * Word.width w)) State.initial padded
  final.words.flatMap fun x => BigEndian.ofNat (Word.width w) (Word.toNat x)

theorem length_hash (w : Type) [Word w] (message : Bytes) :
    (hash w message).length = 8 * Word.width w := by
  simp [hash, State.words]
  omega

def rotate32 (x : UInt32) (n : UInt32) : UInt32 := x >>> n ||| x <<< (32 - n)

def rotate64 (x : UInt64) (n : UInt64) : UInt64 := x >>> n ||| x <<< (64 - n)

instance : Word UInt32 where
  width := 4
  ofNat := UInt32.ofNat
  toNat := UInt32.toNat
  ofConstant c := (c >>> 32).toUInt32
  rounds := 64
  schedule0 x := rotate32 x 7 ^^^ rotate32 x 18 ^^^ x >>> 3
  schedule1 x := rotate32 x 17 ^^^ rotate32 x 19 ^^^ x >>> 10
  state0 x := rotate32 x 2 ^^^ rotate32 x 13 ^^^ rotate32 x 22
  state1 x := rotate32 x 6 ^^^ rotate32 x 11 ^^^ rotate32 x 25

instance : Word UInt64 where
  width := 8
  ofNat := UInt64.ofNat
  toNat := UInt64.toNat
  ofConstant c := c
  rounds := 80
  schedule0 x := rotate64 x 1 ^^^ rotate64 x 8 ^^^ x >>> 7
  schedule1 x := rotate64 x 19 ^^^ rotate64 x 61 ^^^ x >>> 6
  state0 x := rotate64 x 28 ^^^ rotate64 x 34 ^^^ rotate64 x 39
  state1 x := rotate64 x 14 ^^^ rotate64 x 18 ^^^ rotate64 x 41

end AccountTx.Sha2

namespace AccountTx

def sha256 (message : Bytes) : FixedBytes 32 :=
  ⟨Sha2.hash UInt32 message, Sha2.length_hash UInt32 message⟩

def sha512 (message : Bytes) : FixedBytes 64 :=
  ⟨Sha2.hash UInt64 message, Sha2.length_hash UInt64 message⟩

end AccountTx
