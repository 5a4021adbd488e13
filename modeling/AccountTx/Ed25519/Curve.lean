import AccountTx.Bytes.Basic

/-!
The curve of Ed25519 over the integers modulo the prime `2 ^ 255 - 19`. Points are kept in extended
coordinates, which need no division until a point is written down; the addition formula holds for
every pair of points of the curve.
-/

namespace AccountTx.Ed25519

/-- The order of the field. -/
def prime : Nat := Nat.pow 2 255 - 19

/-- The order of the base point. -/
def order : Nat := Nat.pow 2 252 + 27742317777372353535851937790883648493

namespace Residue

def add (a b : Nat) : Nat := (a + b) % prime
def sub (a b : Nat) : Nat := (a + (prime - b % prime)) % prime
def mul (a b : Nat) : Nat := a * b % prime

/-- The bits of a number, lowest first, given an upper bound on how many there are. -/
def bits : Nat → Nat → List Bool
  | 0, _ => []
  | count + 1, n => (n % 2 == 1) :: bits count (n / 2)

/-- Square and multiply, highest bit first; 256 bits hold every exponent used here. -/
def pow (a : Nat) (exponent : Nat) : Nat :=
  (bits 256 exponent).foldr (fun bit r => if bit then mul (mul r r) a else mul r r) 1

def inverse (a : Nat) : Nat := pow a (prime - 2)

/-- A square root of minus one. -/
def rootMinusOne : Nat := pow 2 ((prime - 1) / 4)

/-- The even square root of `u / v`, if there is one; `v` is not zero. -/
def sqrtRatio? (u v : Nat) : Option Nat :=
  let v3 := mul (mul v v) v
  let candidate := mul (mul u v3) (pow (mul u (mul (mul v3 v3) v)) ((prime - 5) / 8))
  let even (r : Nat) : Nat := if r % 2 = 0 then r else sub 0 r
  let check := mul v (mul candidate candidate)
  if check = u % prime then some (even candidate)
  else if check = sub 0 u then some (even (mul candidate rootMinusOne))
  else none

end Residue

open Residue

/-- The constant of the curve equation `y ^ 2 - x ^ 2 = 1 + d * x ^ 2 * y ^ 2`. -/
def d : Nat := mul (sub 0 121665) (inverse 121666)

/-- A point `(x / z, y / z)` with `t = x * y / z`. -/
structure Point where
  x : Nat
  y : Nat
  z : Nat
  t : Nat

namespace Point

def zero : Point := ⟨0, 1, 1, 0⟩

def ofAffine (x y : Nat) : Point := ⟨x, y, 1, mul x y⟩

def twoD : Nat := add d d

def add (p q : Point) : Point :=
  let a := mul (sub p.y p.x) (sub q.y q.x)
  let b := mul (Residue.add p.y p.x) (Residue.add q.y q.x)
  let c := mul (mul p.t twoD) q.t
  let e := mul p.z (Residue.add q.z q.z)
  let f := sub b a
  let g := sub e c
  let h := Residue.add e c
  let i := Residue.add b a
  ⟨mul f g, mul h i, mul g h, mul f i⟩

def neg (p : Point) : Point := ⟨sub 0 p.x, p.y, p.z, sub 0 p.t⟩

/-- Double and add, highest bit first; 256 bits hold every scalar used here. -/
def scale (n : Nat) (p : Point) : Point :=
  (bits 256 n).foldr (fun bit q => let r := add q q; if bit then add r p else r) zero

/-- The height of a point, with the parity of its abscissa in the top bit. -/
def compress (p : Point) : Bytes :=
  let zInverse := inverse p.z
  let x := mul p.x zInverse
  let y := mul p.y zInverse
  (BigEndian.ofNat 32 (y + x % 2 * Nat.pow 2 255)).reverse

/-- The point with the given height and parity. Heights are taken modulo the prime, and the odd
parity is allowed for the abscissa zero. -/
def decompress? (bytes : Bytes) : Option Point :=
  let n := BigEndian.toNat bytes.reverse
  let y := n % Nat.pow 2 255 % prime
  let y2 := mul y y
  (sqrtRatio? (sub y2 1) (Residue.add (mul d y2) 1)).map fun x =>
    ofAffine (if n / Nat.pow 2 255 % 2 = 1 then sub 0 x else x) y

/-- The point of height `4 / 5` with an even abscissa. -/
def base : Point :=
  let y := mul 4 (inverse 5)
  let y2 := mul y y
  ofAffine ((sqrtRatio? (sub y2 1) (Residue.add (mul d y2) 1)).getD 0) y

end Point

end AccountTx.Ed25519
