import Keystore.Bytes

/-!
# Points of an elliptic curve

A curve is given by its equation over a finite field: the integers modulo a prime,
or the polynomials over two elements modulo one of them, written as the numbers
whose bits are their coefficients.

`Curve.isPoint` recognises the encodings of a curve's points. An encoding is a zero
byte for the point at infinity, or a byte that names a form and one or both
coordinates. A compressed point has only the first coordinate and one bit of the
second, so there the question is whether the equation can be solved.
-/

namespace Keystore

/-- An elliptic curve. -/
inductive Curve where
  /-- `y² = x³ + ax + b` modulo `p`. -/
  | prime (p a b : Nat)
  /-- `y² + xy = x³ + ax² + b` over the polynomials modulo `m`. -/
  | binary (m a b : Nat)
deriving DecidableEq, Repr

namespace Curve

/-! ## Arithmetic modulo a prime -/

/-- The power `x ^ n` modulo `p`, by squaring along the bits of `n`. -/
def power (p x n : Nat) : Nat :=
  (List.range (n.log2 + 1)).reverse.foldl (fun r i =>
    let square := r * r % p
    if n.testBit i then square * x % p else square) (1 % p)

/-- Whether `n` is a square modulo `p` and not zero, by Euler's criterion. -/
def isSquare (p n : Nat) : Bool := power p n ((p - 1) / 2) == 1

/-- The right side of the equation of a curve over a prime field. -/
def cubic (p a b x : Nat) : Nat := (x * x * x + a * x + b) % p

/-! ## Arithmetic modulo a polynomial -/

/-- A polynomial modulo `m`. -/
def reduce (m x : Nat) : Nat :=
  (List.range (x.log2 + 1 - m.log2)).reverse.foldl (fun r i =>
    if r.testBit (m.log2 + i) then r ^^^ (m <<< i) else r) x

/-- The product of two polynomials modulo `m`, the second of which is reduced. -/
def product (m x y : Nat) : Nat :=
  (List.range m.log2).reverse.foldl (fun r i =>
    let double := 2 * r
    let shifted := if double.testBit m.log2 then double ^^^ m else double
    if y.testBit i then shifted ^^^ x else shifted) 0

/-- The squares of `x`, of that, and so on, `n` of them. -/
def squares (m : Nat) : Nat → Nat → List Nat
  | 0, _ => []
  | n + 1, x => let s := product m x x; s :: squares m n s

/-- The inverse of a polynomial that is not zero: the product of all repeated
squares of `x` in a field of `2 ^ n` elements is `x ^ (2 ^ n - 2)`. -/
def inverse (m x : Nat) : Nat := (squares m (m.log2 - 1) x).foldl (product m) (reduce m 1)

/-- The sum of `x` and its repeated squares, which is 0 or 1. The equation
`z² + z = x` can be solved if it is 0. -/
def trace (m x : Nat) : Nat := (squares m (m.log2 - 1) x).foldl (· ^^^ ·) x

/-! ## Points -/

/-- The number of bits in a coordinate. -/
def width : Curve → Nat
  | prime p _ _ => p.log2 + 1
  | binary m _ _ => m.log2

/-- The number of bytes in a coordinate. -/
def coordinateSize (c : Curve) : Nat := (c.width + 7) / 8

/-- Whether a number is a coordinate. -/
def isCoordinate : Curve → Nat → Bool
  | prime p _ _, x => x < p
  | binary m _ _, x => x.log2 < m.log2

/-- Whether two coordinates satisfy the equation. -/
def holds : Curve → Nat → Nat → Bool
  | prime p a b, x, y => y * y % p == cubic p a b x
  | binary m a b, x, y =>
    let square := product m x x
    product m y y ^^^ product m x y == product m square x ^^^ product m square a ^^^ b

/-- Whether there is a point with first coordinate `x` and the given bit of the
second. If zero is the only second coordinate its bit cannot be one. -/
def hasPoint : Curve → Nat → Bool → Bool
  | prime p a b, x, odd =>
    let right := cubic p a b x
    if right = 0 then !odd else isSquare p right
  | binary m a b, x, _ =>
    x == 0 || trace m (x ^^^ a ^^^ product m b (inverse m (product m x x))) == 0

/-- The bit that stands for the second coordinate of a point. -/
def bit : Curve → Nat → Nat → Bool
  | prime _ _ _, _, y => y % 2 == 1
  | binary m _ _, x, y => x != 0 && product m y (inverse m x) % 2 == 1

/-- Whether `s` encodes a point of the curve. -/
def isPoint (c : Curve) (s : Bytes) : Bool :=
  match s with
  | [] => false
  | form :: coordinates =>
    let size := c.coordinateSize
    let x := BigEndian.number (coordinates.take size)
    let y := BigEndian.number (coordinates.drop size)
    let odd := form % 2 == 1
    if form = 0 then coordinates.isEmpty
    else if form = 2 ∨ form = 3 then
      coordinates.length == size && c.isCoordinate x && c.hasPoint x odd
    else if form = 4 ∨ form = 6 ∨ form = 7 then
      coordinates.length == 2 * size && c.isCoordinate x && c.isCoordinate y && c.holds x y
        && (form == 4 || c.bit x y == odd)
    else false

end Curve

end Keystore
