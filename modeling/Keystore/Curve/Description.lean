import Keystore.Curve.Named
import Keystore.Der.Value

/-!
# Describing a curve

A key names its curve, or it gives the equation: the field, the coefficients, a
base point, the order of that point, and perhaps a cofactor. A description counts
only if it makes sense as far as it can be checked without effort: the base point
has to be on the curve, and its order must not be larger than a curve over that
field can have.
-/

namespace Keystore.Curve

open Der

/-- The most bits in a coordinate. -/
abbrev widthLimit : Nat := 661

/-- The number of bits that a number takes. -/
def bitLength (n : Nat) : Nat := if n = 0 then 0 else n.log2 + 1

/-- A field, as the curves over it by their coefficients. -/
abbrev Family : Type := Nat → Nat → Curve

/-- The integers modulo an odd number above 3. -/
def primeFamily? (p : Int) : Option Family :=
  let n := p.toNat
  if 3 ≤ bitLength n ∧ bitLength n ≤ widthLimit ∧ n % 2 = 1 then
    some fun a b => prime n (a % n) (b % n)
  else none

/-- The polynomials modulo one with the given exponents, which have to fall. -/
def binaryFamily? (exponents : List Int) : Option Family :=
  if (exponents.zip exponents.tail).all (fun (e, next) => next < e)
      ∧ exponents.getLast? = some 0 ∧ exponents.all (· ≤ (widthLimit : Int)) then
    let m := polynomial (exponents.map Int.toNat)
    some fun a b => binary m (reduce m a) (reduce m b)
  else none

/-- The identifiers of the kinds of fields begin with these arcs. -/
def fieldOid (arcs : List Nat) : Bytes := oidContent 1 2 ([840, 10045, 1] ++ arcs)

/-- Three numbers in falling order, as they stand in a row in rising order. -/
def fallingThree? (e : Element) : Option (List Int) :=
  match e.sequence? with
  | some [k1, k2, k3] => [k3, k2, k1].mapM Element.small?
  | _ => none

/-- The exponents between the first and the last of a field's polynomial. -/
def middle? (kind : Bytes) (e : Element) : Option (List Int) :=
  if kind = fieldOid [2, 3, 2] then e.integer?.map fun k => [signedValue k]
  else if kind = fieldOid [2, 3, 3] then fallingThree? e
  else none

/-- A field of polynomials: its width, a kind of polynomial, and the exponents. -/
def binaryField? (e : Element) : Option Family :=
  match e.sequence? with
  | some [width, kind, exponents] => do
    let width ← width.small?
    let middle ← middle? (← kind.oid?) exponents
    binaryFamily? (width :: middle ++ [0])
  | _ => none

/-- A field. -/
def field? (e : Element) : Option Family :=
  match e.sequence? with
  | some [kind, detail] =>
    match kind.oid? with
    | some kind =>
      if kind = fieldOid [1] then detail.integer?.bind fun p => primeFamily? (signedValue p)
      else if kind = fieldOid [2] then binaryField? detail
      else none
    | none => none
  | _ => none

/-- The coefficients of an equation. A seed may follow; it must not be empty. -/
def coefficients? (e : Element) : Option (Nat × Nat) :=
  match e.sequence? with
  | some (a :: b :: seed) =>
    let isSeed : Bool := match seed with
      | [] => true
      | [s] => (s.bitString?.map fun bits => !bits.bytes.isEmpty).getD false
      | _ => false
    match a.octetString?, b.octetString? with
    | some a, some b =>
      if isSeed then some (BigEndian.number a, BigEndian.number b) else none
    | _, _ => none
  | _ => none

/-- Whether an order is possible for a curve with coordinates of the given width. -/
def isOrder (width : Nat) (order : Int) : Bool :=
  0 < order && bitLength order.toNat ≤ width + 1

/-- The number of an element that is an integer and satisfies `p`. -/
def isIntegerWith (p : Int → Bool) (e : Element) : Bool :=
  (e.integer?.map fun n => p (signedValue n)).getD false

/-- The curve that an equation describes. -/
def ofEquation? (e : Element) : Option Curve :=
  match e.sequence? with
  | some (version :: field :: equation :: base :: order :: cofactor) =>
    match version.small?, field? field, coefficients? equation, base.octetString? with
    | some _, some family, some (a, b), some base =>
      let c := family a b
      let isCofactor : Bool := match cofactor with
        | [] => true
        | [h] => isIntegerWith (0 ≤ ·) h
        | _ => false
      if isIntegerWith (isOrder c.width) order && isCofactor && c.isPoint base
          && base != [0] then
        some c
      else none
    | _, _, _, _ => none
  | _ => none

/-- The curve that an element names or describes. -/
def ofElement? (e : Element) : Option Curve :=
  match e.oid? with
  | some name => named? name
  | none => ofEquation? e

end Keystore.Curve
