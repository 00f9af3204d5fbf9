/-!
# Binary floating-point numbers

Floating-point numbers of 64 bits. A finite one is `mantissa * 2 ^ exponent` with its sign, so its
value is a ratio that can be computed with, and a result is the exact ratio rounded to the nearest
number, a tie going to the even mantissa (`ofRatio`). All other arithmetic is derived from that
rounding.

All of it is on natural numbers and integers, and every fact about a given number can be computed.

NaN and the infinities are forms of their own. Nothing equals or is less than a NaN; the two zeros
have one value, and are told apart by their sign only.
-/

namespace ApiScaffold

/-- A floating-point number. A finite one is `mantissa * 2 ^ exponent` with its sign; results of
rounding have a mantissa below `2 ^ 53`, and one of `2 ^ 52` or more unless the exponent is the
least. -/
inductive Binary64 where
  | finite (negative : Bool) (mantissa : Nat) (exponent : Int)
  | infinite (negative : Bool)
  | nan
deriving DecidableEq

namespace Binary64

/-- The least exponent of a finite number. -/
def leastExponent : Int := -1074

/-- The greatest exponent of a finite number. -/
def greatestExponent : Int := 971

def zero : Binary64 := .finite false 0 leastExponent

/-- The quotient rounded to the nearest natural number, a half to the even one. -/
def roundDiv (num den : Nat) : Nat :=
  let q := num / den
  let r := num % den
  if 2 * r > den || (2 * r == den && q % 2 == 1) then q + 1 else q

/-- A ratio scaled by a power of two. -/
def scaleRatio (num den : Nat) (shift : Int) : Nat × Nat :=
  if shift < 0 then (num, den * Nat.pow 2 (-shift).toNat)
  else (num * Nat.pow 2 shift.toNat, den)

/-- The exponent at which a positive ratio has a mantissa of 53 bits, or the least exponent. -/
def ratioExponent (num den : Nat) : Int :=
  let guess : Int := Int.ofNat (Nat.log2 num) - Int.ofNat (Nat.log2 den) - 52
  let scaled := scaleRatio num den (-guess)
  let exact := if scaled.1 < scaled.2 * Nat.pow 2 52 then guess - 1 else guess
  max exact leastExponent

/-- The number nearest to a ratio, a tie going to the even mantissa. -/
def ofRatio (negative : Bool) (num den : Nat) : Binary64 :=
  if num = 0 then .finite negative 0 leastExponent
  else
    let e := ratioExponent num den
    let scaled := scaleRatio num den (-e)
    let m := roundDiv scaled.1 scaled.2
    let (m, e) := if m = Nat.pow 2 53 then (Nat.pow 2 52, e + 1) else (m, e)
    if e > greatestExponent then .infinite negative else .finite negative m e

/-- The number nearest to `digits * 10 ^ exponent`. Exponents far out of range are settled without
computing the power. -/
def ofDecimal (negative : Bool) (digits : Nat) (exponent : Int) : Binary64 :=
  let magnitude : Int := Int.ofNat (Nat.toDigits 10 digits).length + exponent
  if digits = 0 then .finite negative 0 leastExponent
  else if magnitude > 400 then .infinite negative
  else if magnitude < -400 then .finite negative 0 leastExponent
  else if exponent < 0 then ofRatio negative digits (Nat.pow 10 (-exponent).toNat)
  else ofRatio negative (digits * Nat.pow 10 exponent.toNat) 1

def ofInt (n : Int) : Binary64 := ofRatio (n < 0) n.natAbs 1

/-- The magnitude of a finite number as a ratio. -/
def magnitude (mantissa : Nat) (exponent : Int) : Nat × Nat := scaleRatio mantissa 1 exponent

/-- The signed numerator and the denominator of a finite number. -/
def toRatio? : Binary64 → Option (Int × Nat)
  | .finite negative m e =>
    let r := magnitude m e
    some (if negative then -Int.ofNat r.1 else Int.ofNat r.1, r.2)
  | _ => none

/-- Whether the number is neither zero. -/
def isTruthy : Binary64 → Bool
  | .finite _ m _ => m != 0
  | _ => true

/-- The integer part, toward zero, of a finite number. -/
def truncate? : Binary64 → Option Int
  | .finite negative m e =>
    let r := magnitude m e
    let n : Int := Int.ofNat (r.1 / r.2)
    some (if negative then -n else n)
  | _ => none

/-- Whether two numbers have one value; the two zeros have, and nothing equals a NaN. -/
def sameValue : Binary64 → Binary64 → Bool
  | .nan, _ => false
  | _, .nan => false
  | .infinite a, .infinite b => a == b
  | x, y => match x.toRatio?, y.toRatio? with
    | some (a, b), some (c, d) => a * Int.ofNat d == c * Int.ofNat b
    | _, _ => false

/-- Whether one number is less than another; a NaN is not comparable. -/
def less : Binary64 → Binary64 → Bool
  | .nan, _ => false
  | _, .nan => false
  | .infinite a, .infinite b => a && !b
  | .infinite a, _ => a
  | _, .infinite b => !b
  | x, y => match x.toRatio?, y.toRatio? with
    | some (a, b), some (c, d) => a * Int.ofNat d < c * Int.ofNat b
    | _, _ => false

def negate : Binary64 → Binary64
  | .finite negative m e => .finite (!negative) m e
  | .infinite negative => .infinite (!negative)
  | .nan => .nan

/-- The sum of two numbers, rounded once. The zeros are negative together only, and there is no sum
of opposite infinities. -/
def add : Binary64 → Binary64 → Binary64
  | .nan, _ => .nan
  | _, .nan => .nan
  | .infinite a, .infinite b => if a = b then .infinite a else .nan
  | .infinite a, _ => .infinite a
  | _, .infinite b => .infinite b
  | .finite s m e, .finite t n f =>
    if m = 0 ∧ n = 0 then .finite (s && t) 0 leastExponent
    else
      let (a, b) := magnitude m e
      let (c, d) := magnitude n f
      let signed := fun (negative : Bool) (n : Nat) =>
        if negative then -Int.ofNat n else Int.ofNat n
      let sum := signed s (a * d) + signed t (c * b)
      ofRatio (sum < 0) sum.natAbs (b * d)

/-- The product of a number with a positive one, rounded once; the factor is itself rounded first
and has to be in range. -/
def scaleBy? (x : Binary64) (factor : Nat) : Option Binary64 :=
  match ofInt factor with
  | .finite _ n f => match x with
    | .finite negative m e =>
      let (a, b) := magnitude m e
      let (c, d) := magnitude n f
      some (ofRatio negative (a * c) (b * d))
    | x => some x
  | _ => none

end Binary64

end ApiScaffold
