import ApiScaffold.Number.Binary64

/-!
# The text of a floating-point number

The fewest digits that read back as the number, the nearest of those to it (`shortest`), in
positional notation for decimal exponents from -4 to 15 and with an exponent otherwise (`layout`).

The digits are found by trying lengths in turn. At each length the two neighbours of the value among
the decimals of that length are the only candidates, and both are tested in exact arithmetic.
-/

namespace ApiScaffold.Binary64

/-- The decimal position of a positive ratio: the least `k` with `num / den < 10 ^ k`. -/
def decimalPosition (num den : Nat) : Int :=
  if den ≤ num then Int.ofNat (Nat.toDigits 10 (num / den)).length
  else
    let places := (Nat.toDigits 10 (den / num)).length
    if num * Nat.pow 10 (places - 1) = den then 2 - Int.ofNat places else 1 - Int.ofNat places

/-- The decimal of at most `count` digits that reads back as the number and is nearest to it, as
digits and exponent, if there is one. -/
def decimalOfLength? (m : Nat) (e : Int) (count : Nat) : Option (Nat × Int) :=
  let (num, den) := magnitude m e
  let exponent := decimalPosition num den - Int.ofNat count
  let (num, den) :=
    if exponent < 0 then (num * Nat.pow 10 (-exponent).toNat, den)
    else (num, den * Nat.pow 10 exponent.toNat)
  let low := num / den
  let rest := num % den
  let reads := fun digits => ofDecimal false digits exponent = .finite false m e
  let high := low + 1
  if reads low then
    if reads high ∧ (2 * rest > den ∨ (2 * rest = den ∧ low % 2 = 1)) then some (high, exponent)
    else some (low, exponent)
  else if reads high then some (high, exponent) else none

/-- The shortest decimal that reads back as a positive finite number. -/
def shortest (m : Nat) (e : Int) : Nat × Int :=
  ((List.range 17).findSome? fun i => decimalOfLength? m e (i + 1)).getD (0, 0)

/-- Lays out digits whose decimal point stands `position` places after their start. -/
def layout (digits : List Char) (position : Int) : List Char :=
  let zeros := fun (n : Int) => List.replicate n.toNat '0'
  if position ≤ -4 ∨ 16 < position then
    let exponent := position - 1
    let places := Nat.toDigits 10 exponent.natAbs
    let fraction := match digits.drop 1 with
      | [] => []
      | ds => '.' :: ds
    digits.take 1 ++ fraction ++ ['e', if exponent < 0 then '-' else '+']
      ++ (if places.length < 2 then '0' :: places else places)
  else if position ≤ 0 then ['0', '.'] ++ zeros (-position) ++ digits
  else if position < digits.length then
    digits.take position.toNat ++ ['.'] ++ digits.drop position.toNat
  else digits ++ zeros (position - digits.length) ++ ['.', '0']

/-- The digits of a natural number without the zeros at its end. -/
def significantDigits (n : Nat) : List Char :=
  ((Nat.toDigits 10 n).reverse.dropWhile (· == '0')).reverse

/-- The text of a number. -/
def text : Binary64 → String
  | .nan => "nan"
  | .infinite negative => if negative then "-inf" else "inf"
  | .finite negative m e =>
    let body :=
      if m = 0 then ['0', '.', '0']
      else
        let (digits, exponent) := shortest m e
        layout (significantDigits digits)
          (Int.ofNat (Nat.toDigits 10 digits).length + exponent)
    String.ofList (if negative then '-' :: body else body)

end ApiScaffold.Binary64
