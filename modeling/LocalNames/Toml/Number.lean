import LocalNames.Text

namespace LocalNames.Toml

def ungroup? (isDigit : Char → Bool) : Text → Option Text
  | [] => none
  | [c] => if isDigit c then some [c] else none
  | c :: '_' :: rest => if isDigit c then (ungroup? isDigit rest).map (c :: ·) else none
  | c :: rest => if isDigit c then (ungroup? isDigit rest).map (c :: ·) else none

def decimal? (text : Text) : Option Text := do
  let digits ← ungroup? Char.isDigit text
  guard (digits.length = 1 ∨ digits.head? ≠ some '0')
  return digits

def unsigned : Text → Bool × Text
  | '+' :: rest => (false, rest)
  | '-' :: rest => (true, rest)
  | text => (false, text)

def isOctal (c : Char) : Bool := '0' ≤ c && c ≤ '7'

def isBinary (c : Char) : Bool := c = '0' || c = '1'

/-- The number that an integer denotes, whatever its size. A base other than ten takes no sign. -/
def wholeNumber? : Text → Option Int
  | '0' :: 'x' :: digits => (ungroup? isHexDigit digits).map fun ds ↦ fromDigits 16 ds
  | '0' :: 'o' :: digits => (ungroup? isOctal digits).map fun ds ↦ fromDigits 8 ds
  | '0' :: 'b' :: digits => (ungroup? isBinary digits).map fun ds ↦ fromDigits 2 ds
  | text =>
    let (negative, digits) := unsigned text
    (decimal? digits).map fun ds ↦
      if negative then -(fromDigits 10 ds : Int) else fromDigits 10 ds

def integer? (text : Text) : Option Int :=
  (wholeNumber? text).filter fun n ↦ -0x8000000000000000 ≤ n ∧ n < 0x8000000000000000

/-- Whether `digits · 10 ^ exponent` lies closer to `2 ^ 1024` than to any double-precision number
below it. The number of digits settles all but a narrow band of exponents. -/
def overflows (digits : Nat) (exponent : Int) : Bool :=
  let magnitude := exponent + (numeral digits).length
  let limit := Nat.pow 2 1024 - Nat.pow 2 970
  if digits = 0 || magnitude < 300 then false
  else if 320 < magnitude then true
  else if 0 ≤ exponent then limit ≤ digits * Nat.pow 10 exponent.toNat
  else limit * Nat.pow 10 (-exponent).toNat ≤ digits

def isDecimalFloat (text : Text) : Bool :=
  let (negative, text) := unsigned text
  let mantissa := text.takeWhile fun c ↦ c ≠ 'e' ∧ c ≠ 'E'
  let exponent := text.drop mantissa.length
  let whole := mantissa.takeWhile (· ≠ '.')
  let fraction := mantissa.drop whole.length
  let part? : Text → Option Text
    | [] => some []
    | _ :: digits => ungroup? Char.isDigit digits
  let (lowered, power) := unsigned (exponent.drop 1)
  match decimal? whole, part? fraction, part? (exponent.take 1 ++ power) with
  | some whole, some decimals, some power =>
    let digits := fromDigits 10 (whole ++ decimals)
    let scale : Int := if lowered then -(fromDigits 10 power : Int) else fromDigits 10 power
    !(fraction.isEmpty && exponent.isEmpty) &&
      (negative || !overflows digits (scale - decimals.length))
  | _, _, _ => false

def isFloat (text : Text) : Bool :=
  let (_, magnitude) := unsigned text
  magnitude = "inf" || magnitude = "nan" || isDecimalFloat text

end LocalNames.Toml
