/-!
# JSON numbers

The written form of a number, its value where it is a natural number, and the range in which a
number has to lie to be held as a binary floating-point number of 64 bits.
-/

namespace RubyTree.Json

/-- A number as it is written. -/
structure Number where
  negative : Bool
  /-- The digits before the point. -/
  whole : List Char
  /-- The digits after the point, if there is one. -/
  fraction : Option (List Char)
  /-- The sign and the digits of the exponent, if there is one. -/
  exponent : Option (Bool × List Char)
  deriving DecidableEq

namespace Number

/-- The digits at the front of a text, at least one, and what follows them. -/
def digits? (cs : List Char) : Option (List Char × List Char) :=
  match cs.takeWhile Char.isDigit with
  | [] => none
  | digits => some (digits, cs.dropWhile Char.isDigit)

/-- The fraction at the front of a text, if a point stands there. -/
def fraction? : List Char → Option (Option (List Char) × List Char)
  | '.' :: cs => (digits? cs).map fun (digits, rest) => (some digits, rest)
  | cs => some (none, cs)

/-- The exponent at the front of a text, if its letter stands there. -/
def exponent? : List Char → Option (Option (Bool × List Char) × List Char)
  | c :: cs =>
    if c = 'e' ∨ c = 'E' then
      let (negative, cs) := match cs with
        | '-' :: cs => (true, cs)
        | '+' :: cs => (false, cs)
        | cs => (false, cs)
      (digits? cs).map fun (digits, rest) => (some (negative, digits), rest)
    else some (none, c :: cs)
  | [] => some (none, [])

/-- Reads a whole text as a number. Only zero itself may begin with a zero. -/
def read? (text : List Char) : Option Number := do
  let (negative, cs) := match text with
    | '-' :: cs => (true, cs)
    | cs => (false, cs)
  let (whole, cs) ← digits? cs
  if whole.head? = some '0' ∧ whole.length ≠ 1 then none
  else
    let (fraction, cs) ← fraction? cs
    let (exponent, cs) ← exponent? cs
    if cs = [] then some ⟨negative, whole, fraction, exponent⟩ else none

/-- The value of decimal digits after those that make `start`. -/
def valueFrom (start : Nat) (digits : List Char) : Nat :=
  digits.foldl (fun n c => n * 10 + (c.toNat - '0'.toNat)) start

/-- The first number that takes more than 64 bits. -/
def wordLimit : Nat := Nat.pow 2 64

/-- The value of a number that is written as a natural number of at most 64 bits. -/
def natural? (number : Number) : Option Nat :=
  if number.negative ∨ number.fraction.isSome ∨ number.exponent.isSome then none
  else
    let value := valueFrom 0 number.whole
    if value < wordLimit then some value else none

/-! ## Range -/

/-- The nearest number of 53 significant bits; of two nearest ones, the even one. -/
def round53 (n : Nat) : Nat :=
  if n < Nat.pow 2 53 then n
  else
    let unit := Nat.pow 2 (n.log2 - 52)
    let quotient := n / unit
    let remainder := n % unit
    let up := 2 * remainder > unit || (2 * remainder == unit && quotient % 2 == 1)
    (if up then quotient + 1 else quotient) * unit

/-- Takes up digits as long as their value fits into 64 bits: the value, and the number of digits
    taken. -/
def significant (start : Nat) : List Char → Nat × Nat
  | [] => (start, 0)
  | c :: cs =>
    let next := valueFrom start [c]
    if next < wordLimit then
      let (value, count) := significant next cs
      (value, count + 1)
    else (start, 0)

/-- The value of the exponent that is written. -/
def writtenExponent (number : Number) : Int :=
  match number.exponent with
  | none => 0
  | some (negative, digits) =>
    if negative then -(valueFrom 0 digits : Int) else valueFrom 0 digits

/-- The least number that rounding to 53 significant bits carries out of the floating-point
    range. -/
def floatLimit : Nat := Nat.pow 2 1024 - Nat.pow 2 970

/-- The number does not exceed the floating-point range. Its leading digits, as many as fit into
    64 bits, are multiplied by a power of ten; both factors are rounded first. -/
def inRange (number : Number) : Bool :=
  let (leading, count) := significant 0 number.whole
  let (value, more) := significant leading (number.fraction.getD [])
  let exponent : Int := number.writtenExponent + (number.whole.length - count : Nat) - more
  value == 0 || exponent < 0
    || (exponent ≤ 308 && round53 value * round53 (Nat.pow 10 exponent.toNat) < floatLimit)

end Number

end RubyTree.Json
