/-!
The shortest decimal of a binary floating-point number. Among the decimals that lie between the
number's two rounding bounds, the one with the fewest digits is taken, and of those the nearest.
-/

namespace AddressLookup.Decimal

/-- The magnitude `significand * 2 ^ exponent` of a finite double-precision number. -/
structure Binary where
  significand : Nat
  exponent : Int
  deriving DecidableEq, Repr

namespace Binary

def hiddenBit : Nat := 0x10000000000000

def ofBits (bits : UInt64) : Binary :=
  let fraction : Nat := bits.toNat % hiddenBit
  let biased : Nat := bits.toNat / hiddenBit % 2048
  if biased = 0 then ⟨fraction, -1074⟩ else ⟨hiddenBit + fraction, (biased : Int) - 1075⟩

def atPowerOfTwo (b : Binary) : Bool :=
  b.significand == hiddenBit && decide (-1074 < b.exponent)

end Binary

structure Scientific where
  digits : Nat
  exponent : Int
  deriving DecidableEq, Repr

namespace Scientific

def dropZeros : Nat → Scientific → Scientific
  | 0, s => s
  | fuel + 1, s =>
    if s.digits % 10 = 0 && s.digits ≠ 0 then dropZeros fuel ⟨s.digits / 10, s.exponent + 1⟩ else s

end Scientific

/-- A comparison of fractions: `(n, d)` stands for `n / d`. -/
def fractionLe (a b : Nat × Nat) : Bool :=
  a.1 * b.2 ≤ b.1 * a.2

def scaled (n base : Nat) (e : Int) : Nat × Nat :=
  if 0 ≤ e then (n * Nat.pow base e.toNat, 1) else (n, Nat.pow base (-e).toNat)

def leadingExponent (b : Binary) : Int :=
  let (n, d) := scaled b.significand 2 b.exponent
  ((Nat.toDigits 10 (n * Nat.pow 10 400 / d)).length : Int) - 401

/-- The decimals next to a number on the grid of multiples of `10 ^ e` that round to the number. -/
def candidatesAt (b : Binary) (e : Int) : List Scientific :=
  let quarter := b.exponent - 2
  let low := scaled (4 * b.significand - if b.atPowerOfTwo then 1 else 2) 2 quarter
  let high := scaled (4 * b.significand + 2) 2 quarter
  let (n, d) := scaled b.significand 2 b.exponent
  let (p, q) := scaled 1 10 e
  let floor := n * q / (d * p)
  let inside (k : Nat) : Bool :=
    let x := scaled k 10 e
    if b.significand % 2 = 0 then fractionLe low x && fractionLe x high
    else fractionLe low x && !fractionLe x low && fractionLe x high && !fractionLe high x
  ([floor, floor + 1].filter fun k => k ≠ 0 && inside k).map (⟨·, e⟩)

def nearer (b : Binary) (low high : Scientific) : Scientific :=
  let (n, d) := scaled b.significand 2 b.exponent
  let (p, q) := scaled (low.digits + high.digits) 10 low.exponent
  let double := 2 * n * q
  let middle := p * d
  if double < middle then low
  else if middle < double then high
  else if low.digits % 2 = 0 then low
  else high

def searchFrom (b : Binary) (first : Int) : Nat → Nat → Scientific
  | 0, _ => ⟨b.significand, 0⟩
  | left + 1, count =>
    match candidatesAt b (first - count) with
    | [s] => s
    | [s, t] => nearer b s t
    | _ => searchFrom b first left (count + 1)

/-- Seventeen digits always suffice. -/
def shortest (b : Binary) : Scientific :=
  if b.significand = 0 then ⟨0, 0⟩
  else Scientific.dropZeros 20 (searchFrom b (leadingExponent b) 18 0)

end AddressLookup.Decimal
