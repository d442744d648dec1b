/-!
The shortest decimal that reads back as a given binary floating-point number of 64 bits: of all
decimals with the fewest digits, the one nearest to the number. All arithmetic is on `Nat`.
-/
namespace FleetControl.Decimal

structure Binary where
  mantissa : Nat
  power : Nat

structure Scaled where
  digits : Nat
  exponent : Int
deriving DecidableEq, Repr

namespace Binary

def ofBits (bits : UInt64) : Binary :=
  let fraction := bits.toNat % Nat.pow 2 52
  let biased := bits.toNat / Nat.pow 2 52 % Nat.pow 2 11
  if biased = 0 then ⟨fraction, 0⟩ else ⟨Nat.pow 2 52 + fraction, biased - 1⟩

/-- Numbers are compared as multiples of a quarter of the last place, so that the ends of the
rounding interval are whole. -/
def quarters (b : Binary) : Nat := 4 * b.mantissa

def lowest (b : Binary) : Nat :=
  b.quarters - if b.mantissa = Nat.pow 2 52 ∧ b.power ≠ 0 then 1 else 2

def highest (b : Binary) : Nat := b.quarters + 2

def fraction (b : Binary) (n : Nat) : Nat × Nat :=
  if 1076 ≤ b.power then (n * Nat.pow 2 (b.power - 1076), 1) else (n, Nat.pow 2 (1076 - b.power))

def sides (b : Binary) (s : Scaled) (n : Nat) : Nat × Nat :=
  let (num, den) := b.fraction n
  if 0 ≤ s.exponent then (s.digits * Nat.pow 10 s.exponent.toNat * den, num)
  else (s.digits * den, num * Nat.pow 10 (-s.exponent).toNat)

def readsBack (b : Binary) (s : Scaled) : Bool :=
  let (x, low) := b.sides s b.lowest
  let (y, high) := b.sides s b.highest
  if b.mantissa % 2 = 0 then low ≤ x && y ≤ high else low < x && y < high

def magnitude (b : Binary) : Int :=
  let (num, den) := b.fraction b.quarters
  if den ≤ num then (((Nat.toDigits 10 (num / den)).length : Int) - 1)
  else -(((List.range 400).find? fun k => den ≤ num * Nat.pow 10 k).getD 0 : Nat)

/-- The neighbours of the number on the grid of decimals with `count` digits. Above a row of nines
the upper one is a power of ten. -/
def neighbours (b : Binary) (count : Nat) : Scaled × Scaled :=
  let exponent := b.magnitude - (count - 1 : Nat)
  let (num, den) := b.fraction b.quarters
  let below := if 0 ≤ exponent then num / (den * Nat.pow 10 exponent.toNat)
    else num * Nat.pow 10 (-exponent).toNat / den
  let above := if below + 1 = Nat.pow 10 count then ⟨Nat.pow 10 (count - 1), exponent + 1⟩
    else ⟨below + 1, exponent⟩
  (⟨below, exponent⟩, above)

def lowerIsNearer (b : Binary) (s : Scaled) : Bool :=
  let (x, v) := b.sides ⟨2 * s.digits + 1, s.exponent⟩ (2 * b.quarters)
  if v = x then s.digits % 2 = 0 else v < x

def withDigits? (b : Binary) (count : Nat) : Option Scaled :=
  let (low, high) := b.neighbours count
  match b.readsBack low, b.readsBack high with
  | true, true => some (if b.lowerIsNearer low then low else high)
  | true, false => some low
  | false, true => some high
  | false, false => none

def shortest (b : Binary) : Scaled :=
  ((List.range 17).findSome? fun n => b.withDigits? (n + 1)).getD (b.neighbours 17).1

end Binary

structure Style where
  lowestPositional : Int
  highestPositional : Int
  exponentDigits : Nat

namespace Style

def padded (s : Style) (n : Nat) : String :=
  let ds := Nat.toDigits 10 n
  String.ofList (List.replicate (s.exponentDigits - ds.length) '0' ++ ds)

def positional (digits : List Char) (magnitude : Int) : List Char :=
  if magnitude < 0 then
    ['0', '.'] ++ List.replicate (-magnitude - 1).toNat '0' ++ digits
  else
    let whole := magnitude.toNat + 1
    let fraction := digits.drop whole
    digits.take whole ++ List.replicate (whole - digits.length) '0' ++ ['.'] ++
      (if fraction.isEmpty then ['0'] else fraction)

def render (s : Style) (d : Scaled) : String :=
  let digits := Nat.toDigits 10 d.digits
  let magnitude := d.exponent + digits.length - 1
  if s.lowestPositional ≤ magnitude ∧ magnitude ≤ s.highestPositional then
    String.ofList (positional digits magnitude)
  else
    let head := match digits with
      | [] => []
      | [x] => [x]
      | x :: rest => x :: '.' :: rest
    String.ofList head ++ (if magnitude < 0 then "e-" else "e+") ++ s.padded magnitude.natAbs

end Style

def renderBits (s : Style) (bits : UInt64) : String :=
  let sign := if bits.toNat / Nat.pow 2 63 = 1 then "-" else ""
  let b := Binary.ofBits bits
  if b.mantissa = 0 then sign ++ "0.0" else sign ++ s.render b.shortest

end FleetControl.Decimal
