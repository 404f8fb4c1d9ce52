import Frontend.Binary64
import Frontend.Decimal.Basic

/-! The shortest decimal of a double.

A finite positive double `m · 2^e` stands for every real that rounds to it: the open interval
between the midpoints to its two neighbours, closed when `m` is even, since a tie rounds to the
even significand. Among the decimals in that interval, `shortest` takes one with the fewest
digits and, of those, the one nearest to the double; an exact tie goes to the even last digit.

All arithmetic is on whole numbers: the interval's ends and the double are scaled by a common
power of two or five so that they become whole. If some decimal of `n` digits lies in the
interval, so does one of the double's two neighbours on the grid of `n`-digit decimals, so
trying those two for `n = 1, 2, …` finds the shortest. -/
namespace Frontend.Decimal

/-- A double and the ends of the interval that rounds to it, as whole multiples of
`10^scale`. -/
structure Bracket where
  low : Nat
  value : Nat
  high : Nat
  /-- Whether the ends themselves round to the double. -/
  closed : Bool
  scale : Int

/-- The bracket of `m · 2^e`; `narrow` says that the gap below is half the gap above. -/
def bracket (m : Nat) (e : Int) (narrow : Bool) : Bracket :=
  let gapBelow := if narrow then 1 else 2
  -- the double and its ends, in units of 2^(e-2)
  let t := e - 2
  let unit := if 0 ≤ t then Nat.pow 2 t.toNat else Nat.pow 5 t.natAbs
  { low := (4 * m - gapBelow) * unit
    value := 4 * m * unit
    high := (4 * m + 2) * unit
    closed := m % 2 == 0
    scale := if 0 ≤ t then 0 else t }

namespace Bracket

/-- Whether a multiple of `10^scale` rounds to the double. -/
def holds (b : Bracket) (c : Nat) : Bool :=
  if b.closed then b.low ≤ c && c ≤ b.high else b.low < c && c < b.high

/-- The decimal of `n` digits nearest to the double that rounds to it, if any; `len` is the
number of digits of the scaled double. -/
def atLength (b : Bracket) (len n : Nat) : Option Decimal :=
  let grid := Nat.pow 10 (len - n)
  let down := b.value / grid
  let below := b.holds (down * grid)
  let above := b.holds ((down + 1) * grid)
  let gapDown := b.value - down * grid
  let gapUp := (down + 1) * grid - b.value
  let pick :=
    if below && above then
      if gapDown < gapUp then down
      else if gapUp < gapDown then down + 1
      else if down % 2 == 0 then down else down + 1
    else if below then down else down + 1
  if below || above then some ⟨pick, b.scale + (len - n : Nat)⟩ else none

/-- The shortest decimal that rounds to the double, nearest among the shortest. -/
def shortest (b : Bracket) : Decimal :=
  let len := digitCount b.value
  match (List.range len).findSome? fun i => b.atLength len (i + 1) with
  | some d => d.trim
  | none => Decimal.trim ⟨b.value, b.scale⟩

end Bracket

/-- The shortest decimal of a finite nonzero double's magnitude. -/
def ofBinary (b : Binary64) : Decimal :=
  (bracket b.significand b.exponent b.narrowBelow).shortest

example : (ofBinary (Binary64.ofFloat 0.1)).digits = 1 := by decide +kernel
example : (ofBinary (Binary64.ofFloat 5e-324)).digits = 5 := by decide +kernel

end Frontend.Decimal
