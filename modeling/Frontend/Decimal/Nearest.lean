import Frontend.Binary64
import Frontend.Decimal.Basic
import Frontend.Text.Digit

/-! The double nearest to a decimal, and reading a number's text.

`toBinary` rounds a nonnegative decimal to the nearest double, a tie going to the even
significand, and past the largest double to infinity; a decimal below half the least subnormal
becomes zero. The arithmetic is exact: the decimal is a fraction `num / den` of whole numbers,
its binary magnitude is found from the bit lengths of both, and the significand is one whole
division, rounded by its remainder. -/
namespace Frontend.Decimal

/-- Positive infinity. -/
def infinity : Binary64 := ⟨false, 2047, 0⟩

/-- A quiet NaN. -/
def notANumber : Binary64 := ⟨false, 2047, Nat.pow 2 51⟩

/-- Whether `num / den ≥ 2^g`. -/
def atLeastPow (num den : Nat) (g : Int) : Bool :=
  den * Nat.pow 2 g.toNat ≤ num * Nat.pow 2 (-g).toNat

/-- The double nearest to a nonnegative decimal. -/
def toBinary (d : Decimal) : Binary64 :=
  if d.digits = 0 then ⟨false, 0, 0⟩ else
  let k := d.exponent
  let num := if 0 ≤ k then d.digits * Nat.pow 10 k.toNat else d.digits
  let den := if 0 ≤ k then 1 else Nat.pow 10 k.natAbs
  let guess : Int := (num.log2 : Int) - den.log2
  if guess > 1025 then infinity
  else if guess < -1080 then ⟨false, 0, 0⟩
  else
    -- the leading binary digit stands at `guess` or one below
    let top := if atLeastPow num den guess then guess else guess - 1
    let b := max (top - 52) (-1074)
    let n' := if 0 ≤ b then num else num * Nat.pow 2 b.natAbs
    let d' := if 0 ≤ b then den * Nat.pow 2 b.toNat else den
    let q := n' / d'
    let r := n' % d'
    let q := if 2 * r > d' ∨ (2 * r = d' ∧ q % 2 = 1) then q + 1 else q
    let carry := q == Nat.pow 2 53
    let q := if carry then Nat.pow 2 52 else q
    let b := if carry then b + 1 else b
    if q < Nat.pow 2 52 then ⟨false, 0, q⟩
    else if 2047 ≤ b + 1075 then infinity
    else ⟨false, (b + 1075).toNat, q - Nat.pow 2 52⟩

/-- The double nearest to a nonnegative decimal. -/
def toFloat (d : Decimal) : Float := d.toBinary.toFloat

/-- The value of a run of decimal digits of any script, `none` if one is not a digit. -/
def digitsValue? (cs : List Char) : Option Nat :=
  cs.foldlM (fun acc c => (Text.digitValue? c).map fun v => acc * 10 + v) 0

/-- The decimal written `int.frac`, from its two runs of digits. -/
def ofParts? (int frac : List Char) : Option Decimal := do
  let n ← digitsValue? (int ++ frac)
  pure ⟨n, -(frac.length : Int)⟩

/-- Reads `[sign] digits [. digits] [e [sign] digits]`, `inf` or `nan`, with at least one digit
before or after the point. -/
def readFloat? (s : String) : Option Float :=
  let cs := s.toList
  let (negative, cs) := match cs with
    | '-' :: r => (true, r)
    | '+' :: r => (false, r)
    | r => (false, r)
  let sign (b : Binary64) : Float := { b with negative := negative }.toFloat
  if cs = "inf".toList ∨ cs = "infinity".toList then some (sign infinity)
  else if cs = "nan".toList then some (sign notANumber)
  else
    let isDigit (c : Char) : Bool := c.isDigit
    let int := cs.takeWhile isDigit
    let rest := cs.dropWhile isDigit
    let (frac, rest) := match rest with
      | '.' :: r => (r.takeWhile isDigit, r.dropWhile isDigit)
      | r => ([], r)
    let expo : Option Int := match rest with
      | [] => some 0
      | e :: r =>
        if e = 'e' ∨ e = 'E' then
          let (neg, r) := match r with
            | '-' :: t => (true, t)
            | '+' :: t => (false, t)
            | t => (false, t)
          if r ≠ [] ∧ r.all isDigit then
            (digitsValue? r).map fun v => if neg then -(v : Int) else v
          else none
        else none
    if int = [] ∧ frac = [] then none
    else do
      let e ← expo
      let d ← ofParts? int frac
      pure (sign (toBinary ⟨d.digits, d.exponent + e⟩))

example : (toBinary ⟨1, 0⟩).biased = 1023 := by decide +kernel
example : (toBinary ⟨1, 400⟩) = infinity := by decide +kernel

end Frontend.Decimal
