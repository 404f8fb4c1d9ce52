/-! Decimal numbers and their text.

A `Decimal` is `digits · 10^exponent`. Its text follows a `Notation`: a number whose leading
digit stands at a power of ten within the notation's window is written positionally, any other
in exponent form with a signed exponent of at least the notation's width. Positional whole
numbers keep a fractional zero (`1.0`) when the notation asks for it. -/
namespace Frontend

/-- The number `digits · 10^exponent`. -/
structure Decimal where
  digits : Nat
  exponent : Int

/-- How a decimal is written. -/
structure Notation where
  /-- The least power of ten of the leading digit that is still written positionally. -/
  positionalFrom : Int
  /-- The first power of ten of the leading digit written in exponent form again. -/
  positionalBelow : Int
  /-- The least number of exponent digits. -/
  exponentWidth : Nat
  /-- Whether a positional whole number ends in `.0`. -/
  pointZero : Bool

namespace Decimal

/-- The number of decimal digits of a whole number; zero has one. -/
def digitCount (n : Nat) : Nat := (Nat.toDigits 10 n).length

/-- The same number without trailing zeros in its digits. -/
def trim (d : Decimal) : Decimal :=
  if h : d.digits ≠ 0 ∧ d.digits % 10 = 0 then
    trim ⟨d.digits / 10, d.exponent + 1⟩
  else d
termination_by d.digits
decreasing_by omega

/-- `n` zeros. -/
def zeros (n : Nat) : String := String.ofList (List.replicate n '0')

/-- The text of a positive decimal with no trailing zeros, in the given notation. -/
def write (style : Notation) (d : Decimal) : String :=
  let ds := Nat.toDigits 10 d.digits
  let len := ds.length
  -- the leading digit stands at 10^lead
  let lead : Int := len + d.exponent - 1
  if style.positionalFrom ≤ lead ∧ lead < style.positionalBelow then
    let point : Int := lead + 1
    if point ≤ 0 then
      "0." ++ zeros point.natAbs ++ String.ofList ds
    else if point < len then
      String.ofList (ds.take point.toNat) ++ "." ++ String.ofList (ds.drop point.toNat)
    else
      String.ofList ds ++ zeros (point.toNat - len) ++ (if style.pointZero then ".0" else "")
  else
    let mantissa := match ds with
      | [] => "0"
      | [c] => String.singleton c
      | c :: rest => String.singleton c ++ "." ++ String.ofList rest
    let mag := Nat.toDigits 10 lead.natAbs
    let mag := List.replicate (style.exponentWidth - mag.length) '0' ++ mag
    mantissa ++ "e" ++ (if lead < 0 then "-" else "+") ++ String.ofList mag

theorem trim_digits_ne (d : Decimal) (h : d.digits ≠ 0) : (trim d).digits ≠ 0 := by
  induction d using trim.induct with
  | case1 d hd ih =>
    rw [trim, dif_pos hd]
    obtain ⟨h1, h2⟩ := hd
    exact ih (show d.digits / 10 ≠ 0 by omega)
  | case2 d hd =>
    rw [trim, dif_neg hd]
    exact h

end Decimal
end Frontend
