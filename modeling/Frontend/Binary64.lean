/-! The fields of a double.

A 64-bit double is a sign bit, an 11-bit biased exponent and a 52-bit fraction. A finite double
with biased exponent `b` and fraction `f` is `(2^52 + f) · 2^(b - 1075)` when `b > 0`, and
`f · 2^(-1074)` when `b = 0`. Biased exponent 2047 is kept for infinities (fraction 0) and NaNs.
Reading a `Float` into its fields and back is the identity on bit patterns. -/
namespace Frontend

/-- The three fields of a double's bit pattern. -/
structure Binary64 where
  /-- The sign bit. -/
  negative : Bool
  /-- The biased exponent, below 2048. -/
  biased : Nat
  /-- The fraction, below 2^52. -/
  fraction : Nat
  deriving DecidableEq

namespace Binary64

/-- The fields of a double. -/
def ofFloat (x : Float) : Binary64 :=
  let bits := x.toBits.toNat
  ⟨bits / Nat.pow 2 63 == 1, bits / Nat.pow 2 52 % Nat.pow 2 11, bits % Nat.pow 2 52⟩

/-- The bit pattern of the fields. -/
def toBits (b : Binary64) : Nat :=
  (if b.negative then Nat.pow 2 63 else 0) + b.biased % Nat.pow 2 11 * Nat.pow 2 52 +
    b.fraction % Nat.pow 2 52

/-- The double with these fields. -/
def toFloat (b : Binary64) : Float := Float.ofBits (UInt64.ofNat b.toBits)

/-- Infinities and NaNs. -/
def isSpecial (b : Binary64) : Bool := b.biased == 2047

/-- The whole-number significand of a finite double: the fraction, with the hidden bit when the
double is normal. -/
def significand (b : Binary64) : Nat :=
  if b.biased == 0 then b.fraction else Nat.pow 2 52 + b.fraction

/-- The power of two that scales the significand of a finite double. -/
def exponent (b : Binary64) : Int :=
  if b.biased == 0 then -1074 else (b.biased : Int) - 1075

/-- The gap to the next smaller double is half the gap to the next larger one: the significand
is a power of two and a smaller exponent exists. -/
def narrowBelow (b : Binary64) : Bool := b.fraction == 0 && b.biased > 1

theorem significand_lt (b : Binary64) (h : b.fraction < Nat.pow 2 52) :
    b.significand < Nat.pow 2 53 := by
  have h53 : Nat.pow 2 53 = 2 * Nat.pow 2 52 := rfl
  unfold significand
  split <;> omega

theorem significand_ge (b : Binary64) (h : b.biased ≠ 0) : Nat.pow 2 52 ≤ b.significand := by
  unfold significand
  rw [if_neg (by simpa using h)]
  omega

example : (ofFloat 1.0).biased = 1023 ∧ (ofFloat 1.0).fraction = 0 := by decide
example : (ofFloat (-2.0)).negative = true := by decide

end Binary64
end Frontend
