import Frontend.Decimal.Shortest

/-! Values carried by tokens: text, whole numbers and reals.

A value's text (`render`) is the text itself, a whole number's decimal digits with a leading `-`
when negative, or a real's shortest decimal that reads back to it. Reals are written positionally
while their leading digit stands from `10^-4` up to below `10^16`, with `.0` on whole numbers,
and otherwise as `d.ddde±XX`; zero keeps its sign (`-0.0`), and the non-finite values are `inf`,
`-inf` and `nan`. -/
namespace Frontend

/-- What a token carries. -/
inductive Value where
  | text (s : String)
  | int (n : Int)
  | real (x : Float)

namespace Value

/-- Reals are positional from `10^-4` up to below `10^16`, with `.0` on whole numbers, and
otherwise have an exponent of at least two digits. -/
def realNotation : Notation := ⟨-4, 16, 2, true⟩

/-- The text of a real: its shortest decimal in `realNotation`. -/
def writeReal (x : Float) : String :=
  let b := Binary64.ofFloat x
  let sign := if b.negative then "-" else ""
  if b.isSpecial then
    if b.fraction == 0 then sign ++ "inf" else "nan"
  else if b.significand == 0 then sign ++ "0.0"
  else sign ++ (Decimal.ofBinary b).write realNotation

/-- The text of a whole number. -/
def writeInt (n : Int) : String :=
  if n < 0 then "-" ++ String.ofList (Nat.toDigits 10 n.natAbs)
  else String.ofList (Nat.toDigits 10 n.toNat)

/-- A value's text. -/
def render : Value → String
  | text s => s
  | int n => writeInt n
  | real x => writeReal x

/-- The whole number a numeric value equals, if it equals one: an integer, or a finite real with
no fractional part. -/
def wholeValue? : Value → Option Int
  | int n => some n
  | real x =>
    let b := Binary64.ofFloat x
    if b.isSpecial then none
    else
      let m := b.significand
      let e := b.exponent
      let mag : Option Nat :=
        if 0 ≤ e then some (m * Nat.pow 2 e.toNat)
        else if m % Nat.pow 2 e.natAbs == 0 then some (m / Nat.pow 2 e.natAbs) else none
      mag.map fun k => if b.negative then -(k : Int) else k
  | text _ => none

/-- Whether the value is the given text. -/
def isText (v : Value) (s : String) : Bool :=
  match v with
  | text t => t == s
  | _ => false

end Value
end Frontend
