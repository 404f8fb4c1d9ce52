import Frontend.Text.Digit
import Frontend.Text.Quoted

/-! Reading whole numbers.

A whole number is read from a run of decimal digits of any script, each worth its value in its
own script. The run of decimal digits a text starts with is measured first, and one longer than
`digitLimit` is refused before anything else is looked at: reading a number of that many digits
costs time quadratic in its length, so the reader bounds it. Leading zeros count towards the
limit, and what follows the run does not, so a text with a character that is no decimal digit is
refused as too long when its leading run is, and as no number otherwise. -/
namespace Frontend.Decimal

/-- The most digits a whole number is read from. -/
def digitLimit : Nat := 4300

/-- Why a whole number was not read. -/
inductive WholeError where
  /-- The run has more digits than `digitLimit`. -/
  | tooLong (count : Nat)
  /-- A character of the text is no decimal digit. -/
  | notDecimal (text : String)

/-- The number of decimal digits a text starts with. -/
def leadingDigits (cs : List Char) : Nat := (cs.takeWhile Text.isDecimalDigit).length

/-- The value of a run of decimal digits, refused when its leading digits are more than
`digitLimit` or when a character is no decimal digit. -/
def readWhole (cs : List Char) : Except WholeError Nat :=
  if digitLimit < leadingDigits cs then .error (.tooLong (leadingDigits cs))
  else
    match cs.foldlM (fun acc c => (Text.digitValue? c).map fun v => acc * 10 + v) 0 with
    | some n => .ok n
    | none => .error (.notDecimal (String.ofList cs))

/-- What a refusal says. -/
def WholeError.message : WholeError → String
  | .tooLong n =>
    "Exceeds the limit (" ++ toString digitLimit ++
      " digits) for integer string conversion: value has " ++ toString n ++
      " digits; use sys.set_int_max_str_digits() to increase the limit"
  | .notDecimal t =>
    "invalid literal for int() with base 10: " ++ String.ofList ((Text.quote t).toList.take 200)

theorem readWhole_tooLong {cs : List Char} (h : digitLimit < leadingDigits cs) :
    readWhole cs = .error (.tooLong (leadingDigits cs)) := by
  simp [readWhole, h]

/-- A text of decimal digits alone is measured whole. -/
theorem leadingDigits_of_all {cs : List Char} (h : cs.all Text.isDecimalDigit = true) :
    leadingDigits cs = cs.length := by
  unfold leadingDigits
  induction cs with
  | nil => rfl
  | cons c rest ih =>
    simp only [List.all_cons, Bool.and_eq_true] at h
    simp [h.1, ih h.2]

end Frontend.Decimal
