import MatchingEngine.Model.StopTime

/-!
# How a stop time may be written

A stop time is three integers with colons between them.  White space may stand
before and after each of them, an integer may have a sign and leading zeros, and
nothing else may follow.
-/

namespace MatchingEngine
namespace Replay

open InputStream (isSpace)

/-- A text of white space only. -/
def Blank (text : List UInt8) : Prop :=
  ∀ character ∈ text, isSpace character = true

/-- A text of digits, at least one. -/
def Digits (text : List UInt8) : Prop :=
  text ≠ [] ∧ ∀ character ∈ text, Decimal.isDigit character = true

/-- An integer as it may be written. -/
inductive WritesInt : List UInt8 → Int → Prop
  | unsigned {digits : List UInt8} (isDigits : Digits digits) :
      WritesInt digits (Decimal.value digits)
  | plus {digits : List UInt8} (isDigits : Digits digits) :
      WritesInt (char '+' :: digits) (Decimal.value digits)
  | minus {digits : List UInt8} (isDigits : Digits digits) :
      WritesInt (char '-' :: digits) (-Decimal.value digits)

/-- An integer with white space around it. -/
def WritesField (text : List UInt8) (value : Int) : Prop :=
  ∃ before written after, text = before ++ written ++ after ∧
    Blank before ∧ WritesInt written value ∧ Blank after

/-- A time of day as it may be written, whatever its values. -/
def WritesTime (text : List UInt8) (hours minutes seconds : Int) : Prop :=
  ∃ hoursText minutesText secondsText,
    text = hoursText ++ char ':' :: (minutesText ++ char ':' :: secondsText) ∧
    WritesField hoursText hours ∧ WritesField minutesText minutes ∧
    WritesField secondsText seconds

/-- The values of a time of day. -/
def OnClock (hours minutes seconds : Int) : Prop :=
  (0 ≤ hours ∧ hours ≤ 23) ∧ (0 ≤ minutes ∧ minutes ≤ 59) ∧
    0 ≤ seconds ∧ seconds ≤ 59

/-- The nanoseconds since midnight of a time of day. -/
def nanoseconds (hours minutes seconds : Int) : Int :=
  (hours * 3600 + minutes * 60 + seconds) * 1000000000

/-- A text is a time of day, so many nanoseconds since midnight. -/
def IsTimeOfDay (text : List UInt8) (timestamp : Timestamp) : Prop :=
  ∃ hours minutes seconds, WritesTime text hours minutes seconds ∧
    OnClock hours minutes seconds ∧ (timestamp.toNat : Int) = nanoseconds hours minutes seconds

/-! ## Characters -/

theorem isDigit_of_isSpace
    {character : UInt8}
    (space : isSpace character = true) :
    Decimal.isDigit character = false := by
  simp only [isSpace, Bool.or_eq_true, Bool.and_eq_true, decide_eq_true_eq] at space
  rw [Bool.eq_false_iff]
  intro digit
  simp only [Decimal.isDigit, Bool.and_eq_true, decide_eq_true_eq] at digit
  have atLeast : 48 ≤ character.toNat := digit.1
  rcases space with blank | control
  · rw [blank] at atLeast
    exact absurd atLeast (by decide)
  · have atMost : character.toNat ≤ 13 := control.2
    omega

theorem isSpace_of_isDigit
    {character : UInt8}
    (digit : Decimal.isDigit character = true) :
    isSpace character = false := by
  rw [Bool.eq_false_iff]
  intro space
  rw [isDigit_of_isSpace space] at digit
  exact Bool.false_ne_true digit

/-- No digit comes next. -/
def NoDigitNext (text : List UInt8) : Prop :=
  ∀ character ∈ text.head?, Decimal.isDigit character = false

end Replay
end MatchingEngine
