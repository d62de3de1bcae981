import Mathlib.Data.List.TakeWhile
import MatchingEngine.Reference.StopTime

/-!
# Extracting the fields of a stop time

Each extraction of the driver takes just what the grammar of a stop time allows:
a field that is written is extracted, and what is extracted without a failure is
written.
-/

namespace MatchingEngine
namespace Replay

open InputStream (isSpace sentry)

/-! ## Streams -/

namespace InputStream

variable {input : InputStream}

theorem eq_of_good (good : input.good = true) : input = { rest := input.rest } := by
  obtain ⟨rest, eofbit, failbit⟩ := input
  simp only [InputStream.good, Bool.and_eq_true, Bool.not_eq_true'] at good
  obtain ⟨rfl, rfl⟩ := good
  rfl

/-- White space before another character is skipped. -/
theorem sentry_of_blank
    {before rest : List UInt8} {character : UInt8}
    (blank : Blank before)
    (notSpace : isSpace character = false) :
    sentry { rest := before ++ character :: rest } = { rest := character :: rest } := by
  have skipped : (before ++ character :: rest).dropWhile isSpace = character :: rest := by
    rw [List.dropWhile_append_of_pos blank, List.dropWhile_cons_of_neg (by simp [notSpace])]
  simp [sentry, good, skipped]

/-- A sentry that does not fail has found a character after white space, on a good
stream. -/
theorem of_sentry (passed : input.sentry.failed = false) :
    ∃ before character rest, input = { rest := before ++ character :: rest } ∧ Blank before ∧
      isSpace character = false := by
  by_cases isGood : input.good = true
  case neg =>
    simp [sentry, isGood, failed] at passed
  rw [eq_of_good isGood] at passed ⊢
  cases skipped : input.rest.dropWhile isSpace with
  | nil => simp [sentry, good, skipped, failed] at passed
  | cons character rest =>
      refine ⟨input.rest.takeWhile isSpace, character, rest, ?_, ?_, ?_⟩
      · rw [← skipped, List.takeWhile_append_dropWhile]
      · exact List.all_eq_true.mp List.all_takeWhile
      · have head := List.head?_dropWhile_not isSpace input.rest
        rw [skipped] at head
        simpa using head

end InputStream

/-! ## Extractions -/

theorem extractChar_of_blank
    {before rest : List UInt8} {character : UInt8}
    (blank : Blank before)
    (notSpace : isSpace character = false) :
    extractChar { rest := before ++ character :: rest } = (character, { rest }) := by
  simp only [extractChar, InputStream.sentry_of_blank blank notSpace]
  rfl

theorem of_extractChar
    {input : InputStream}
    (passed : (extractChar input).2.failed = false) :
    ∃ before character rest, input = { rest := before ++ character :: rest } ∧ Blank before ∧
      isSpace character = false := by
  apply InputStream.of_sentry
  rw [Bool.eq_false_iff]
  intro refused
  rw [extractChar] at passed
  split at passed
  · exact Bool.false_ne_true (passed.symm.trans refused)
  · rw [if_pos refused] at passed
    exact Bool.false_ne_true (passed.symm.trans refused)

/-- The digits of a numeral are taken up to the next other character. -/
theorem munch_digits
    {digits rest : List UInt8}
    (isDigits : Digits digits)
    (noDigit : NoDigitNext rest) :
    (digits ++ rest).takeWhile Decimal.isDigit = digits ∧
      (digits ++ rest).dropWhile Decimal.isDigit = rest := by
  have stops : rest.takeWhile Decimal.isDigit = [] ∧ rest.dropWhile Decimal.isDigit = rest := by
    cases rest with
    | nil => exact ⟨rfl, rfl⟩
    | cons character rest =>
        have other : Decimal.isDigit character = false := noDigit character rfl
        simp [other]
  rw [List.takeWhile_append_of_pos isDigits.2, List.dropWhile_append_of_pos isDigits.2, stops.1,
    stops.2, List.append_nil]
  exact ⟨rfl, rfl⟩

theorem noDigitNext_dropWhile (text : List UInt8) :
    NoDigitNext (text.dropWhile Decimal.isDigit) := by
  intro character first
  have head := List.head?_dropWhile_not Decimal.isDigit text
  rwa [Option.mem_def.mp first] at head

/-- Digits that an extraction has taken. -/
theorem digits_takeWhile
    {text : List UInt8}
    (some : text.takeWhile Decimal.isDigit ≠ []) :
    Digits (text.takeWhile Decimal.isDigit) :=
  ⟨some, List.all_eq_true.mp List.all_takeWhile⟩

theorem takeInt_of_digits
    {digits rest : List UInt8} {negative : Bool} {value : Int}
    (isDigits : Digits digits)
    (noDigit : NoDigitNext rest)
    (signed : (if negative then -(Decimal.value digits : Int) else Decimal.value digits) = value)
    (range : InInt32 value) :
    takeInt negative (digits ++ rest) = (value, { rest, eofbit := rest.isEmpty }) := by
  obtain ⟨taken, left⟩ := munch_digits isDigits noDigit
  simp only [takeInt, taken, left, signed, isDigits.1, range, not_true_eq_false, or_self, if_false]

theorem of_takeInt
    {negative : Bool} {unsigned : List UInt8}
    (passed : (takeInt negative unsigned).2.failed = false) :
    ∃ digits rest, unsigned = digits ++ rest ∧ Digits digits ∧ NoDigitNext rest ∧
      InInt32 (if negative then -(Decimal.value digits : Int) else Decimal.value digits) := by
  by_cases refused : unsigned.takeWhile Decimal.isDigit = [] ∨
      ¬ InInt32 (if negative then -(Decimal.value (unsigned.takeWhile Decimal.isDigit) : Int)
        else Decimal.value (unsigned.takeWhile Decimal.isDigit))
  · simp only [takeInt, refused, if_true] at passed
    cases passed
  · rw [not_or, not_not] at refused
    exact ⟨_, _, List.takeWhile_append_dropWhile.symm, digits_takeWhile refused.1,
      noDigitNext_dropWhile unsigned, refused.2⟩

theorem extractInt_of_sentry
    {input : InputStream} {character : UInt8} {rest : List UInt8}
    (passed : input.sentry = { rest := character :: rest }) :
    extractInt input =
      if character = char '-' then takeInt true rest
      else if character = char '+' then takeInt false rest
      else takeInt false (character :: rest) := by
  simp only [extractInt, passed]
  rfl

theorem extractInt_of_writes
    {before written rest : List UInt8} {value : Int}
    (blank : Blank before)
    (writes : WritesInt written value)
    (noDigit : NoDigitNext rest)
    (range : InInt32 value) :
    extractInt { rest := before ++ (written ++ rest) } =
      (value, { rest, eofbit := rest.isEmpty }) := by
  cases writes with
  | @unsigned digits isDigits =>
      obtain ⟨character, others, rfl⟩ := List.exists_cons_of_ne_nil isDigits.1
      have digit := isDigits.2 character List.mem_cons_self
      have different : ∀ sign, Decimal.isDigit sign = false → character ≠ sign := by
        rintro sign noDigit rfl
        exact Bool.false_ne_true (noDigit.symm.trans digit)
      rw [List.cons_append,
        extractInt_of_sentry (InputStream.sentry_of_blank blank (isSpace_of_isDigit digit)),
        if_neg (different _ (by decide)), if_neg (different _ (by decide)), ← List.cons_append]
      exact takeInt_of_digits isDigits noDigit rfl range
  | plus isDigits =>
      rw [List.cons_append, extractInt_of_sentry (InputStream.sentry_of_blank blank (by decide)),
        if_neg (by decide), if_pos rfl]
      exact takeInt_of_digits isDigits noDigit rfl range
  | minus isDigits =>
      rw [List.cons_append, extractInt_of_sentry (InputStream.sentry_of_blank blank (by decide)),
        if_pos rfl]
      exact takeInt_of_digits isDigits noDigit rfl range

theorem of_extractInt
    {input : InputStream}
    (passed : (extractInt input).2.failed = false) :
    ∃ before written rest value, input = { rest := before ++ (written ++ rest) } ∧
      Blank before ∧ WritesInt written value ∧ NoDigitNext rest ∧ InInt32 value := by
  have sentryPassed : input.sentry.failed = false := by
    rw [Bool.eq_false_iff]
    intro refused
    rw [extractInt] at passed
    split at passed
    · exact Bool.false_ne_true (passed.symm.trans refused)
    · rw [if_pos refused] at passed
      exact Bool.false_ne_true (passed.symm.trans refused)
  obtain ⟨before, character, text, rfl, blank, notSpace⟩ := InputStream.of_sentry sentryPassed
  rw [extractInt_of_sentry (InputStream.sentry_of_blank blank notSpace)] at passed
  split at passed
  · next minus =>
      obtain ⟨digits, rest, rfl, isDigits, noDigit, range⟩ := of_takeInt passed
      exact ⟨before, _, rest, _, by rw [minus]; rfl, blank, .minus isDigits, noDigit, range⟩
  split at passed
  · next plus =>
      obtain ⟨digits, rest, rfl, isDigits, noDigit, range⟩ := of_takeInt passed
      exact ⟨before, _, rest, _, by rw [plus]; rfl, blank, .plus isDigits, noDigit, range⟩
  · obtain ⟨digits, rest, split, isDigits, noDigit, range⟩ := of_takeInt passed
    exact ⟨before, digits, rest, _, by rw [split], blank, .unsigned isDigits, noDigit, range⟩

/-! ## Fields -/

theorem noDigitNext_of_blank
    {blanks rest : List UInt8}
    (blank : Blank blanks)
    (noDigit : NoDigitNext rest) :
    NoDigitNext (blanks ++ rest) := by
  intro character first
  cases blanks with
  | nil => exact noDigit character first
  | cons space blanks =>
      obtain rfl := Option.some.inj first
      exact isDigit_of_isSpace (blank space List.mem_cons_self)

theorem noDigitNext_colon (rest : List UInt8) : NoDigitNext (char ':' :: rest) := by
  intro character first
  obtain rfl := Option.some.inj first
  rfl

/-- A field and the colon behind it are extracted. -/
theorem WritesField.extract
    {text : List UInt8} {value : Int}
    (writes : WritesField text value)
    (range : InInt32 value)
    (rest : List UInt8) :
    ∃ input, extractInt { rest := text ++ char ':' :: rest } = (value, input) ∧
      extractChar input = (char ':', { rest }) := by
  obtain ⟨before, written, after, rfl, blankBefore, writesInt, blankAfter⟩ := writes
  have extracted := extractInt_of_writes blankBefore writesInt
    (noDigitNext_of_blank blankAfter (noDigitNext_colon rest)) range
  refine ⟨_, ?_, extractChar_of_blank blankAfter (by decide)⟩
  rw [List.append_assoc, List.append_assoc, extracted]
  cases after <;> rfl

/-- The last field is extracted, and only white space is left. -/
theorem WritesField.extract_last
    {text : List UInt8} {value : Int}
    (writes : WritesField text value)
    (range : InInt32 value) :
    ∃ input, extractInt { rest := text } = (value, input) ∧ input.failed = false ∧
      input.skipSpaces.eofbit = true := by
  obtain ⟨before, written, after, rfl, blankBefore, writesInt, blankAfter⟩ := writes
  have noDigit : NoDigitNext after := by
    rw [← List.append_nil after]
    exact noDigitNext_of_blank blankAfter (by simp [NoDigitNext])
  refine ⟨{ rest := after, eofbit := after.isEmpty }, ?_, rfl, ?_⟩
  · rw [List.append_assoc]
    exact extractInt_of_writes blankBefore writesInt noDigit range
  · have nothingLeft : after.dropWhile isSpace = [] := List.dropWhile_eq_nil_iff.mpr blankAfter
    simp [InputStream.skipSpaces, nothingLeft]

/-- An extracted `int` and an extracted character behind it are a field and the character. -/
theorem of_extract
    {input after : InputStream} {value : Int} {next : UInt8}
    {last : InputStream}
    (extractedInt : extractInt input = (value, after))
    (extractedChar : extractChar after = (next, last))
    (passed : last.failed = false) :
    ∃ text rest, input = { rest := text ++ next :: rest } ∧ last = { rest } ∧
      WritesField text value ∧ InInt32 value := by
  have charPassed : (extractChar after).2.failed = false := by rw [extractedChar, passed]
  obtain ⟨blanks, character, rest, rfl, blank, notSpace⟩ := of_extractChar charPassed
  rw [extractChar_of_blank blank notSpace] at extractedChar
  obtain ⟨rfl, rfl⟩ := Prod.mk.inj extractedChar
  have intPassed : (extractInt input).2.failed = false := by rw [extractedInt]; rfl
  obtain ⟨before, written, behind, found, rfl, blankBefore, writesInt, noDigit, range⟩ :=
    of_extractInt intPassed
  rw [extractInt_of_writes blankBefore writesInt noDigit range] at extractedInt
  obtain ⟨rfl, left⟩ := Prod.mk.inj extractedInt
  obtain rfl := (InputStream.mk.inj left).1
  refine ⟨before ++ written ++ blanks, rest, ?_, rfl,
    ⟨before, written, blanks, rfl, blankBefore, writesInt, blank⟩, range⟩
  simp only [List.append_assoc]

/-- A last extracted `int` with only white space behind it is a field. -/
theorem of_extract_last
    {input after : InputStream} {value : Int}
    (extractedInt : extractInt input = (value, after))
    (passed : after.failed = false)
    (atEnd : after.skipSpaces.eofbit = true) :
    ∃ text, input = { rest := text } ∧ WritesField text value ∧ InInt32 value := by
  have intPassed : (extractInt input).2.failed = false := by rw [extractedInt, passed]
  obtain ⟨before, written, behind, found, rfl, blankBefore, writesInt, noDigit, range⟩ :=
    of_extractInt intPassed
  rw [extractInt_of_writes blankBefore writesInt noDigit range] at extractedInt
  obtain ⟨rfl, rfl⟩ := Prod.mk.inj extractedInt
  have nothingLeft : behind.dropWhile isSpace = [] := by
    cases behind with
    | nil => rfl
    | cons character behind => simpa [InputStream.skipSpaces] using atEnd
  exact ⟨before ++ (written ++ behind), rfl, ⟨before, written, behind,
    (List.append_assoc ..).symm, blankBefore, writesInt, List.dropWhile_eq_nil_iff.mp nothingLeft⟩,
    range⟩

end Replay
end MatchingEngine
