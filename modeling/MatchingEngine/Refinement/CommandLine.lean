import MatchingEngine.Reference.CommandLine
import MatchingEngine.Refinement.StopTime

/-!
# Reading the numbers of a command line

`std::stoull` and `std::stoll` read an argument if and only if it starts with an integer of
their range.
-/

namespace MatchingEngine
namespace Replay

open InputStream (isSpace)

variable {argument : List UInt8} {value : Int}

theorem takeDigits_of_digits
    {digits rest : List UInt8}
    (isDigits : Digits digits)
    (noDigit : NoDigitNext rest)
    (negative : Bool) :
    takeDigits negative (digits ++ rest) =
      some (if negative then -(Decimal.value digits : Int) else Decimal.value digits) := by
  simp only [takeDigits, (munch_digits isDigits noDigit).1, isDigits.1, if_false]

theorem of_takeDigits
    {negative : Bool} {unsigned : List UInt8}
    (taken : takeDigits negative unsigned = some value) :
    ∃ digits rest, unsigned = digits ++ rest ∧ Digits digits ∧ NoDigitNext rest ∧
      (if negative then -(Decimal.value digits : Int) else Decimal.value digits) = value := by
  rw [takeDigits] at taken
  split at taken
  next => cases taken
  next someDigits =>
    exact ⟨_, _, List.takeWhile_append_dropWhile.symm, digits_takeWhile someDigits,
      noDigitNext_dropWhile unsigned, Option.some.inj taken⟩

/-- White space before another character is skipped. -/
theorem takeNumber_of_blank
    {before rest : List UInt8} {character : UInt8}
    (blank : Blank before)
    (notSpace : isSpace character = false) :
    takeNumber (before ++ character :: rest) =
      if character = char '-' then takeDigits true rest
      else if character = char '+' then takeDigits false rest
      else takeDigits false (character :: rest) := by
  have skipped : (before ++ character :: rest).dropWhile isSpace = character :: rest := by
    rw [List.dropWhile_append_of_pos blank, List.dropWhile_cons_of_neg (by simp [notSpace])]
  simp only [takeNumber, skipped]

theorem StartsWith.takeNumber
    (starts : StartsWith argument value) :
    takeNumber argument = some value := by
  obtain ⟨before, written, after, rfl, blank, writes, noDigit⟩ := starts
  cases writes with
  | @unsigned digits isDigits =>
      obtain ⟨character, others, rfl⟩ := List.exists_cons_of_ne_nil isDigits.1
      have digit := isDigits.2 character List.mem_cons_self
      have different : ∀ sign, Decimal.isDigit sign = false → character ≠ sign := by
        rintro sign noDigit rfl
        exact Bool.false_ne_true (noDigit.symm.trans digit)
      rw [List.cons_append, takeNumber_of_blank blank (isSpace_of_isDigit digit),
        if_neg (different _ (by decide)), if_neg (different _ (by decide)), ← List.cons_append]
      exact takeDigits_of_digits isDigits noDigit false
  | plus isDigits =>
      rw [List.cons_append, takeNumber_of_blank blank (by decide), if_neg (by decide),
        if_pos rfl]
      exact takeDigits_of_digits isDigits noDigit false
  | minus isDigits =>
      rw [List.cons_append, takeNumber_of_blank blank (by decide), if_pos rfl]
      exact takeDigits_of_digits isDigits noDigit true

/-- The number that is taken is the one the argument starts with. -/
theorem takeNumber_eq_some : takeNumber argument = some value ↔ StartsWith argument value := by
  refine ⟨fun taken => ?_, StartsWith.takeNumber⟩
  cases skipped : argument.dropWhile isSpace with
  | nil => simp [takeNumber, skipped] at taken
  | cons character text =>
      have split : argument = argument.takeWhile isSpace ++ character :: text := by
        rw [← skipped, List.takeWhile_append_dropWhile]
      have blank : Blank (argument.takeWhile isSpace) := List.all_eq_true.mp List.all_takeWhile
      have notSpace : isSpace character = false := by
        have head := List.head?_dropWhile_not isSpace argument
        rw [skipped] at head
        simpa using head
      rw [split, takeNumber_of_blank blank notSpace] at taken
      rw [split]
      split at taken
      · next minus =>
          obtain ⟨digits, rest, rfl, isDigits, noDigit, rfl⟩ := of_takeDigits taken
          exact ⟨_, _, rest, by rw [minus]; rfl, blank, .minus isDigits, noDigit⟩
      split at taken
      · next plus =>
          obtain ⟨digits, rest, rfl, isDigits, noDigit, rfl⟩ := of_takeDigits taken
          exact ⟨_, _, rest, by rw [plus]; rfl, blank, .plus isDigits, noDigit⟩
      · obtain ⟨digits, rest, unsigned, isDigits, noDigit, rfl⟩ := of_takeDigits taken
        exact ⟨_, digits, rest, by rw [unsigned], blank, .unsigned isDigits, noDigit⟩

theorem stoull_eq_ok {size : { value : Nat // InUInt64 value }} :
    stoull argument = .ok size ↔
      ∃ value, StartsWith argument value ∧ value.natAbs < 18446744073709551616 ∧
        size.1 = toUInt64 value := by
  rw [stoull]
  cases taken : takeNumber argument with
  | none =>
      refine iff_of_false (fun accepted => by cases accepted) ?_
      rintro ⟨value, starts, _⟩
      cases taken.symm.trans starts.takeNumber
  | some value =>
      have starts := takeNumber_eq_some.mp taken
      constructor
      · intro accepted
        simp only at accepted
        split at accepted
        next range =>
          exact ⟨value, starts, range, congrArg Subtype.val (Except.ok.inj accepted).symm⟩
        next => cases accepted
      · rintro ⟨other, otherStarts, range, same⟩
        obtain rfl := Option.some.inj (taken.symm.trans otherStarts.takeNumber)
        simp only [range, if_true]
        exact congrArg Except.ok (Subtype.ext same.symm)

theorem stoll_eq_ok {number : { value : Int // InInt64 value }} :
    stoll argument = .ok number ↔ StartsWith argument number.1 := by
  rw [stoll]
  cases taken : takeNumber argument with
  | none =>
      refine iff_of_false (fun accepted => by cases accepted) fun starts => ?_
      cases taken.symm.trans starts.takeNumber
  | some value =>
      constructor
      · intro accepted
        simp only at accepted
        split at accepted
        next range =>
          obtain rfl := Except.ok.inj accepted
          exact takeNumber_eq_some.mp taken
        next => cases accepted
      · intro starts
        obtain rfl := Option.some.inj (taken.symm.trans starts.takeNumber)
        simp only [number.2, dif_pos]

end Replay
end MatchingEngine
