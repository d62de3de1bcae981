import MatchingEngine.Refinement.StopTime

/-!
# The stop time is read exactly

The driver accepts just the texts that write a time of day, white space, signs and
leading zeros included, and reads each as its nanoseconds since midnight.  A text
that writes three `int` values of which one is off the clock has an error of its
own; every other text has the error that asks for the format.
-/

namespace MatchingEngine
namespace Properties

open Replay

/-- The text that asks for the format. -/
def formatExpected : String := "Invalid --stop-at time. Expected HH:MM:SS."

/-- The text for a time that is off the clock. -/
def valueInvalid : String := "Invalid --stop-at time value."

theorem toNat_ofInt
    {value : Int}
    (nonneg : 0 ≤ value)
    (below : value < 2 ^ 64) :
    ((UInt64.ofInt value).toNat : Int) = value := by
  rw [UInt64.ofInt, UInt64.toNat_ofNat', Int.emod_eq_of_lt nonneg below]
  omega

theorem timestamp_toNat
    {hours minutes seconds : Int}
    (onClock : OnClock hours minutes seconds) :
    (((UInt64.ofInt hours * 3600 + UInt64.ofInt minutes * 60 + UInt64.ofInt seconds) *
      1000000000 : Timestamp).toNat : Int) = nanoseconds hours minutes seconds := by
  obtain ⟨⟨hoursLower, hoursUpper⟩, ⟨minutesLower, minutesUpper⟩, secondsLower,
    secondsUpper⟩ := onClock
  have hoursValue := toNat_ofInt hoursLower (by omega)
  have minutesValue := toNat_ofInt minutesLower (by omega)
  have secondsValue := toNat_ofInt secondsLower (by omega)
  simp only [nanoseconds, UInt64.toNat_mul, UInt64.toNat_add]
  change (((((UInt64.ofInt hours).toNat * 3600 % 2 ^ 64 +
    (UInt64.ofInt minutes).toNat * 60 % 2 ^ 64) % 2 ^ 64 +
      (UInt64.ofInt seconds).toNat) % 2 ^ 64 * 1000000000 % 2 ^ 64 : Nat) : Int) = _
  omega

/-- A text that writes three `int` values is a time of day, or has a value off the clock. -/
theorem parseStopTime_of_writes
    {text : List UInt8} {hours minutes seconds : Int}
    (writes : WritesTime text hours minutes seconds)
    (ranges : InInt32 hours ∧ InInt32 minutes ∧ InInt32 seconds) :
    (OnClock hours minutes seconds ∧ ∃ stopTimestamp, parseStopTime text = .ok stopTimestamp ∧
      (stopTimestamp.toNat : Int) = nanoseconds hours minutes seconds) ∨
    (¬ OnClock hours minutes seconds ∧ parseStopTime text = .error valueInvalid) := by
  obtain ⟨hoursText, minutesText, secondsText, rfl, writesHours, writesMinutes, writesSeconds⟩ :=
    writes
  obtain ⟨hoursRange, minutesRange, secondsRange⟩ := ranges
  obtain ⟨afterHours, hoursExtracted, firstColon⟩ := writesHours.extract hoursRange
    (minutesText ++ char ':' :: secondsText)
  obtain ⟨afterMinutes, minutesExtracted, secondColon⟩ := writesMinutes.extract minutesRange
    secondsText
  obtain ⟨last, secondsExtracted, passed, atEnd⟩ := writesSeconds.extract_last secondsRange
  have parsed : parseStopTime (hoursText ++
      char ':' :: (minutesText ++ char ':' :: secondsText)) =
      if hours < 0 ∨ hours > 23 ∨ minutes < 0 ∨ minutes > 59 ∨ seconds < 0 ∨ seconds > 59 then
        .error valueInvalid
      else .ok ((UInt64.ofInt hours * 3600 + UInt64.ofInt minutes * 60 + UInt64.ofInt seconds) *
        1000000000) := by
    simp only [parseStopTime, hoursExtracted, firstColon, minutesExtracted, secondColon,
      secondsExtracted, passed, atEnd, valueInvalid]
    rfl
  rw [parsed]
  by_cases onClock : OnClock hours minutes seconds
  · rw [if_neg (by unfold OnClock at onClock; omega)]
    exact Or.inl ⟨onClock, _, rfl, timestamp_toNat onClock⟩
  · rw [if_pos (by unfold OnClock at onClock; omega)]
    exact Or.inr ⟨onClock, rfl⟩

/-- A text without the error that asks for the format writes three `int` values. -/
theorem writes_of_parseStopTime
    {text : List UInt8}
    (parsed : parseStopTime text ≠ .error formatExpected) :
    ∃ hours minutes seconds, WritesTime text hours minutes seconds ∧
      InInt32 hours ∧ InInt32 minutes ∧ InInt32 seconds := by
  cases hoursExtracted : extractInt { rest := text } with
  | mk hours afterHours =>
  cases firstExtracted : extractChar afterHours with
  | mk firstColon beforeMinutes =>
  cases minutesExtracted : extractInt beforeMinutes with
  | mk minutes afterMinutes =>
  cases secondExtracted : extractChar afterMinutes with
  | mk secondColon beforeSeconds =>
  cases secondsExtracted : extractInt beforeSeconds with
  | mk seconds last =>
  simp only [parseStopTime, hoursExtracted, firstExtracted, minutesExtracted, secondExtracted,
    secondsExtracted] at parsed
  have accepted : last.failed = false ∧ firstColon = char ':' ∧ secondColon = char ':' := by
    by_contra refused
    refine parsed (if_pos ?_)
    by_contra noneWrong
    simp only [not_or, not_not, Bool.not_eq_true] at noneWrong
    exact refused noneWrong
  obtain ⟨passed, rfl, rfl⟩ := accepted
  rw [if_neg (by simp [passed])] at parsed
  have atEnd : last.skipSpaces.eofbit = true := by
    by_contra more
    exact parsed (if_pos (by simp [more]))
  obtain ⟨secondsText, rfl, writesSeconds, secondsRange⟩ :=
    of_extract_last secondsExtracted passed atEnd
  obtain ⟨minutesText, rest, rfl, left, writesMinutes, minutesRange⟩ :=
    of_extract minutesExtracted secondExtracted rfl
  obtain rfl := (InputStream.mk.inj left).1
  obtain ⟨hoursText, rest, start, left, writesHours, hoursRange⟩ :=
    of_extract hoursExtracted firstExtracted rfl
  obtain rfl := (InputStream.mk.inj left).1
  obtain rfl := (InputStream.mk.inj start).1
  exact ⟨hours, minutes, seconds,
    ⟨hoursText, minutesText, secondsText, rfl, writesHours, writesMinutes, writesSeconds⟩,
    hoursRange, minutesRange, secondsRange⟩

theorem inInt32_of_onClock
    {hours minutes seconds : Int}
    (onClock : OnClock hours minutes seconds) :
    InInt32 hours ∧ InInt32 minutes ∧ InInt32 seconds := by
  unfold OnClock at onClock
  unfold InInt32
  omega

/-- The accepted texts are the times of day. -/
theorem parseStopTime_eq_ok {text : List UInt8} {stopTimestamp : Timestamp} :
    parseStopTime text = .ok stopTimestamp ↔ IsTimeOfDay text stopTimestamp := by
  constructor
  · intro accepted
    have otherwise : parseStopTime text ≠ .error formatExpected := by simp [accepted]
    obtain ⟨hours, minutes, seconds, writes, ranges⟩ := writes_of_parseStopTime otherwise
    rcases parseStopTime_of_writes writes ranges with
      ⟨onClock, other, sameText, value⟩ | ⟨_, refused⟩
    · obtain rfl := Except.ok.inj (accepted.symm.trans sameText)
      exact ⟨hours, minutes, seconds, writes, onClock, value⟩
    · cases accepted.symm.trans refused
  · rintro ⟨hours, minutes, seconds, writes, onClock, value⟩
    rcases parseStopTime_of_writes writes (inInt32_of_onClock onClock) with
      ⟨_, other, accepted, otherValue⟩ | ⟨offClock, _⟩
    · rw [accepted, UInt64.toNat_inj.mp (Int.ofNat.inj (otherValue.trans value.symm))]
    · exact absurd onClock offClock

/-- Exactly the texts that write a time of day are accepted, and each is read as its
nanoseconds since midnight; a text that writes three `int` values of which one is off the
clock is refused for its value, and every other text for its format. -/
theorem stop_time_exact (text : List UInt8) :
    (∀ stopTimestamp, parseStopTime text = .ok stopTimestamp ↔
      IsTimeOfDay text stopTimestamp) ∧
    (parseStopTime text = .error valueInvalid ↔
      ∃ hours minutes seconds, WritesTime text hours minutes seconds ∧
        (InInt32 hours ∧ InInt32 minutes ∧ InInt32 seconds) ∧
        ¬ OnClock hours minutes seconds) ∧
    (parseStopTime text = .error formatExpected ↔
      ¬ ∃ hours minutes seconds, WritesTime text hours minutes seconds ∧
        InInt32 hours ∧ InInt32 minutes ∧ InInt32 seconds) := by
  refine ⟨fun stopTimestamp => parseStopTime_eq_ok, ⟨fun refused => ?_, ?_⟩,
    ⟨fun refused => ?_, fun unwritten => ?_⟩⟩
  · have otherwise : parseStopTime text ≠ .error formatExpected := by
      simp [refused, valueInvalid, formatExpected]
    obtain ⟨hours, minutes, seconds, writes, ranges⟩ := writes_of_parseStopTime otherwise
    rcases parseStopTime_of_writes writes ranges with ⟨_, other, accepted, _⟩ | ⟨offClock, _⟩
    · cases refused.symm.trans accepted
    · exact ⟨hours, minutes, seconds, writes, ranges, offClock⟩
  · rintro ⟨hours, minutes, seconds, writes, ranges, offClock⟩
    rcases parseStopTime_of_writes writes ranges with ⟨onClock, _⟩ | ⟨_, refused⟩
    · exact absurd onClock offClock
    · exact refused
  · rintro ⟨hours, minutes, seconds, writes, ranges⟩
    rcases parseStopTime_of_writes writes ranges with ⟨_, other, accepted, _⟩ | ⟨_, otherError⟩
    · cases refused.symm.trans accepted
    · have sameText := Except.error.inj (refused.symm.trans otherError)
      exact absurd sameText (by decide)
  · by_contra otherwise
    obtain ⟨hours, minutes, seconds, writes, ranges⟩ := writes_of_parseStopTime otherwise
    exact unwritten ⟨hours, minutes, seconds, writes, ranges⟩

end Properties
end MatchingEngine
