import MatchingEngine.Properties.StopTime
import MatchingEngine.Refinement.CommandLine

/-!
# The command line is read exactly

A command line that asks for a replay has it done.  Any other is refused, with the usage
of the program or with a text that says what is wrong with an argument.
-/

namespace MatchingEngine
namespace Properties

open Replay

variable {filePath symbol initialPoolSize minPrice maxPrice : List UInt8}
variable {option : Option (List UInt8 × List UInt8)} {request : ReplayRequest}

/-! ## Reading the arguments -/

/-- The option asks for a stop time, or there is none. -/
def AsksStop :
    Option (List UInt8 × List UInt8) → Option (List UInt8 × Timestamp) → Prop
  | none, stop => stop = none
  | some (option, stopTimeLabel), stop => option = text "--stop-at" ∧
      ∃ stopTimestamp, IsTimeOfDay stopTimeLabel stopTimestamp ∧
        stop = some (stopTimeLabel, stopTimestamp)

theorem readOption_eq_ok {stop : Option (List UInt8 × Timestamp)} :
    readOption option = .ok stop ↔ AsksStop option stop := by
  cases option with
  | none => exact ⟨fun read => (Except.ok.inj read).symm, fun none => congrArg Except.ok none.symm⟩
  | some given =>
      obtain ⟨option, stopTimeLabel⟩ := given
      simp only [readOption, AsksStop, ← parseStopTime_eq_ok]
      constructor
      · intro read
        split at read
        next => cases read
        next known =>
          obtain ⟨stopTimestamp, parsed, read⟩ := bind_eq_ok read
          exact ⟨not_not.mp known, stopTimestamp, parsed, (Except.ok.inj read).symm⟩
      · rintro ⟨known, stopTimestamp, parsed, rfl⟩
        rw [if_neg (not_not.mpr known), parsed, ok_bind]

theorem config_create_eq_ok
    {size : { value : Nat // InUInt64 value }}
    {minPrice maxPrice : { value : Int // InInt64 value }}
    {obConfig : OrderBookConfig} :
    OrderBookConfig.create size minPrice maxPrice = .ok obConfig ↔
      obConfig.initialPoolSize = size.1 ∧ obConfig.minPrice = minPrice.1 ∧
        obConfig.maxPrice = maxPrice.1 := by
  rw [OrderBookConfig.create]
  constructor
  · intro created
    split at created
    next => cases created
    next =>
      obtain rfl := Except.ok.inj created
      exact ⟨rfl, rfl, rfl⟩
  · rintro ⟨sameSize, sameMin, sameMax⟩
    have ordered := obConfig.ordered
    rw [sameMin, sameMax] at ordered
    rw [dif_neg (Int.not_lt.mpr ordered)]
    obtain ⟨_, _, _, _, _, _, _⟩ := obConfig
    simp only at sameSize sameMin sameMax
    subst sameSize sameMin sameMax
    rfl

/-- The arguments are read just when they ask for a replay. -/
theorem readArguments_eq_ok :
    readArguments filePath symbol initialPoolSize minPrice maxPrice option = .ok request ↔
      request.filePath = filePath ∧ request.symbol = symbol ∧
        AsksConfig initialPoolSize minPrice maxPrice request.obConfig ∧
        AsksStop option request.stop := by
  constructor
  · intro read
    obtain ⟨size, sizeRead, read⟩ := bind_eq_ok read
    obtain ⟨least, leastRead, read⟩ := bind_eq_ok read
    obtain ⟨greatest, greatestRead, read⟩ := bind_eq_ok read
    obtain ⟨stop, stopRead, read⟩ := bind_eq_ok read
    obtain ⟨obConfig, created, read⟩ := bind_eq_ok read
    obtain rfl := Except.ok.inj read
    obtain ⟨sameSize, sameMin, sameMax⟩ := config_create_eq_ok.mp created
    obtain ⟨value, starts, range, isSize⟩ := stoull_eq_ok.mp sizeRead
    exact ⟨rfl, rfl, ⟨⟨value, starts, range, sameSize.trans isSize⟩,
      sameMin ▸ stoll_eq_ok.mp leastRead, sameMax ▸ stoll_eq_ok.mp greatestRead⟩,
      readOption_eq_ok.mp stopRead⟩
  · obtain ⟨filePath', symbol', obConfig, stop⟩ := request
    rintro ⟨rfl, rfl, ⟨⟨value, starts, range, isSize⟩, least, greatest⟩, asksStop⟩
    have sizeRead : stoull initialPoolSize =
        .ok ⟨obConfig.initialPoolSize, obConfig.initialPoolSizeRange⟩ :=
      stoull_eq_ok.mpr ⟨value, starts, range, isSize⟩
    have leastRead : stoll minPrice = .ok ⟨obConfig.minPrice, obConfig.minPriceRange⟩ :=
      stoll_eq_ok.mpr least
    have greatestRead : stoll maxPrice = .ok ⟨obConfig.maxPrice, obConfig.maxPriceRange⟩ :=
      stoll_eq_ok.mpr greatest
    have created : OrderBookConfig.create ⟨_, obConfig.initialPoolSizeRange⟩
        ⟨_, obConfig.minPriceRange⟩ ⟨_, obConfig.maxPriceRange⟩ = .ok obConfig :=
      config_create_eq_ok.mpr ⟨rfl, rfl, rfl⟩
    rw [readArguments, sizeRead, ok_bind, leastRead, ok_bind, greatestRead, ok_bind,
      readOption_eq_ok.mpr asksStop, ok_bind, created, ok_bind]

/-- The texts with which arguments are refused. -/
def argumentErrors : List String :=
  ["stoull", "stoll", "Unknown option. Expected --stop-at.", formatExpected, valueInvalid,
    "Min price cannot be greater than max price."]

theorem parseStopTime_error
    {stopTimeLabel : List UInt8} {what : String}
    (refused : parseStopTime stopTimeLabel = .error what) :
    what = formatExpected ∨ what = valueInvalid := by
  by_cases format : parseStopTime stopTimeLabel = .error formatExpected
  · exact Or.inl (Except.error.inj (refused.symm.trans format))
  · obtain ⟨hours, minutes, seconds, writes, ranges⟩ := writes_of_parseStopTime format
    rcases parseStopTime_of_writes writes ranges with ⟨_, _, accepted, _⟩ | ⟨_, value⟩
    · cases refused.symm.trans accepted
    · exact Or.inr (Except.error.inj (refused.symm.trans value))

theorem readOption_error
    {what : String}
    (refused : readOption option = .error what) :
    what = "Unknown option. Expected --stop-at." ∨ what = formatExpected ∨
      what = valueInvalid := by
  cases option with
  | none => cases refused
  | some given =>
      simp only [readOption] at refused
      split at refused
      next => exact Or.inl (Except.error.inj refused).symm
      next =>
        rcases bind_eq_error refused with unparsed | ⟨_, _, refused⟩
        · exact Or.inr (parseStopTime_error unparsed)
        · cases refused

theorem stoull_error
    {argument : List UInt8} {what : String}
    (refused : stoull argument = .error what) :
    what = "stoull" := by
  rw [stoull] at refused
  split at refused
  next => exact (Except.error.inj refused).symm
  next =>
  split at refused
  next => cases refused
  next => exact (Except.error.inj refused).symm

theorem stoll_error
    {argument : List UInt8} {what : String}
    (refused : stoll argument = .error what) :
    what = "stoll" := by
  rw [stoll] at refused
  split at refused
  next => exact (Except.error.inj refused).symm
  next =>
  split at refused
  next => cases refused
  next => exact (Except.error.inj refused).symm

theorem config_create_error
    {size : { value : Nat // InUInt64 value }} {least greatest : { value : Int // InInt64 value }}
    {what : String}
    (refused : OrderBookConfig.create size least greatest = .error what) :
    what = "Min price cannot be greater than max price." := by
  rw [OrderBookConfig.create] at refused
  split at refused
  next => exact (Except.error.inj refused).symm
  next => cases refused

/-- Arguments that cannot be read are refused with one of the texts. -/
theorem readArguments_error
    {what : String}
    (refused : readArguments filePath symbol initialPoolSize minPrice maxPrice option =
      .error what) :
    what ∈ argumentErrors := by
  rcases bind_eq_error refused with unread | ⟨size, _, refused⟩
  · simp [argumentErrors, stoull_error unread]
  rcases bind_eq_error refused with unread | ⟨least, _, refused⟩
  · simp [argumentErrors, stoll_error unread]
  rcases bind_eq_error refused with unread | ⟨greatest, _, refused⟩
  · simp [argumentErrors, stoll_error unread]
  rcases bind_eq_error refused with unread | ⟨stop, _, refused⟩
  · rcases readOption_error unread with unknown | format | value
    · simp [argumentErrors, unknown]
    · simp [argumentErrors, format]
    · simp [argumentErrors, value]
  rcases bind_eq_error refused with unordered | ⟨obConfig, _, refused⟩
  · simp [argumentErrors, config_create_error unordered]
  · cases refused

/-! ## The command line -/

/-- A command line asks for a request as its arguments do. -/
theorem asks_of_readArguments_none
    {program : List UInt8} :
    Asks [program, filePath, symbol, initialPoolSize, minPrice, maxPrice] request ↔
      readArguments filePath symbol initialPoolSize minPrice maxPrice none = .ok request := by
  rw [readArguments_eq_ok]
  constructor
  · rintro ⟨config⟩
    exact ⟨rfl, rfl, config, rfl⟩
  · obtain ⟨filePath', symbol', obConfig, stop⟩ := request
    rintro ⟨rfl, rfl, config, rfl⟩
    exact .whole config

theorem asks_of_readArguments_some
    {program givenOption stopTimeLabel : List UInt8} :
    Asks [program, filePath, symbol, initialPoolSize, minPrice, maxPrice, givenOption,
        stopTimeLabel] request ↔
      readArguments filePath symbol initialPoolSize minPrice maxPrice
        (some (givenOption, stopTimeLabel)) = .ok request := by
  rw [readArguments_eq_ok]
  constructor
  · intro asks
    cases asks with
    | upTo config time => exact ⟨rfl, rfl, config, rfl, _, time, rfl⟩
  · obtain ⟨filePath', symbol', obConfig, stop⟩ := request
    rintro ⟨rfl, rfl, config, rfl, stopTimestamp, time, rfl⟩
    exact .upTo config time

variable {files : List UInt8 → Option (List UInt8)} {argv : List (List UInt8)}

theorem main_of_other
    (short : argv.length ≠ 6)
    (long : argv.length ≠ 8) :
    main files argv = .ok (.failure usage) := by
  unfold main
  split
  next => exact absurd rfl short
  next => exact absurd rfl long
  next => rfl

theorem runCaught_of_read
    (read : readArguments filePath symbol initialPoolSize minPrice maxPrice option =
      .ok request) :
    runCaught ((readArguments filePath symbol initialPoolSize minPrice maxPrice option).mapError
      Thrown.exception >>= replayFile files) = runCaught (replayFile files request) := by
  rw [read]
  rfl

/-- Arguments that ask for a replay have it done. -/
theorem main_of_asks (asks : Asks argv request) :
    main files argv = runCaught (replayFile files request) := by
  have asked := asks
  cases asks with
  | whole => exact runCaught_of_read (asks_of_readArguments_none.mp asked)
  | upTo => exact runCaught_of_read (asks_of_readArguments_some.mp asked)

/-- Five or seven arguments ask for a replay, or are refused. -/
theorem asks_or_refused
    (files : List UInt8 → Option (List UInt8))
    (enough : argv.length = 6 ∨ argv.length = 8) :
    (∃ request, Asks argv request) ∨ ∃ what ∈ argumentErrors,
      main files argv = .ok (.failure (Summary.line "Replay failed: " (text what))) := by
  have read : ∀ {filePath symbol initialPoolSize minPrice maxPrice option},
      main files argv = runCaught
        ((readArguments filePath symbol initialPoolSize minPrice maxPrice option).mapError
          Thrown.exception >>= replayFile files) →
      (∀ request, Asks argv request ↔
        readArguments filePath symbol initialPoolSize minPrice maxPrice option = .ok request) →
      (∃ request, Asks argv request) ∨ ∃ what ∈ argumentErrors,
        main files argv = .ok (.failure (Summary.line "Replay failed: " (text what))) := by
    intro filePath symbol initialPoolSize minPrice maxPrice option runs asks
    cases arguments : readArguments filePath symbol initialPoolSize minPrice maxPrice option with
    | ok request => exact Or.inl ⟨request, (asks request).mpr arguments⟩
    | error what =>
        refine Or.inr ⟨what, readArguments_error arguments, ?_⟩
        rw [runs, arguments]
        rfl
  match argv, enough with
  | [_, _, _, _, _, _], _ => exact read rfl fun request => asks_of_readArguments_none
  | [_, _, _, _, _, _, _, _], _ => exact read rfl fun request => asks_of_readArguments_some

/-- The program shows its usage unless it has five or seven arguments.  Then it does what
the arguments ask for; when they ask for nothing it ends with a text that says what is
wrong. -/
theorem command_line_exact
    (files : List UInt8 → Option (List UInt8)) (argv : List (List UInt8)) :
    (argv.length ≠ 6 ∧ argv.length ≠ 8 → main files argv = .ok (.failure usage)) ∧
    (∀ request, Asks argv request →
      main files argv = runCaught (replayFile files request)) ∧
    ((argv.length = 6 ∨ argv.length = 8) → (¬ ∃ request, Asks argv request) →
      ∃ what ∈ argumentErrors,
        main files argv = .ok (.failure (Summary.line "Replay failed: " (text what)))) :=
  ⟨fun other => main_of_other other.1 other.2, fun _ => main_of_asks,
    fun enough nothing => (asks_or_refused files enough).resolve_left nothing⟩

end Properties
end MatchingEngine
