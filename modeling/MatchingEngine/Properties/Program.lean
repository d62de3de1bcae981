import MatchingEngine.Properties.CommandLine
import MatchingEngine.Properties.Publication
import MatchingEngine.Properties.Snapshots
import MatchingEngine.Properties.Summary

/-!
# The replay program from its command line to its output

On a file of whole frames the program prints the summary of a ledger of the messages
up to the stop time.  On any other file it ends with an error, or its output is that of
the messages that the parser found.
-/

namespace MatchingEngine
namespace Properties

open Refinement
open Reference (LedgerReplay writePrice)
open Replay

variable {files : List UInt8 → Option (List UInt8)} {argv : List (List UInt8)}
variable {request : ReplayRequest} {engine : ItchReplayEngine}

/-- The ledger of a request, after the messages of a feed. -/
def ledgerFor (request : ReplayRequest) (messages : List Message) : LedgerReplay :=
  LedgerReplay.replay (shownBy request.obConfig) request.symbol messages

/-- What should be printed when the messages of a feed have been replayed. -/
def replayOutput (request : ReplayRequest) (messages : List Message) : List UInt8 :=
  cutoffLine request.stop ++
    ((ledgerFor request messages).summary request.obConfig.minPrice request.obConfig.maxPrice
      5).print writePrice 5 ++
    text "Replay completed successfully.\n"

/-- The text when the memory runs out. -/
def outOfMemory : List UInt8 := Summary.line "Replay failed: " (text "std::bad_alloc")

/-- The messages of a feed are small, and crowd no queue of the ledger. -/
structure Manageable (request : ReplayRequest) (messages : List Message) : Prop where
  small : ∀ message ∈ messages, SmallMessage message
  capacity : ∀ earlier, earlier <+: messages → (ledgerFor request earlier).ledger.WithinCapacity

/-- An engine that has replayed the messages prints their summary. -/
theorem printSummary_of_manageable
    {last : ItchReplayEngine} {messages : List Message}
    (created : ItchReplayEngine.create request.symbol request.obConfig = .ok engine)
    (manageable : Manageable request messages)
    (reached : engine.onMessages messages = .ok last) :
    last.printSummary 5 =
      .ok (((ledgerFor request messages).summary request.obConfig.minPrice
        request.obConfig.maxPrice 5).print writePrice 5) := by
  obtain ⟨spec, tracks, refines⟩ := Tracks.of_create created
  rcases tracks.onMessages messages (.of_small manageable.small _ _) with
    exhausts | ⟨last', spec', reached', tracks', refines'⟩
  · cases exhausts.onMessages.symm.trans reached
  · obtain rfl := Except.ok.inj (reached'.symm.trans reached)
    exact printSummary_eq tracks' (refines' manageable.small refines manageable.capacity)
      (manageable.capacity messages (List.prefix_refl messages))
      (LedgerReplay.pricesFit_replay (shownBy request.obConfig) request.symbol messages) 5

/-- A file that can be opened is parsed, and the end of the parser is reported. -/
theorem replayFile_eq
    {contents : List UInt8}
    (created : ItchReplayEngine.create request.symbol request.obConfig = .ok engine)
    (opened : files request.filePath = some contents) :
    replayFile files request =
      (ItchParser.parse ⟨{ rest := contents }⟩ engine (request.stop.map Prod.snd)).mapError
        Thrown.ofFault >>= report request := by
  rw [replayFile, created, opened]
  rfl

/-- On a file of whole frames, that may end with a frame of length zero, the program
prints the summary of a ledger of the messages up to the stop time, unless it runs out
of memory. -/
theorem program_exact
    (asks : Asks argv request)
    (created : ItchReplayEngine.create request.symbol request.obConfig = .ok engine)
    {frames : List Frame} {closing : List UInt8}
    (closes : Closes closing)
    (opened : files request.filePath = some (frames.flatMap Frame.bytes ++ closing))
    (manageable : Manageable request
      (handedBefore (request.stop.map Prod.snd) (frames.filterMap Frame.message))) :
    main files argv = .ok (.failure outOfMemory) ∨
    main files argv = .ok (.success (replayOutput request
      (handedBefore (request.stop.map Prod.snd) (frames.filterMap Frame.message)))) := by
  obtain ⟨file', reads, _⟩ := parseInto_frames closes (request.stop.map Prod.snd) frames
  have parses : ItchParser.parse ⟨{ rest := frames.flatMap Frame.bytes ++ closing }⟩ engine
      (request.stop.map Prod.snd) =
      engine.onMessages (handedBefore (request.stop.map Prod.snd)
        (frames.filterMap Frame.message)) >>= fun last => .ok ⟨.returned, file', last⟩ :=
    reads ItchReplayEngine.onMessage engine
  obtain ⟨spec, tracks, _⟩ := Tracks.of_create created
  rw [main_of_asks asks, replayFile_eq created opened, parses]
  rcases tracks.onMessages _ (.of_small manageable.small _ _) with exhausts | ⟨last, _, reached, _⟩
  · refine Or.inl ?_
    rw [exhausts.onMessages]
    rfl
  · refine Or.inr ?_
    have printed := printSummary_of_manageable created manageable reached
    have reported : report request ⟨.returned, file', last⟩ =
        .ok (replayOutput request (handedBefore (request.stop.map Prod.snd)
          (frames.filterMap Frame.message))) := by
      rw [report]
      simp only [printed]
      rfl
    rw [reached]
    exact congrArg runCaught reported

/-! ## A run of the program

The short feed as a file, replayed up to a second after midnight. -/

/-- The frames of some messages. -/
def framesOf (messages : List Message) : List Frame :=
  messages.filterMap fun message =>
    if range : message.timestamp.toNat < 2 ^ 48 then some (.handled message range) else none

/-- A command line with a stop time. -/
def sampleArguments : List (List UInt8) :=
  [text "ItchReplay", text "feed.bin", text "A", text "2", text "0", text "4", text "--stop-at",
    text "00:00:01"]

/-- A file system with one file, the sample feed. -/
def sampleFiles (filePath : List UInt8) : Option (List UInt8) :=
  if filePath = text "feed.bin" then some ((framesOf sampleFeed).flatMap Frame.bytes ++ [])
  else none

/-- What the command line asks for. -/
def sampleRequest : ReplayRequest :=
  (readArguments (text "feed.bin") (text "A") (text "2") (text "0") (text "4")
    (some (text "--stop-at", text "00:00:01"))).toOption.get (by decide +kernel)

/-- The engine at the start of the program. -/
def sampleProgramEngine : ItchReplayEngine :=
  (ItchReplayEngine.create sampleRequest.symbol sampleRequest.obConfig).toOption.get
    (by decide +kernel)

theorem sampleArguments_ask : Asks sampleArguments sampleRequest :=
  asks_of_readArguments_some.mpr rfl

theorem sampleFeed_manageable : Manageable sampleRequest sampleFeed where
  small := sampleFeed_small
  capacity := LedgerReplay.withinCapacity_of_few _ _ (by decide)

theorem create_sampleProgramEngine :
    ItchReplayEngine.create sampleRequest.symbol sampleRequest.obConfig =
      .ok sampleProgramEngine := rfl

theorem sampleFiles_open :
    sampleFiles sampleRequest.filePath =
      some ((framesOf sampleFeed).flatMap Frame.bytes ++ []) := rfl

/-- The whole feed is before the stop time. -/
theorem handedBefore_sampleFeed :
    handedBefore (sampleRequest.stop.map Prod.snd)
      ((framesOf sampleFeed).filterMap Frame.message) = sampleFeed := rfl

theorem sampleProgram_ends : (main sampleFiles sampleArguments).toOption.isSome = true := by
  decide +kernel

/-- How the program ends. -/
def sampleExit : ProgramExit :=
  (main sampleFiles sampleArguments).toOption.get sampleProgram_ends

theorem sampleExit_status : sampleExit.status = 0 := by
  decide +kernel

theorem program_exact_sample :
    main sampleFiles sampleArguments = .ok (.success (replayOutput sampleRequest sampleFeed)) := by
  have manageable := sampleFeed_manageable
  rw [← handedBefore_sampleFeed] at manageable ⊢
  refine (program_exact sampleArguments_ask create_sampleProgramEngine (Or.inl rfl)
    sampleFiles_open manageable).resolve_left fun exhausted => ?_
  have failed : sampleExit = .failure outOfMemory :=
    Except.ok.inj ((eq_ok_of_isSome sampleProgram_ends).symm.trans exhausted)
  have status := sampleExit_status
  rw [failed] at status
  cases status

/-- Whatever the file is, what the program prints when it ends well is the summary of a
ledger of the messages that the parser handed over. -/
theorem output_truthful
    (asks : Asks argv request)
    {contents : List UInt8}
    (opened : files request.filePath = some contents)
    (manageable : Manageable request
      (handedMessages (request.stop.map Prod.snd) contents))
    {exit : ProgramExit}
    (ended : main files argv = .ok exit)
    (status : exit.status = 0) :
    exit = .success (replayOutput request
      (handedMessages (request.stop.map Prod.snd) contents)) := by
  rw [main_of_asks asks] at ended
  cases replayed : replayFile files request with
  | error thrown =>
      rw [replayed] at ended
      cases thrown with
      | exception what =>
          obtain rfl := Except.ok.inj ended
          exact absurd status Nat.one_ne_zero
      | fault fault => cases ended
  | ok out =>
      rw [replayed] at ended
      obtain rfl := Except.ok.inj ended
      refine congrArg ProgramExit.success ?_
      cases created : ItchReplayEngine.create request.symbol request.obConfig with
      | error fault =>
          rw [replayFile, created] at replayed
          cases replayed
      | ok engine =>
          obtain ⟨outcome, file', parses, _⟩ :=
            delivers_handedMessages (request.stop.map Prod.snd) contents
          rw [replayFile_eq created opened, parses engine] at replayed
          cases reached : engine.onMessages
              (handedMessages (request.stop.map Prod.snd) contents) with
          | error fault =>
              rw [reached] at replayed
              cases replayed
          | ok last =>
              have printed := printSummary_of_manageable created manageable reached
              rw [reached] at replayed
              have reported : report request ⟨outcome, file', last⟩ = .ok out := replayed
              cases outcome with
              | runtimeError what => cases reported
              | returned =>
                  rw [report] at reported
                  simp only [printed] at reported
                  exact (Except.ok.inj reported).symm

theorem output_truthful_sample :
    sampleExit = .success (replayOutput sampleRequest sampleFeed) := by
  have delivered : handedMessages (sampleRequest.stop.map Prod.snd)
      ((framesOf sampleFeed).flatMap Frame.bytes ++ []) = sampleFeed := by
    rw [List.append_nil, handedMessages_frames, handedBefore_sampleFeed]
  have manageable := sampleFeed_manageable
  rw [← delivered] at manageable ⊢
  exact output_truthful sampleArguments_ask sampleFiles_open manageable
    (eq_ok_of_isSome sampleProgram_ends) sampleExit_status

end Properties
end MatchingEngine
