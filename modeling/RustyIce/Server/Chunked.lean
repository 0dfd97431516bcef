import RustyIce.Core.Types
import RustyIce.Library.Delimited
import RustyIce.Library.Machine
import Mathlib.Algebra.Order.Ring.Nat

/-
  The decoder of chunked bodies: one call of `poll_read` is a
  loop whose rounds either go on by themselves or issue one
  read of the inner stream.

  Main declarations:
    * `parseChunkSize`
    * `ChunkedDecoder`, `ChunkedDecoder.advance`,
      `ChunkedDecoder.receive`
    * `DecoderRun`, `chunkedMachine`
    * `DecoderRun.rank`, `rank_of_step`
-/

------------------------------------------------------------
-- Size Lines
------------------------------------------------------------

namespace RustyIce

inductive IoErrorKind where
| unexpectedEof
| invalidData
| other
deriving DecidableEq, Repr

structure IoError where
  kind : IoErrorKind
  message : String
deriving DecidableEq, Repr

def crlf : Bytes :=
  [13, 10]

def findCrlf (data : Bytes) : Option Nat :=
  Library.Delimited.findPair 13 10 data

def hexDigit : Char → Option Nat
| '0' => some 0
| '1' => some 1
| '2' => some 2
| '3' => some 3
| '4' => some 4
| '5' => some 5
| '6' => some 6
| '7' => some 7
| '8' => some 8
| '9' => some 9
| 'a' => some 10
| 'b' => some 11
| 'c' => some 12
| 'd' => some 13
| 'e' => some 14
| 'f' => some 15
| 'A' => some 10
| 'B' => some 11
| 'C' => some 12
| 'D' => some 13
| 'E' => some 14
| 'F' => some 15
| _ => none

/- Digits read after `acc`, as long as 64 bits hold them. -/
def hexDigitsFrom : Nat → List Char → Option Nat
| acc, [] => some acc
| acc, c :: rest =>
    match hexDigit c with
    | none => none
    | some digit =>
        if acc * 16 + digit < 2 ^ 64 then
          hexDigitsFrom (acc * 16 + digit) rest
        else
          none

/- `u64::from_str_radix` at radix 16. -/
def u64FromHex (text : List Char) : Option Nat :=
  match text with
  | [] => none
  | ['+'] => none
  | '+' :: rest => hexDigitsFrom 0 rest
  | c :: rest => hexDigitsFrom 0 (c :: rest)

/- Hex digits, optionally followed by `;ext...`. -/
def parseChunkSize (line : Bytes) : Except IoError Nat :=
  match utf8Text (line.takeWhile (· ≠ 59)) with
  | none =>
      .error
        { kind := .invalidData
          message := "chunk size not utf-8" }
  | some text =>
      match u64FromHex (trimText text) with
      | none =>
          .error
            { kind := .invalidData
              message := "chunk size not hex" }
      | some size => .ok size

end RustyIce

------------------------------------------------------------
-- The Decoder
------------------------------------------------------------

namespace RustyIce

def maxSizeLineBytes : Nat := 64

def maxTrailerBytes : Nat := 4096

inductive DecoderState where
| nextSize
| payload (remaining : Nat)
| afterPayload (seen : Nat)
| trailers
| done
| errored
deriving DecidableEq, Repr

structure ChunkedDecoder where
  state : DecoderState
  scratch : Bytes
deriving DecidableEq, Repr

/- What an inner read gives: no bytes are its end. -/
inductive InnerRead where
| ready (data : Bytes)
| failed (error : IoError)
deriving DecidableEq, Repr

/-
  How a round of the loop ends: with an inner read of at most
  so many bytes, with another round, or with the call.
-/
inductive Round where
| read (capacity : Nat)
| again (decoder : ChunkedDecoder)
| finish
    (decoder : ChunkedDecoder)
    (result : Except IoError Bytes)

namespace ChunkedDecoder

def new : ChunkedDecoder where
  state := .nextSize
  scratch := []

def error
    (decoder : ChunkedDecoder)
    (kind : IoErrorKind)
    (message : String) : Round :=
  .finish { decoder with state := .errored }
    (.error { kind := kind, message := message })

/-
  `poll_fill_line` before its read: a line that is complete
  is taken out of the scratch buffer.
-/
def fillLine
    (decoder : ChunkedDecoder)
    (maxBytes : Nat)
    (found : Bytes → ChunkedDecoder → Round) : Round :=
  match findCrlf decoder.scratch with
  | some pos =>
      found (decoder.scratch.take pos)
        { decoder with
          scratch := decoder.scratch.drop (pos + 2) }
  | none =>
      if maxBytes ≤ decoder.scratch.length then
        decoder.error .invalidData
          "chunked header line too long"
      else
        .read 1

/- A complete size line. -/
def onSizeLine
    (line : Bytes)
    (decoder : ChunkedDecoder) : Round :=
  match parseChunkSize line with
  | .error e =>
      .finish { decoder with state := .errored } (.error e)
  | .ok size =>
      if size = 0 then
        .again { decoder with state := .trailers }
      else
        .again { decoder with state := .payload size }

/- A blank line ends the trailers; others are skipped. -/
def onTrailerLine
    (line : Bytes)
    (decoder : ChunkedDecoder) : Round :=
  if line = [] then
    .again { decoder with state := .done }
  else
    .again decoder

/-
  A round with `room` bytes of the caller's buffer left, up
  to its inner read.
-/
def advance
    (decoder : ChunkedDecoder)
    (room : Nat) : Round :=
  match decoder.state with
  | .done => .finish decoder (.ok [])
  | .errored => .finish decoder (.ok [])
  | .payload remaining =>
      if remaining = 0 then
        .again { decoder with state := .afterPayload 0 }
      else if room = 0 then
        .finish decoder (.ok [])
      else
        .read (min remaining room)
  | .nextSize => decoder.fillLine maxSizeLineBytes onSizeLine
  | .afterPayload _ => .read 1
  | .trailers =>
      decoder.fillLine maxTrailerBytes onTrailerLine

/- A read of the inner stream into the scratch buffer. -/
def receiveLine
    (decoder : ChunkedDecoder)
    (read : InnerRead) : Round :=
  match read with
  | .failed e => .finish decoder (.error e)
  | .ready [] =>
      .finish decoder
        (.error
          { kind := .unexpectedEof
            message := "chunked stream ended mid-header" })
  | .ready (byte :: _) =>
      .again
        { decoder with scratch := decoder.scratch ++ [byte] }

/- The byte wanted after a payload. -/
def wanted (seen : Nat) : UInt8 :=
  if seen = 0 then 13 else 10

/- The rest of a round, after its inner read. -/
def receive
    (decoder : ChunkedDecoder)
    (read : InnerRead) : Round :=
  match decoder.state with
  | .payload remaining =>
      match read with
      | .failed e =>
          .finish { decoder with state := .errored } (.error e)
      | .ready [] =>
          decoder.error .unexpectedEof
            "chunked stream ended mid-payload"
      | .ready (byte :: data) =>
          .finish
            { decoder with
              state :=
                .payload (remaining - (byte :: data).length) }
            (.ok (byte :: data))
  | .afterPayload seen =>
      match read with
      | .failed e =>
          .finish { decoder with state := .errored } (.error e)
      | .ready [] =>
          decoder.error .unexpectedEof
            "chunked stream ended in payload trailer"
      | .ready (byte :: _) =>
          if byte ≠ wanted seen then
            decoder.error .invalidData
              "chunked payload not followed by CRLF"
          else if seen + 1 = 2 then
            .again { decoder with state := .nextSize }
          else
            .again
              { decoder with
                state := .afterPayload (seen + 1) }
  | .nextSize => decoder.receiveLine read
  | .trailers => decoder.receiveLine read
  | .done => .finish decoder (.ok [])
  | .errored => .finish decoder (.ok [])

end ChunkedDecoder

end RustyIce

------------------------------------------------------------
-- A Reader To The End
------------------------------------------------------------

namespace RustyIce

/- What a reader stops at. -/
inductive DecoderOutcome where
| eof
| failed (error : IoError)
deriving DecidableEq, Repr

/- Between two calls, in a call with a buffer, or stopped. -/
inductive CallPhase where
| between
| polling (room : Nat)
| ended (outcome : DecoderOutcome)
deriving DecidableEq, Repr

/-
  A decoder, what its inner stream has still to give, the
  call in progress and the bytes handed out so far.
-/
structure DecoderRun where
  decoder : ChunkedDecoder
  rest : Bytes
  phase : CallPhase
  yielded : Bytes
deriving DecidableEq, Repr

/-
  A call with a buffer, a round without a read, an inner read
  that is pending, and one that gives the next `count` bytes.
-/
inductive DecoderLabel where
| poll (room : Nat)
| advance
| pending
| read (count : Nat)
deriving DecidableEq, Repr

namespace DecoderRun

def start (input : Bytes) : DecoderRun where
  decoder := .new
  rest := input
  phase := .between
  yielded := []

/- The end of a round. -/
def after (s : DecoderRun) : Round → Option DecoderRun
| .read _ => none
| .again decoder => some { s with decoder := decoder }
| .finish decoder (.error e) =>
    some
      { s with
        decoder := decoder
        phase := .ended (.failed e) }
| .finish decoder (.ok []) =>
    some
      { s with
        decoder := decoder
        phase := .ended .eof }
| .finish decoder (.ok (byte :: data)) =>
    some
      { s with
        decoder := decoder
        phase := .between
        yielded := s.yielded ++ byte :: data }

/-
  The inner stream gives between one and the wanted number
  of bytes, or nothing at its end.
-/
def step
    (s : DecoderRun) : DecoderLabel → Option DecoderRun
| .poll room =>
    if s.phase = .between ∧ 0 < room then
      some { s with phase := .polling room }
    else
      none
| .advance =>
    match s.phase with
    | .polling room => s.after (s.decoder.advance room)
    | _ => none
| .pending =>
    match s.phase with
    | .polling room =>
        match s.decoder.advance room with
        | .read _ => some { s with phase := .between }
        | _ => none
    | _ => none
| .read count =>
    match s.phase with
    | .polling room =>
        match s.decoder.advance room with
        | .read capacity =>
            if count ≤ capacity ∧ count ≤ s.rest.length ∧
                (count = 0 → s.rest = []) then
              { s with rest := s.rest.drop count }.after
                (s.decoder.receive
                  (.ready (s.rest.take count)))
            else
              none
        | _ => none
    | _ => none

end DecoderRun

def chunkedMachine (input : Bytes) :
    Library.Machine DecoderRun DecoderLabel where
  init := fun s => s = .start input
  step := DecoderRun.step

end RustyIce

------------------------------------------------------------
-- Progress
------------------------------------------------------------

namespace RustyIce

def DecoderState.weight : DecoderState → Nat
| .payload _ => 2
| _ => 0

def ChunkedDecoder.weight (decoder : ChunkedDecoder) : Nat :=
  4 * decoder.scratch.length + decoder.state.weight

def CallPhase.weight : CallPhase → Nat
| .between => 3
| .polling _ => 2
| .ended _ => 0

/- What every step but a pending read lowers. -/
def DecoderRun.rank (s : DecoderRun) : Nat :=
  8 * s.rest.length + s.decoder.weight + s.phase.weight

/- A round with no read makes the decoder lighter. -/
def Round.Lightens (weight : Nat) : Round → Prop
| .read _ => True
| .again decoder => decoder.weight < weight
| .finish decoder result =>
    decoder.weight ≤ weight ∧
      ∀ data, result = .ok data → data = []

/- A read makes it heavier by less than what was read. -/
def Round.Consumes
    (weight : Nat)
    (data : Bytes) : Round → Prop
| .read _ => False
| .again decoder =>
    data ≠ [] ∧ decoder.weight ≤ weight + 4
| .finish decoder result =>
    decoder.weight ≤ weight ∧
      ∀ out, result = .ok out → out ≠ [] → data ≠ []

namespace ChunkedDecoder

variable {decoder : ChunkedDecoder}

theorem weight_errored (decoder : ChunkedDecoder) :
    weight { decoder with state := .errored } ≤
      decoder.weight := by
  simp only [weight, DecoderState.weight]
  omega

theorem lightens_fillLine
    (maxBytes : Nat)
    {found : Bytes → ChunkedDecoder → Round}
    (hFound :
      ∀ line after,
        after.state = decoder.state →
          after.weight + 8 ≤ decoder.weight →
            (found line after).Lightens decoder.weight) :
    (decoder.fillLine maxBytes found).Lightens
      decoder.weight := by
  unfold fillLine
  split
  · rename_i pos hFind
    have hLength := Library.Delimited.findPair_le hFind
    refine hFound _ _ rfl ?_
    simp only [weight, List.length_drop]
    omega
  · split
    · refine ⟨weight_errored decoder, ?_⟩
      intro data hData
      cases hData
    · trivial

theorem lightens_advance
    (decoder : ChunkedDecoder)
    (room : Nat) :
    (decoder.advance room).Lightens decoder.weight := by
  unfold advance
  cases hState : decoder.state with
  | done | errored =>
      refine ⟨Nat.le_refl _, ?_⟩
      intro data hData
      cases hData
      rfl
  | payload remaining =>
      simp only
      split
      · simp only [Round.Lightens, weight, hState,
          DecoderState.weight]
        omega
      · split
        · refine ⟨Nat.le_refl _, ?_⟩
          intro data hData
          cases hData
          rfl
        · trivial
  | afterPayload seen => trivial
  | nextSize =>
      apply lightens_fillLine
      intro line after hAfter hLess
      unfold onSizeLine
      split
      · refine ⟨?_, ?_⟩
        · have hErrored := weight_errored after
          omega
        · intro data hData
          cases hData
      · split
        · simp only [Round.Lightens, weight,
            DecoderState.weight] at hLess ⊢
          omega
        · simp only [Round.Lightens, weight,
            DecoderState.weight] at hLess ⊢
          omega
  | trailers =>
      apply lightens_fillLine
      intro line after hAfter hLess
      unfold onTrailerLine
      split
      · simp only [Round.Lightens, weight,
          DecoderState.weight] at hLess ⊢
        omega
      · simp only [Round.Lightens]
        omega

theorem consumes_receiveLine
    (decoder : ChunkedDecoder)
    (data : Bytes) :
    (decoder.receiveLine (.ready data)).Consumes
      decoder.weight data := by
  cases data with
  | nil =>
      refine ⟨Nat.le_refl _, ?_⟩
      intro out hOut
      cases hOut
  | cons byte data =>
      refine ⟨List.cons_ne_nil _ _, ?_⟩
      simp only [weight, List.length_append,
        List.length_singleton]
      omega

theorem consumes_receive
    (decoder : ChunkedDecoder)
    (data : Bytes) :
    (decoder.receive (.ready data)).Consumes decoder.weight
      data := by
  unfold receive
  cases hState : decoder.state with
  | done | errored =>
      refine ⟨Nat.le_refl _, ?_⟩
      intro out hOut hSome
      cases hOut
      exact absurd rfl hSome
  | nextSize => exact decoder.consumes_receiveLine data
  | trailers => exact decoder.consumes_receiveLine data
  | payload remaining =>
      cases data with
      | nil =>
          refine ⟨weight_errored decoder, ?_⟩
          intro out hOut
          cases hOut
      | cons byte data =>
          refine ⟨?_, fun _ _ _ => List.cons_ne_nil _ _⟩
          simp [weight, hState, DecoderState.weight]
  | afterPayload seen =>
      cases data with
      | nil =>
          refine ⟨weight_errored decoder, ?_⟩
          intro out hOut
          cases hOut
      | cons byte data =>
          simp only
          split
          · refine ⟨weight_errored decoder, ?_⟩
            intro out hOut
            cases hOut
          · split <;>
              refine ⟨List.cons_ne_nil _ _, ?_⟩ <;>
              simp [weight, hState, DecoderState.weight]

end ChunkedDecoder

/- Every step but a pending read lowers the rank. -/
theorem rank_of_step
    {s t : DecoderRun}
    {label : DecoderLabel}
    (hLabel : label ≠ .pending)
    (hStep : s.step label = some t) :
    t.rank < s.rank := by
  cases label with
  | pending => exact absurd rfl hLabel
  | poll room =>
      simp only [DecoderRun.step] at hStep
      split at hStep
      · rename_i hReady
        cases hStep
        simp only [DecoderRun.rank, hReady.1,
          CallPhase.weight]
        omega
      · cases hStep
  | advance =>
      simp only [DecoderRun.step] at hStep
      split at hStep
      · rename_i room hPhase
        have hLight := s.decoder.lightens_advance room
        cases hRound : s.decoder.advance room with
        | read capacity =>
            rw [hRound] at hStep
            cases hStep
        | again decoder =>
            rw [hRound] at hStep hLight
            cases hStep
            simp only [Round.Lightens] at hLight
            simp only [DecoderRun.rank, hPhase]
            omega
        | finish decoder result =>
            rw [hRound] at hStep hLight
            rcases hLight with ⟨hWeight, hEmpty⟩
            cases result with
            | error e =>
                cases hStep
                simp only [DecoderRun.rank, hPhase,
                  CallPhase.weight]
                omega
            | ok data =>
                rw [hEmpty data rfl] at hStep
                cases hStep
                simp only [DecoderRun.rank, hPhase,
                  CallPhase.weight]
                omega
      · cases hStep
  | read count =>
      simp only [DecoderRun.step] at hStep
      split at hStep
      · rename_i room hPhase
        split at hStep
        · split at hStep
          · rename_i hCount
            rcases hCount with ⟨_, hLess, _⟩
            have hConsumes :=
              s.decoder.consumes_receive (s.rest.take count)
            have hTaken :
                s.rest.take count ≠ [] → 0 < count := by
              intro hSome
              rcases Nat.eq_zero_or_pos count with
                hZero | hPos
              · rw [hZero, List.take_zero] at hSome
                exact absurd rfl hSome
              · exact hPos
            cases hRound :
                s.decoder.receive
                  (.ready (s.rest.take count)) with
            | read capacity =>
                rw [hRound] at hStep
                cases hStep
            | again decoder =>
                rw [hRound] at hStep hConsumes
                cases hStep
                rcases hConsumes with ⟨hSome, hWeight⟩
                have hPos := hTaken hSome
                simp only [DecoderRun.rank, hPhase,
                  List.length_drop]
                omega
            | finish decoder result =>
                rw [hRound] at hStep hConsumes
                rcases hConsumes with ⟨hWeight, hSome⟩
                cases result with
                | error e =>
                    cases hStep
                    simp only [DecoderRun.rank, hPhase,
                      CallPhase.weight, List.length_drop]
                    omega
                | ok data =>
                    cases data with
                    | nil =>
                        cases hStep
                        simp only [DecoderRun.rank, hPhase,
                          CallPhase.weight, List.length_drop]
                        omega
                    | cons byte data =>
                        have hPos :=
                          hTaken
                            (hSome _ rfl
                              (List.cons_ne_nil _ _))
                        cases hStep
                        simp only [DecoderRun.rank, hPhase,
                          CallPhase.weight, List.length_drop]
                        omega
          · cases hStep
        · cases hStep
      · cases hStep

end RustyIce
