import RustyIce.Core.Mount
import RustyIce.Library.Interleave

/-
  The listener output: packets from a subscription written
  to a connection, with ICY metadata frames in between when
  the listener asked for them.

  The writer is the list of bytes it has accepted; a write
  that fails ends the run, so that the bytes accepted are an
  initial part of those computed here. Connection time is
  not modelled.

  Main declarations:
    * `Displayed` and `buildIcyFrame`
    * `writeWithIcy`
    * `HttpPassthroughOutput.run`
    * `writeWithIcy_eq` and `run_written`
-/

------------------------------------------------------------
-- ICY Frames
------------------------------------------------------------

namespace RustyIce

namespace Output

/- What is displayed on a mount at a metadata point. -/
structure Displayed where
  info : MountInfo
  currentTitle : Option String
  sourceOverlay : Option SourceOverlay
deriving DecidableEq, Repr

namespace Displayed

/- The runtime title wins, then the source's, then ours. -/
def title (shown : Displayed) : String :=
  (shown.currentTitle <|>
    shown.sourceOverlay.bind (·.name) <|>
      shown.info.metadata.name).getD ""

def url (shown : Displayed) : String :=
  (shown.sourceOverlay.bind (·.url) <|>
    shown.info.metadata.url).getD ""

end Displayed

/- The text of a metadata frame. -/
def metaStr (title url : String) : String :=
  "StreamTitle='" ++ title ++ "';StreamUrl='" ++ url ++ "';"

/- The number of 16-byte blocks a frame body takes. -/
def icyBlocks (raw : Bytes) : Nat :=
  (raw.length + 15) / 16

/- The length byte, saturated at the largest byte. -/
def icyLengthByte (blocks : Nat) : UInt8 :=
  if blocks ≤ 255 then UInt8.ofNat blocks else 255

def buildIcyFrame (shown : Displayed) : Bytes :=
  if shown.title = "" ∧ shown.url = "" then
    [0]
  else
    let raw := utf8Bytes (metaStr shown.title shown.url)
    let padded := icyBlocks raw * 16
    icyLengthByte (icyBlocks raw) ::
      (raw ++ List.replicate (padded - raw.length) 0)

end Output

end RustyIce

------------------------------------------------------------
-- Writing Packets
------------------------------------------------------------

namespace RustyIce

namespace Output

/-
  The connection so far. `points` counts the metadata points
  passed.
-/
structure OutputState where
  written : Bytes
  bytesSinceMeta : Nat
  bytesSent : Nat
  points : Nat
deriving DecidableEq, Repr

namespace OutputState

/- A fresh connection. -/
def start : OutputState where
  written := []
  bytesSinceMeta := 0
  bytesSent := 0
  points := 0

def writeAudio
    (out : OutputState)
    (chunk : Bytes) : OutputState :=
  { out with
    written := out.written ++ chunk
    bytesSent := out.bytesSent + chunk.length }

def countAudio
    (out : OutputState)
    (chunk : Bytes) : OutputState :=
  { out with
    bytesSinceMeta := out.bytesSinceMeta + chunk.length }

def writeFrame
    (out : OutputState)
    (frame : Bytes) : OutputState :=
  { out with
    written := out.written ++ frame
    bytesSinceMeta := 0
    points := out.points + 1 }

end OutputState

/-
  The packet loop, with the data still to be written. Out of
  fuel is `none`; one unit of fuel is one turn of the loop.
-/
def writeWithIcy
    (metaint : Nat)
    (seen : Nat → Displayed) :
    Nat → Bytes → OutputState → Option OutputState
| _, [], out => some out
| 0, _ :: _, _ => none
| fuel + 1, data, out =>
    let space := metaint - out.bytesSinceMeta
    let chunk := data.take space
    let out := (out.writeAudio chunk).countAudio chunk
    let out :=
      if out.bytesSinceMeta ≥ metaint then
        out.writeFrame (buildIcyFrame (seen out.points))
      else
        out
    writeWithIcy metaint seen fuel (data.drop space) out

end Output

end RustyIce

------------------------------------------------------------
-- The Output Loop
------------------------------------------------------------

namespace RustyIce

namespace Output

inductive DisconnectReason where
| sourceEnded
| shuttingDown
deriving DecidableEq, Repr

/-
  What one turn of the loop finds: the cancellation, which
  is looked at first, or the next packet. A list of them
  that runs out is a subscription that ended.
-/
inductive Polled where
| cancelled
| packet (packet : StreamPacket)
deriving DecidableEq, Repr

structure HttpPassthroughOutput where
  icyMetaint : Nat
deriving DecidableEq, Repr

namespace HttpPassthroughOutput

/- The standard spacing of metadata. -/
def default : HttpPassthroughOutput where
  icyMetaint := 8192

/-
  One packet. Each packet has as many turns of the inner
  loop as it has bytes, which is enough.
-/
def writePacket
    (output : HttpPassthroughOutput)
    (seen : Nat → Displayed)
    (icyRequested : Bool)
    (packet : StreamPacket)
    (out : OutputState) : Option OutputState :=
  match packet.payload with
  | .decoded _ => some out
  | .encoded enc =>
      if icyRequested then
        writeWithIcy output.icyMetaint seen enc.data.length
          enc.data out
      else
        some (out.writeAudio enc.data)

def run
    (output : HttpPassthroughOutput)
    (seen : Nat → Displayed)
    (icyRequested : Bool) :
    List Polled → OutputState →
      Option (OutputState × DisconnectReason)
| [], out => some (out, .sourceEnded)
| .cancelled :: _, out => some (out, .shuttingDown)
| .packet packet :: polled, out =>
    match output.writePacket seen icyRequested packet out with
    | none => none
    | some out => output.run seen icyRequested polled out

end HttpPassthroughOutput

/- The audio of one packet. -/
def packetAudio (packet : StreamPacket) : Bytes :=
  match packet.payload with
  | .encoded enc => enc.data
  | .decoded _ => []

/- The audio handed to a connection before it closes. -/
def audio : List Polled → Bytes
| [] => []
| .cancelled :: _ => []
| .packet packet :: polled =>
    packetAudio packet ++ audio polled

end Output

end RustyIce

------------------------------------------------------------
-- The Output Loop Weaves
------------------------------------------------------------

namespace RustyIce

namespace Output

open Library.Interleave

/- The connection after weaving some audio into it. -/
def OutputState.weaved
    (metaint : Nat)
    (seen : Nat → Displayed)
    (out : OutputState)
    (data : Bytes) : OutputState where
  written :=
    out.written ++
      weave metaint (fun k => buildIcyFrame (seen k))
        out.bytesSinceMeta out.points data
  bytesSinceMeta :=
    sinceAfter metaint out.bytesSinceMeta data.length
  bytesSent := out.bytesSent + data.length
  points :=
    framesAfter metaint out.bytesSinceMeta out.points
      data.length

/- Weaving twice is weaving once. -/
theorem OutputState.weaved_append
    {metaint : Nat}
    (seen : Nat → Displayed)
    (out : OutputState)
    (first second : Bytes)
    (hSince : out.bytesSinceMeta < metaint) :
    (out.weaved metaint seen first).weaved
        metaint seen second =
      out.weaved metaint seen (first ++ second) := by
  simp only [weaved, sinceAfter_add, framesAfter_add,
    List.length_append, weave_append _ _ _ _ hSince,
    List.append_assoc, Nat.add_assoc]

theorem OutputState.weaved_nil
    {metaint : Nat}
    (seen : Nat → Displayed)
    (out : OutputState)
    (hSince : out.bytesSinceMeta < metaint) :
    out.weaved metaint seen [] = out := by
  simp [weaved, weave, sinceAfter, framesAfter,
    Nat.mod_eq_of_lt hSince, Nat.div_eq_of_lt hSince]

/-
  One turn of the packet loop weaves the bytes it takes:
  either all that is left, short of the next metadata point,
  or exactly the bytes up to that point and the frame.
-/
theorem turn_eq
    {metaint : Nat}
    (seen : Nat → Displayed)
    (out : OutputState)
    (data : Bytes)
    (hSince : out.bytesSinceMeta < metaint) :
    (let chunk := data.take (metaint - out.bytesSinceMeta)
     let out := (out.writeAudio chunk).countAudio chunk
     if out.bytesSinceMeta ≥ metaint then
        out.writeFrame (buildIcyFrame (seen out.points))
      else
        out) =
      out.weaved metaint seen
        (data.take (metaint - out.bytesSinceMeta)) := by
  have hMetaint : 0 < metaint := by omega
  by_cases hFull :
      metaint - out.bytesSinceMeta ≤ data.length
  · have hLength :
        out.bytesSinceMeta +
            (data.take
              (metaint - out.bytesSinceMeta)).length =
          metaint := by
      rw [List.length_take, Nat.min_eq_left hFull]
      omega
    have hWeave :=
      weave_full (fun k => buildIcyFrame (seen k)) out.points
        (data.take (metaint - out.bytesSinceMeta)) []
        hSince hLength
    rw [List.append_nil] at hWeave
    simp only [OutputState.writeAudio,
      OutputState.countAudio, OutputState.writeFrame,
      OutputState.weaved, hLength, ge_iff_le, Nat.le_refl,
      if_true, hWeave, sinceAfter, framesAfter, Nat.mod_self,
      Nat.div_self hMetaint, weave, List.append_nil,
      List.append_assoc]
  · have hAll :
        data.take (metaint - out.bytesSinceMeta) = data := by
      apply List.take_of_length_le
      omega
    have hShort :
        out.bytesSinceMeta + data.length < metaint := by
      omega
    have hWeave :=
      weave_short (fun k => buildIcyFrame (seen k))
        out.points data hShort
    have hBefore :
        ¬ out.bytesSinceMeta + data.length ≥ metaint := by
      omega
    simp only [hAll, OutputState.writeAudio,
      OutputState.countAudio, OutputState.weaved, hBefore,
      if_false, hWeave, sinceAfter, framesAfter,
      Nat.mod_eq_of_lt hShort, Nat.div_eq_of_lt hShort,
      Nat.add_zero]

/-
  The packet loop returns and weaves the whole packet: one
  turn takes at least one byte, so that a turn for every
  byte is enough.
-/
theorem writeWithIcy_eq
    {metaint : Nat}
    (seen : Nat → Displayed)
    (fuel : Nat)
    (data : Bytes)
    (out : OutputState)
    (hSince : out.bytesSinceMeta < metaint)
    (hFuel : data.length ≤ fuel) :
    writeWithIcy metaint seen fuel data out =
      some (out.weaved metaint seen data) := by
  induction fuel generalizing data out with
  | zero =>
      have hNone : data = [] :=
        List.eq_nil_of_length_eq_zero (by omega)
      subst hNone
      rw [OutputState.weaved_nil seen out hSince]
      rfl
  | succ fuel ih =>
      cases data with
      | nil =>
          rw [OutputState.weaved_nil seen out hSince]
          rfl
      | cons byte data =>
          have hTurn :=
            turn_eq seen out (byte :: data) hSince
          simp only at hTurn
          simp only [writeWithIcy]
          rw [hTurn, ih]
          · rw [OutputState.weaved_append _ _ _ _ hSince,
              List.take_append_drop]
          · exact sinceAfter_lt _ _ (by omega)
          · simp only [List.length_drop, List.length_cons]
              at hFuel ⊢
            omega

/- The connection after a run is the weaving of its audio. -/
theorem run_eq
    (output : HttpPassthroughOutput)
    (seen : Nat → Displayed)
    (polled : List Polled)
    (out : OutputState)
    (hSince : out.bytesSinceMeta < output.icyMetaint) :
    ∃ reason,
      output.run seen true polled out =
        some
          (out.weaved output.icyMetaint seen (audio polled),
            reason) := by
  induction polled generalizing out with
  | nil =>
      refine ⟨.sourceEnded, ?_⟩
      rw [audio, OutputState.weaved_nil seen out hSince]
      rfl
  | cons head polled ih =>
      cases head with
      | cancelled =>
          refine ⟨.shuttingDown, ?_⟩
          rw [audio, OutputState.weaved_nil seen out hSince]
          rfl
      | packet packet =>
          have hPacket :
              output.writePacket seen true packet out =
                some
                  (out.weaved output.icyMetaint seen
                    (packetAudio packet)) := by
            unfold HttpPassthroughOutput.writePacket
            cases hPayload : packet.payload with
            | decoded frame =>
                simp only [packetAudio, hPayload]
                rw [OutputState.weaved_nil seen out hSince]
            | encoded enc =>
                simp only [packetAudio, hPayload, if_true]
                exact
                  writeWithIcy_eq seen _ _ _ hSince
                    (Nat.le_refl _)
          have hNext :
              (out.weaved output.icyMetaint seen
                  (packetAudio packet)).bytesSinceMeta <
                output.icyMetaint :=
            sinceAfter_lt _ _ (by omega)
          rcases ih _ hNext with ⟨reason, hRun⟩
          refine ⟨reason, ?_⟩
          rw [HttpPassthroughOutput.run, hPacket]
          simp only [hRun, audio,
            OutputState.weaved_append _ _ _ _ hSince]

end Output

end RustyIce
