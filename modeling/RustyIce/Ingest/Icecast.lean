import RustyIce.Codec.Mp3
import RustyIce.Codec.VorbisProbe
import RustyIce.Ingest.Publish

/-
  The ingest of one source connection without a transcode:
  the reader task in front, which strips what an MP3 file
  opens with, and the paced publish loop behind it. The
  channel between them is unbounded and keeps the order, so
  the loop sees what the reader sent however the two tasks
  run.

  Main declarations:
    * `reads`
    * `parseId3v2Total`, `stripMp3Prefix`, `drainReader`
    * `IcecastIngest.run`
-/

------------------------------------------------------------
-- Reading
------------------------------------------------------------

namespace RustyIce

namespace Ingest

/- Reads of one fragment into a buffer of `chunkSize`. -/
def fragmentReads
    (chunkSize : Nat) : Nat → Bytes → List Bytes
  | 0, _ => []
  | fuel + 1, data =>
      if data = [] then []
      else
        data.take chunkSize ::
          fragmentReads chunkSize fuel (data.drop chunkSize)

/-
  What the reads of a connection give until one gives no
  byte, which is the end of the source.
-/
def reads
    (chunkSize : Nat)
    (fragments : List Bytes) : List Bytes :=
  (fragments.flatMap fun data =>
    fragmentReads chunkSize data.length data).takeWhile
      (· ≠ [])

/-
  Read until `bound` bytes are in hand. The reads that are
  left are missing when the source ended first.
-/
def fill
    (bound : Nat)
    (pending : Bytes) : List Bytes → Bytes × Option (List Bytes)
  | [] =>
      if pending.length < bound then (pending, none)
      else (pending, some [])
  | data :: rest =>
      if pending.length < bound then
        fill bound (pending ++ data) rest
      else (pending, some (data :: rest))

/-
  Read over `toSkip` bytes: what the last read has beyond
  them, or nothing when the source ended inside them.
-/
def skip
    (toSkip : Nat) :
    List Bytes → Option (Bytes × List Bytes)
  | [] => if toSkip = 0 then some ([], []) else none
  | data :: rest =>
      if toSkip = 0 then some ([], data :: rest)
      else if data.length ≤ toSkip then
        skip (toSkip - data.length) rest
      else some (data.drop toSkip, rest)

end Ingest

end RustyIce

------------------------------------------------------------
-- The Prefix Of An MP3 Stream
------------------------------------------------------------

namespace RustyIce

namespace Ingest

def ID3 : Bytes := [0x49, 0x44, 0x33]

/- Header and body of a tag at the start, or 0. -/
def parseId3v2Total (data : Bytes) : Nat :=
  if data.length < 10 ∨ data.take 3 ≠ ID3 then 0
  else
    let low (i : Nat) : Nat := (data.getD i 0).toNat &&& 0x7F
    let size :=
      low 6 <<< 21 ||| low 7 <<< 14 ||| low 8 <<< 7 ||| low 9
    10 + size

def stripXingInPlace (pending : Bytes) : Bytes :=
  match detectXingFrameEnd pending with
  | some stop => pending.drop stop
  | none => pending

/- What is sent on: no empty chunk is. -/
def flushRemaining (data : Bytes) : List Bytes :=
  if data = [] then [] else [data]

/-
  The chunks sent ahead of the pass-through, and the reads
  that are left for it.
-/
def stripMp3Prefix
    (reads : List Bytes) : List Bytes × List Bytes :=
  match fill 10 [] reads with
  | (head, none) => (flushRemaining head, [])
  | (head, some reads) =>
      let id3Total := parseId3v2Total head
      let afterTag :=
        if id3Total = 0 then some (head, reads)
        else if id3Total ≤ head.length then
          some (head.drop id3Total, reads)
        else skip (id3Total - head.length) reads
      match afterTag with
      | none => ([], [])
      | some (pending, reads) =>
          match fill 2048 pending reads with
          | (pending, none) =>
              (flushRemaining (stripXingInPlace pending), [])
          | (pending, some reads) =>
              (flushRemaining (stripXingInPlace pending),
                reads)

/- All the chunks the reader sends to the publish loop. -/
def drainReader
    (codec : CodecId)
    (reads : List Bytes) : List Bytes :=
  if codec = .MP3 then
    (stripMp3Prefix reads).1 ++ (stripMp3Prefix reads).2
  else reads

end Ingest

end RustyIce

------------------------------------------------------------
-- The Publish Loop
------------------------------------------------------------

namespace RustyIce

structure SourceStats where
  bytesReceived : Nat
  packetsPublished : Nat
deriving DecidableEq, Repr

/- The settings that matter without a transcode. -/
structure IcecastIngest where
  chunkSize : Nat
  maxRateBps : Option Nat
  headerCaptureSink : Bool
deriving DecidableEq, Repr

/-
  A finished run, or one that panicked: what is on the bus,
  and the stats when the run returned them.
-/
structure IngestOutcome where
  bus : List StreamPacket
  stats : Option SourceStats
deriving DecidableEq, Repr

namespace Ingest

/-
  The variables of the publish loop. The number of packets
  published is the publisher's next sequence number.
-/
structure PublishLoop where
  publisher : Publisher
  bytesReceived : Nat
  sourceRate : Option Nat
  sourceRateLocked : Bool
deriving DecidableEq, Repr

namespace PublishLoop

def start
    (ingest : IcecastIngest)
    (codec : CodecId) : PublishLoop where
  publisher :=
    { Publisher.start codec with
      headerCapture :=
        if ingest.headerCaptureSink then
          headerCaptureFor codec
        else none }
  bytesReceived := 0
  sourceRate := ingest.maxRateBps
  sourceRateLocked := ingest.maxRateBps.isSome

/- The rate a chunk shows, for the codecs that show one. -/
def detectRate (codec : CodecId) (data : Bytes) : Option Nat :=
  if codec = .MP3 then scanBitrateBps data
  else if codec = .VORBIS then scanNominalBitrateBps data
  else none

def lockRate
    (codec : CodecId)
    (data : Bytes)
    (st : PublishLoop) : PublishLoop :=
  if st.sourceRateLocked then st
  else
    match detectRate codec data with
    | some bps =>
        { st with
          sourceRate := some bps
          sourceRateLocked := true }
    | none => st

/- Locking a rate publishes nothing. -/
theorem lockRate_frame
    (codec : CodecId)
    (data : Bytes)
    (st : PublishLoop) :
    (st.lockRate codec data).publisher = st.publisher ∧
      (st.lockRate codec data).bytesReceived =
        st.bytesReceived := by
  unfold lockRate
  split
  · exact ⟨rfl, rfl⟩
  · split <;> exact ⟨rfl, rfl⟩

/- One chunk up to the pacing. -/
def publishChunk
    (codec : CodecId)
    (st : PublishLoop)
    (data : Bytes) : PublishLoop :=
  let st := st.lockRate codec data
  { st with
    bytesReceived := st.bytesReceived + data.length
    publisher := st.publisher.publishEncoded codec data }

/-
  The loop over the chunks. Pacing divides the bytes by the
  rate, and the conversion to a duration panics for what a
  rate of zero gives.
-/
def publishAll
    (codec : CodecId)
    (st : PublishLoop) : List Bytes → IngestOutcome
  | [] =>
      { bus := st.publisher.bus
        stats :=
          some
            { bytesReceived := st.bytesReceived
              packetsPublished := st.publisher.sequence } }
  | data :: rest =>
      let st := st.publishChunk codec data
      if st.sourceRate = some 0 then
        { bus := st.publisher.bus
          stats := none }
      else publishAll codec st rest

end PublishLoop

end Ingest

/- A run over fragments that end with the end of the source. -/
def IcecastIngest.run
    (ingest : IcecastIngest)
    (codec : CodecId)
    (fragments : List Bytes) : IngestOutcome :=
  (Ingest.PublishLoop.start ingest codec).publishAll codec
    (Ingest.drainReader codec
      (Ingest.reads ingest.chunkSize fragments))

end RustyIce
