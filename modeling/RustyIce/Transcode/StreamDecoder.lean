import RustyIce.Codec.Mp3
import RustyIce.Codec.Ogg

/-
  The decoder in front of a transcode: source bytes are kept
  until they hold whole frames or pages, and only these go
  into the pipe that the decoding library reads.

  The library is a parameter: what it makes of the pipe, and
  how far it reads. `drain_packets` is its loop, and is part
  of it.

  Main declarations:
    * `PipeBuf`, `Symphonia`
    * `UnitKind`, `completeEnd`
    * `StreamDecoder.push`, `StreamDecoder.flushEof`
-/

------------------------------------------------------------
-- The Pipe And The Library
------------------------------------------------------------

namespace RustyIce

namespace Transcode

/-
  The queue between a decoder and its library, told as all
  that was ever written to it and how much of that was read.
-/
structure PipeBuf where
  written : Bytes
  taken : Nat
  eof : Bool
deriving DecidableEq, Repr

namespace PipeBuf

def new : PipeBuf where
  written := []
  taken := 0
  eof := false

/- What is in the queue. -/
def data (buf : PipeBuf) : Bytes :=
  buf.written.drop buf.taken

def extend
    (buf : PipeBuf)
    (data : Bytes) : PipeBuf :=
  { buf with written := buf.written ++ data }

def clear (buf : PipeBuf) : PipeBuf :=
  { buf with taken := buf.written.length }

def readUpTo
    (buf : PipeBuf)
    (taken : Nat) : PipeBuf :=
  { buf with taken := taken }

end PipeBuf

/- Interleaved samples with their rate and channels. -/
structure Pcm (Sample : Type) where
  samples : List Sample
  sampleRate : Nat
  channels : Nat

/- Nothing decoded yet. -/
def Pcm.none {Sample : Type} : Pcm Sample where
  samples := []
  sampleRate := 0
  channels := 0

/-
  The decoding library. Both functions also tell how much of
  the pipe is read afterwards.
-/
structure Symphonia (Sample : Type) where
  Inner : Type
  probe : CodecId → PipeBuf → Except String Inner × Nat
  drainPackets : Inner → PipeBuf → Pcm Sample × Inner × Nat

end Transcode

end RustyIce

------------------------------------------------------------
-- Whole Units
------------------------------------------------------------

namespace RustyIce

namespace Transcode

/-
  The units a source is made of: how many bytes it takes to
  look for one, how one begins, and how long it is.
-/
structure UnitKind where
  header : Nat
  begins : Bytes → Bool
  size : Bytes → Option Nat
  header_pos : 0 < header
  size_pos :
    ∀ {data : Bytes} {n : Nat}, size data = some n → 0 < n

def mp3Frames : UnitKind where
  header := 4
  begins := startsWithSync
  size := mp3FrameSize
  header_pos := by decide
  size_pos := mp3FrameSize_pos

theorem oggPageSize_pos
    {data : Bytes}
    {size : Nat}
    (hSize : oggPageSize data = some size) :
    27 ≤ size ∧ 27 ≤ data.length := by
  unfold oggPageSize at hSize
  split at hSize
  · cases hSize
  · simp only at hSize
    split at hSize
    · cases hSize
    · cases hSize
      omega

def oggPages : UnitKind where
  header := 27
  begins := fun data => data.take 4 = OGG_MAGIC
  size := oggPageSize
  header_pos := by decide
  size_pos := fun hSize => by
    have := oggPageSize_pos hSize
    omega

/-
  Where the last whole unit ends that the scan finds from
  `pos` on. It stops at a unit that is not whole, and steps
  over a byte where no unit begins or its size is not known.
-/
def completeEnd
    (kind : UnitKind)
    (data : Bytes)
    (pos lastCompleteEnd : Nat) : Nat :=
  if _hRoom : pos + kind.header ≤ data.length then
    if ¬ kind.begins (data.drop pos) then
      completeEnd kind data (pos + 1) lastCompleteEnd
    else
      match _hSize : kind.size (data.drop pos) with
      | some size =>
          if pos + size ≤ data.length then
            completeEnd kind data (pos + size) (pos + size)
          else
            lastCompleteEnd
      | none =>
          completeEnd kind data (pos + 1) lastCompleteEnd
  else
    lastCompleteEnd
termination_by data.length - pos
decreasing_by
  · have := kind.header_pos
    omega
  · have := kind.size_pos _hSize
    omega
  · have := kind.header_pos
    omega

/- The units of a source codec. -/
def unitKindFor (codec : CodecId) : UnitKind :=
  if codec = .VORBIS then oggPages else mp3Frames

end Transcode

end RustyIce

------------------------------------------------------------
-- The Decoder
------------------------------------------------------------

namespace RustyIce

namespace Transcode

def INIT_THRESHOLD_MP3 : Nat := 8192
def INIT_THRESHOLD_VORBIS : Nat := 65536

def initThresholdFor (codec : CodecId) : Nat :=
  if codec = .VORBIS then INIT_THRESHOLD_VORBIS
  else INIT_THRESHOLD_MP3

structure StreamDecoder
    {Sample : Type}
    (lib : Symphonia Sample) where
  buf : PipeBuf
  sourceCodec : CodecId
  pending : Bytes
  frameStaging : Bytes
  inner : Option lib.Inner

namespace StreamDecoder

variable {Sample : Type}
variable {lib : Symphonia Sample}

def new (sourceCodec : CodecId) : StreamDecoder lib where
  buf := .new
  sourceCodec := sourceCodec
  pending := []
  frameStaging := []
  inner := none

/- Units that are whole move on, with all before them. -/
def stageCompleteFramesToPipe
    (d : StreamDecoder lib) : StreamDecoder lib :=
  let lastCompleteEnd :=
    completeEnd (unitKindFor d.sourceCodec) d.frameStaging 0 0
  if lastCompleteEnd > 0 then
    { d with
      frameStaging := d.frameStaging.drop lastCompleteEnd
      buf :=
        d.buf.extend (d.frameStaging.take lastCompleteEnd) }
  else
    d

def drainPackets
    (d : StreamDecoder lib) :
    Pcm Sample × StreamDecoder lib :=
  match d.inner with
  | none => (.none, d)
  | some inner =>
      let (pcm, inner, taken) :=
        lib.drainPackets inner d.buf
      (pcm,
        { d with
          inner := some inner
          buf := d.buf.readUpTo taken })

/-
  The warm-up that follows a successful probe reads the pipe
  and drops what it decodes.
-/
def tryInit
    (d : StreamDecoder lib) :
    Except String Unit × StreamDecoder lib :=
  match lib.probe d.sourceCodec d.buf with
  | (.error e, taken) =>
      (.error e, { d with buf := d.buf.readUpTo taken })
  | (.ok inner, taken) =>
      (.ok (),
        ({ d with
            buf := d.buf.readUpTo taken
            inner := some inner } :
          StreamDecoder lib).drainPackets.2)

def push
    (d : StreamDecoder lib)
    (data : Bytes) : Pcm Sample × StreamDecoder lib :=
  if data = [] then
    (.none, d)
  else if d.inner.isNone then
    let d := { d with pending := d.pending ++ data }
    if d.pending.length < initThresholdFor d.sourceCodec then
      (.none, d)
    else
      let d :=
        { d with
          pending := []
          buf := d.buf.extend d.pending }
      match d.tryInit with
      | (.error _, d) => (.none, { d with buf := d.buf.clear })
      | (.ok _, d) => (.none, d)
  else
    ({ d with
        frameStaging :=
          d.frameStaging ++ data } :
      StreamDecoder lib).stageCompleteFramesToPipe
      |>.drainPackets

/- The end of the source: what is staged goes in as it is. -/
def flushEof
    (d : StreamDecoder lib) :
    Pcm Sample × StreamDecoder lib :=
  let d :=
    if d.inner.isNone ∧ d.pending ≠ [] then
      ({ d with
          pending := []
          buf := d.buf.extend d.pending } :
        StreamDecoder lib).tryInit.2
    else d
  let d :=
    if d.frameStaging ≠ [] then
      { d with
        frameStaging := []
        buf := d.buf.extend d.frameStaging }
    else d
  let d := { d with buf := { d.buf with eof := true } }
  if d.inner.isNone then (.none, d) else d.drainPackets

end StreamDecoder

end Transcode

end RustyIce
