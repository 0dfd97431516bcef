import RustyIce.Core.Mount
import RustyIce.Codec.VorbisHeaders

/-
  One source session publishing encoded data on a mount: the
  one-shot header capture in front of the bus. The live
  ingest, the relay and the rotation share this path.

  Main declarations:
    * `Publisher` and `Publisher.publishEncoded`
    * `headerCaptureFor`
    * `Publisher.published`
    * `published_vorbis`
-/

------------------------------------------------------------
-- The Publish Path
------------------------------------------------------------

namespace RustyIce

/-
  What a session carries from one published chunk to the
  next: the capture until it settles, the mount's header
  bytes, and the packets handed to the bus.
-/
structure Publisher where
  headerCapture : Option OggHeaderCapture
  headerBytes : Option Bytes
  bus : List StreamPacket
  sequence : Nat
deriving DecidableEq, Repr

/- Only Ogg Vorbis output has header pages to capture. -/
def headerCaptureFor
    (outputCodec : CodecId) : Option OggHeaderCapture :=
  if outputCodec = .VORBIS then
    some OggHeaderCapture.new
  else
    none

namespace Publisher

/- The source slot starts a session without header bytes. -/
def start (outputCodec : CodecId) : Publisher where
  headerCapture := headerCaptureFor outputCodec
  headerBytes := none
  bus := []
  sequence := 0

/-
  Feed the capture, store its result once it settles and
  drop it, so that it is fed no more.
-/
def captureHeaders
    (st : Publisher)
    (data : Bytes) : Publisher :=
  match st.headerCapture with
  | none => st
  | some cap =>
      let cap := cap.push data
      if cap.isSettled then
        match cap.headerBytes with
        | some headers =>
            { st with
              headerCapture := none
              headerBytes := some headers }
        | none => { st with headerCapture := none }
      else
        { st with headerCapture := some cap }

/- The capture touches nothing that is published. -/
theorem captureHeaders_frame
    (st : Publisher)
    (data : Bytes) :
    (st.captureHeaders data).bus = st.bus ∧
      (st.captureHeaders data).sequence = st.sequence := by
  unfold captureHeaders
  split
  · exact ⟨rfl, rfl⟩
  · simp only
    repeat' split
    all_goals exact ⟨rfl, rfl⟩

def publishEncoded
    (outputCodec : CodecId)
    (st : Publisher)
    (data : Bytes) : Publisher :=
  let st := st.captureHeaders data
  { st with
    bus :=
      st.bus ++
        [{ payload :=
             .encoded { codec := outputCodec, data := data }
           sequence := st.sequence }]
    sequence := st.sequence + 1 }

/- A session after publishing some chunks. -/
def published
    (outputCodec : CodecId)
    (chunks : List Bytes) : Publisher :=
  chunks.foldl (publishEncoded outputCodec)
    (start outputCodec)

theorem published_snoc
    (outputCodec : CodecId)
    (chunks : List Bytes)
    (data : Bytes) :
    published outputCodec (chunks ++ [data]) =
      (published outputCodec chunks).publishEncoded
        outputCodec data := by
  simp [published]

/- Packets are numbered from zero without a gap. -/
def InOrder (st : Publisher) : Prop :=
  st.bus.map (·.sequence) = List.range st.sequence

theorem InOrder.publishEncoded
    {st : Publisher}
    (outputCodec : CodecId)
    (data : Bytes)
    (hOrder : st.InOrder) :
    (st.publishEncoded outputCodec data).InOrder := by
  obtain ⟨hBus, hSequence⟩ := st.captureHeaders_frame data
  simp only [InOrder, Publisher.publishEncoded,
    List.map_append, hBus, hSequence, List.map_cons,
    List.map_nil, List.range_succ] at hOrder ⊢
  rw [hOrder]

end Publisher

end RustyIce

------------------------------------------------------------
-- The Capture In A Session
------------------------------------------------------------

namespace RustyIce

open Library.Frames OggHeaderCapture

namespace Publisher

/-
  A capture that settled keeps the header bytes it found for
  the rest of the session; one that did not is still fed.
-/
theorem published_vorbis (chunks : List Bytes) :
    ((new.pushes chunks).isSettled = false ∧
        (published .VORBIS chunks).headerCapture =
          some (new.pushes chunks) ∧
        (published .VORBIS chunks).headerBytes = none) ∨
      ((new.pushes chunks).isSettled = true ∧
        (published .VORBIS chunks).headerCapture = none ∧
        (published .VORBIS chunks).headerBytes =
          (new.pushes chunks).headerBytes) := by
  induction chunks using List.reverseRecOn with
  | nil =>
      left
      exact ⟨rfl, rfl, rfl⟩
  | append_singleton chunks data ih =>
      have hPush :
          new.pushes (chunks ++ [data]) =
            (new.pushes chunks).push data := by
        simp [pushes]
      rw [published_snoc, publishEncoded, hPush]
      simp only
      rcases ih with
        ⟨hOpen, hCapture, hBytes⟩ |
        ⟨hSettled, hCapture, hBytes⟩
      · cases hNow :
            ((new.pushes chunks).push data).isSettled with
        | false =>
            left
            simp only [captureHeaders, hCapture, hNow,
              Bool.false_eq_true, if_false, hBytes, and_self]
        | true =>
            right
            simp only [captureHeaders, hCapture, hNow,
              if_true, true_and]
            cases hHeaders :
                ((new.pushes chunks).push data).headerBytes
              with
            | some headers => exact ⟨rfl, rfl⟩
            | none => exact ⟨rfl, hBytes⟩
      · right
        rw [push_settled hSettled]
        simp only [captureHeaders, hCapture, hBytes, hSettled,
          and_self]

end Publisher

end RustyIce
