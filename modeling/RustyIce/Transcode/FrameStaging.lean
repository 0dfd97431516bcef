import RustyIce.Transcode.PageStaging

/-
  What the staging of an MP3 source lets through: whole
  frames, wherever the pushes cut them.

  Main declarations:
    * `Mp3Frame`
    * `completeEnd_frames`
    * `StreamDecoder.OnlyWholeFrames`
    * `onlyWholeFrames`
-/

------------------------------------------------------------
-- Frames
------------------------------------------------------------

namespace RustyIce

/- A header, and as many bytes as it announces. -/
structure Mp3Frame where
  bytes : Bytes
  framed : mp3FrameSize bytes = some bytes.length

namespace Mp3Frame

theorem length_bytes (f : Mp3Frame) : 4 ≤ f.bytes.length :=
  (startsWithSync_of_mp3FrameSize f.framed).1

/-
  A part of a frame that has the header of it begins like
  the frame and tells the size of the whole frame.
-/
theorem size_of_part
    (f : Mp3Frame)
    {part : Bytes}
    (hPart : part <+: f.bytes)
    (hHeader : 4 ≤ part.length) :
    mp3FrameSize part = some f.bytes.length := by
  rcases hPart with ⟨rest, hRest⟩
  rw [← mp3FrameSize_append rest hHeader, hRest]
  exact f.framed

theorem size_append
    (f : Mp3Frame)
    (rest : Bytes) :
    mp3FrameSize (f.bytes ++ rest) = some f.bytes.length := by
  rw [mp3FrameSize_append rest f.length_bytes]
  exact f.framed

end Mp3Frame

/-
  A frame of MPEG-2, 8 kbps at 22050 Hz, with sync words in
  its contents.
-/
def syncedFrame : Mp3Frame where
  bytes :=
    [0xFF, 0xF3, 0x10, 0x04] ++
      (List.replicate 5 [0xFF, 0xFB, 0x90, 0x04]).flatten ++
      [0xFF, 0xFF]
  framed := by decide

end RustyIce

------------------------------------------------------------
-- The Scan Over Frames
------------------------------------------------------------

namespace RustyIce

namespace Transcode

open Library.Frames

/- Inside a frame that is not whole the scan finds nothing. -/
theorem completeEnd_part
    (front : Bytes)
    {part : Bytes}
    (hPart : Partial Mp3Frame.bytes part) :
    completeEnd mp3Frames (front ++ part)
        front.length front.length =
      front.length := by
  rcases hPart with ⟨f, hPrefix, hLess⟩
  by_cases hHeader : 4 ≤ part.length
  · have hSize := f.size_of_part hPrefix hHeader
    have hRoom :
        front.length + mp3Frames.header ≤
          (front ++ part).length := by
      rw [List.length_append]
      exact Nat.add_le_add_left hHeader _
    rw [completeEnd_size hRoom
        (by
          rw [List.drop_left]
          exact (startsWithSync_of_mp3FrameSize hSize).2)
        (by
          rw [List.drop_left]
          exact hSize),
      if_neg (by rw [List.length_append]; omega)]
  · apply completeEnd_short
    rw [List.length_append]
    show _ < _ + 4
    omega

/- The scan ends at the end of the last whole frame. -/
theorem completeEnd_frames
    (frames : List Mp3Frame)
    {part : Bytes}
    (hPart : Partial Mp3Frame.bytes part) :
    completeEnd mp3Frames
        (stream Mp3Frame.bytes frames ++ part) 0 0 =
      (stream Mp3Frame.bytes frames).length := by
  have hFrames :=
    completeEnd_units mp3Frames Mp3Frame.bytes
      (fun f rest =>
        have hSize := f.size_append rest
        ⟨f.length_bytes,
          (startsWithSync_of_mp3FrameSize hSize).2, hSize⟩)
      [] frames part
  simp only [List.nil_append, List.length_nil] at hFrames
  rw [hFrames]
  exact completeEnd_part _ hPart

end Transcode

end RustyIce

------------------------------------------------------------
-- A Decoder Fed With Frames
------------------------------------------------------------

namespace RustyIce

namespace Transcode

namespace StreamDecoder

open Library.Frames

variable {Sample : Type}
variable {lib : Symphonia Sample}

/- A decoder of any other source that knows its stream. -/
def TakesFrames (d : StreamDecoder lib) : Prop :=
  d.sourceCodec ≠ .VORBIS ∧ d.inner.isSome = true

/-
  Of what was received, the whole frames are in the pipe and
  the rest is staged.
-/
structure WholeFramesMoved
    (d : StreamDecoder lib)
    (frames : List Mp3Frame)
    (received : Bytes)
    (e : StreamDecoder lib)
    (moved : List Mp3Frame) : Prop where
  whole : moved <+: frames
  written :
    e.buf.written =
      d.buf.written ++ stream Mp3Frame.bytes moved
  staged :
    stream Mp3Frame.bytes moved ++ e.frameStaging = received
  longest :
    ∀ others,
      others <+: frames →
        stream Mp3Frame.bytes others <+: received →
          others <+: moved

/-
  After every push the pipe holds the longest part of what
  was received that is a number of whole frames, and the end
  of the source moves what is left.
-/
structure OnlyWholeFrames
    (d : StreamDecoder lib)
    (frames : List Mp3Frame)
    (pieces : List Bytes) : Prop where
  moved :
    ∀ before, before <+: pieces →
      ∃ moved,
        WholeFramesMoved d frames
          (d.frameStaging ++ before.flatten)
          (d.pushes before) moved
  flushed :
    (d.pushes pieces).flushEof.2.buf.written =
        d.buf.written ++
          (d.frameStaging ++ pieces.flatten) ∧
      (d.pushes pieces).flushEof.2.frameStaging = []

/-
  The staged bytes are the start of the first frame, and not
  all of it.
-/
def AtBoundary
    (d : StreamDecoder lib)
    (frames : List Mp3Frame) : Prop :=
  ∀ f rest, frames = f :: rest →
    d.frameStaging.length < f.bytes.length

/- The step: one push, from one cut to the next. -/
theorem wholeFramesMoved_push
    {d e : StreamDecoder lib}
    (hTakes : e.TakesFrames)
    {frames moved : List Mp3Frame}
    {received data : Bytes}
    (hMoved : WholeFramesMoved d frames received e moved)
    (hReceived :
      received ++ data <+: stream Mp3Frame.bytes frames) :
    (e.push data).2.TakesFrames ∧
      ∃ next,
        WholeFramesMoved d frames (received ++ data)
          (e.push data).2 next := by
  by_cases hNil : data = []
  · subst hNil
    rw [List.append_nil]
    exact ⟨hTakes, moved, hMoved⟩
  · let count := (received ++ data).length
    let next := complete Mp3Frame.bytes count frames
    rcases take_stream Mp3Frame.bytes count frames
        ⟨syncedFrame, by decide⟩ with
      ⟨part, hTake, hPart⟩
    have hAll :
        received ++ data =
          stream Mp3Frame.bytes next ++ part := by
      rw [← hTake]
      exact List.prefix_iff_eq_take.mp hReceived
    have hEarlier :
        moved <+: next := by
      apply prefix_complete Mp3Frame.bytes hMoved.whole
      show _ ≤ (received ++ data).length
      rw [← hMoved.staged]
      simp only [List.length_append]
      omega
    rcases hEarlier with ⟨extra, hExtra⟩
    have hStaged :
        e.frameStaging ++ data =
          stream Mp3Frame.bytes extra ++ part := by
      rw [← hMoved.staged, ← hExtra, stream_append,
        List.append_assoc, List.append_assoc,
        List.append_cancel_left_eq] at hAll
      exact hAll
    have hKind : unitKindFor e.sourceCodec = mp3Frames :=
      if_neg hTakes.1
    have hPush := push_moves hTakes.2 hNil
    simp only [hKind, hStaged, completeEnd_frames extra hPart,
      List.take_left, List.drop_left] at hPush
    rcases hPush with ⟨hWritten, hLeft, hCodec, hInner⟩
    refine ⟨⟨hCodec ▸ hTakes.1, hInner⟩, next, ?_⟩
    constructor
    · exact complete_prefix Mp3Frame.bytes count frames
    · rw [hWritten, hMoved.written, ← hExtra, stream_append,
        List.append_assoc]
    · rw [hLeft, ← hAll]
    · intro others hOthers hThere
      exact
        prefix_complete Mp3Frame.bytes hOthers
          hThere.length_le

theorem wholeFramesMoved_start
    {d : StreamDecoder lib}
    {frames : List Mp3Frame}
    (hBoundary : d.AtBoundary frames) :
    WholeFramesMoved d frames d.frameStaging d [] := by
  constructor
  · exact List.nil_prefix
  · simp
  · simp
  · intro others hOthers hThere
    cases others with
    | nil => exact List.nil_prefix
    | cons f others =>
        rcases hOthers with ⟨rest, hFrames⟩
        have hLess := hBoundary f (others ++ rest) hFrames.symm
        have hLength := hThere.length_le
        rw [stream_cons, List.length_append] at hLength
        omega

/- The run: every cut of the frames into pushes. -/
theorem wholeFramesMoved_pushes
    {d : StreamDecoder lib}
    (hTakes : d.TakesFrames)
    {frames : List Mp3Frame}
    (hBoundary : d.AtBoundary frames)
    {pieces : List Bytes}
    (hPieces :
      d.frameStaging ++ pieces.flatten <+:
        stream Mp3Frame.bytes frames) :
    (d.pushes pieces).TakesFrames ∧
      ∃ moved,
        WholeFramesMoved d frames
          (d.frameStaging ++ pieces.flatten)
          (d.pushes pieces) moved := by
  induction pieces using List.reverseRecOn with
  | nil =>
      rw [List.flatten_nil, List.append_nil]
      exact ⟨hTakes, [], wholeFramesMoved_start hBoundary⟩
  | append_singleton before data ih =>
      have hFlatten :
          d.frameStaging ++ (before ++ [data]).flatten =
            d.frameStaging ++ before.flatten ++ data := by
        simp
      rw [hFlatten] at hPieces ⊢
      rcases
          ih ((List.prefix_append _ _).trans hPieces) with
        ⟨hStill, moved, hMoved⟩
      rw [pushes_snoc]
      exact wholeFramesMoved_push hStill hMoved hPieces

/- Only whole frames reach the pipe before the end. -/
theorem onlyWholeFrames
    (d : StreamDecoder lib)
    (hTakes : d.TakesFrames)
    (frames : List Mp3Frame)
    (hBoundary : d.AtBoundary frames)
    (pieces : List Bytes)
    (hPieces :
      d.frameStaging ++ pieces.flatten <+:
        stream Mp3Frame.bytes frames) :
    OnlyWholeFrames d frames pieces := by
  constructor
  · intro before hBefore
    have hEarlier :
        d.frameStaging ++ before.flatten <+:
          stream Mp3Frame.bytes frames := by
      refine List.IsPrefix.trans ?_ hPieces
      exact
        (List.prefix_append_right_inj _).mpr
          (flatten_initial hBefore)
    exact
      (wholeFramesMoved_pushes hTakes hBoundary hEarlier).2
  · rcases wholeFramesMoved_pushes hTakes hBoundary hPieces
      with ⟨hStill, moved, hMoved⟩
    rcases flushEof_moves hStill.2 with ⟨hWritten, hLeft⟩
    refine ⟨?_, hLeft⟩
    rw [hWritten, hMoved.written, List.append_assoc,
      hMoved.staged]

/- A decoder of MP3 that holds three bytes of a header. -/
def midHeader : StreamDecoder silent where
  buf := .new
  sourceCodec := .MP3
  pending := []
  frameStaging := [0xFF, 0xF3, 0x10]
  inner := some ()

/- The rest of two frames, in three pushes. -/
theorem onlyWholeFrames_synced :
    OnlyWholeFrames midHeader [syncedFrame, syncedFrame]
      [(syncedFrame.bytes.drop 3).take 9,
        syncedFrame.bytes.drop 12 ++
          syncedFrame.bytes.take 5,
        syncedFrame.bytes.drop 5] := by
  apply onlyWholeFrames
  · exact ⟨by decide, rfl⟩
  · intro f rest hFrames
    cases hFrames
    decide
  · decide

end StreamDecoder

end Transcode

end RustyIce
