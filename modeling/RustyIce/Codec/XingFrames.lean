import RustyIce.Codec.Mp3

/-
  Where a file's metadata frame ends, told twice: by the
  search, which asks the probe for the bitrate, and by the
  size reader, which has the tables of all versions.

  Main declarations:
    * `sideInfoOffset`, `TaggedFrameAt`
    * `mp3FrameSize_mpeg1`
    * `FrameLengthsAgree`
    * `frameLengthsAgree_iff`
-/

------------------------------------------------------------
-- Tagged Frames
------------------------------------------------------------

namespace RustyIce

def isMpeg1 (header : Bytes) : Bool :=
  versionBits (header.getD 1 0) = 0b11

def isMono (header : Bytes) : Bool :=
  header.getD 3 0 >>> 6 = 0b11

/-
  Where the side information of a frame ends: it takes 32
  bytes in MPEG-1 stereo, 9 in mono of the later versions,
  and 17 otherwise.
-/
def sideInfoOffset (header : Bytes) : Nat :=
  match isMpeg1 header, isMono header with
  | true, false => 4 + 32
  | true, true => 4 + 17
  | false, false => 4 + 17
  | false, true => 4 + 9

/-
  The first sync word is at `sync` and opens a frame of `n`
  bytes, all there, with a tag behind its side information.
-/
structure TaggedFrameAt
    (data : Bytes)
    (sync n : Nat) : Prop where
  first :
    ∀ j < sync, startsWithSync (data.drop j) = false
  size : mp3FrameSize (data.drop sync) = some n
  whole : sync + n ≤ data.length
  tagged :
    ((data.drop sync).drop
        (sideInfoOffset (data.drop sync))).take 4 ∈
      [XING, INFO, VBRI]

/- There is one first sync word. -/
theorem first_sync_unique
    {data : Bytes}
    {one two : Nat}
    (hOne :
      (∀ j < one, startsWithSync (data.drop j) = false) ∧
        startsWithSync (data.drop one) = true)
    (hTwo :
      (∀ j < two, startsWithSync (data.drop j) = false) ∧
        startsWithSync (data.drop two) = true) :
    one = two := by
  rcases Nat.lt_trichotomy one two with
    hLess | hSame | hMore
  · rw [hTwo.1 one hLess] at hOne
    cases hOne.2
  · exact hSame
  · rw [hOne.1 two hMore] at hTwo
    cases hTwo.2

end RustyIce

------------------------------------------------------------
-- The Two Lengths
------------------------------------------------------------

namespace RustyIce

/- In MPEG-1 the size reader computes the same length. -/
theorem mp3FrameSize_mpeg1
    {header : Bytes}
    (hMpeg1 : isMpeg1 header = true) :
    mp3FrameSize header =
      (readMpeg1Header header).map
        Mpeg1Header.frameLength := by
  match header with
  | [] | [_] | [_, _] | [_, _, _] => rfl
  | b0 :: b1 :: b2 :: b3 :: rest =>
      have hVersion : versionBits b1 = 0b11 := by
        simpa [isMpeg1] using hMpeg1
      by_cases hOpens :
          isSync b0 b1 = true ∧ layerBits b1 = 0b01
      · rcases hOpens with ⟨hSync, hLayer⟩
        have hKnown :
            ¬ (versionBits b1 = 0b01 ∨ layerBits b1 = 0b00 ∨
              layerBits b1 ≠ 0b01) := by
          rw [hVersion, hLayer]
          decide
        rw [readMpeg1Header_eq,
          if_pos ⟨hSync, hVersion, hLayer⟩, mp3FrameSize,
          if_neg (not_not.mpr hSync), if_neg hKnown, hVersion,
          sampleRate_mpeg1, toNat_rateBits, toNat_kbpsBits,
          toNat_paddingBit]
        cases [44100, 48000, 32000][b2.toNat / 4 % 4]? with
        | none => rfl
        | some rate =>
            simp only [decide_true, if_true, Option.bind_some,
              Option.map_map, Mpeg1Header.frameLength,
              Function.comp_def, Nat.mul_assoc]
      · have hNot :
            ¬ (isSync b0 b1 = true ∧ versionBits b1 = 0b11 ∧
              layerBits b1 = 0b01) :=
          fun h => hOpens ⟨h.1, h.2.2⟩
        rw [readMpeg1Header_eq, if_neg hNot, mp3FrameSize]
        by_cases hSync : isSync b0 b1 = true
        · have hLayer : layerBits b1 ≠ 0b01 :=
            fun h => hOpens ⟨hSync, h⟩
          rw [if_neg (not_not.mpr hSync),
            if_pos (.inr (.inr hLayer))]
          rfl
        · rw [if_pos hSync]
          rfl

/- The probe's table is that of MPEG-1, so others have none. -/
theorem readMpeg1Header_of_not
    {header : Bytes}
    (hOther : isMpeg1 header = false) :
    readMpeg1Header header = none := by
  match header with
  | [] | [_] | [_, _] | [_, _, _] => rfl
  | b0 :: b1 :: b2 :: b3 :: rest =>
      have hVersion : versionBits b1 ≠ 0b11 := by
        simpa [isMpeg1] using hOther
      rw [readMpeg1Header_eq, if_neg fun h => hVersion h.2.1]

/- In MPEG-1 both look for the tag in the same place. -/
theorem sideInfoEnd_eq
    {header : Bytes}
    {h : Mpeg1Header}
    (hRead : readMpeg1Header header = some h) :
    isMpeg1 header = true ∧
      h.sideInfoEnd = sideInfoOffset header := by
  have hMpeg1 : isMpeg1 header = true := by
    by_contra hOther
    rw [readMpeg1Header_of_not (by simpa using hOther)]
      at hRead
    cases hRead
  refine ⟨hMpeg1, ?_⟩
  match header with
  | [] | [_] | [_, _] | [_, _, _] => cases hRead
  | b0 :: b1 :: b2 :: b3 :: rest =>
      rw [readMpeg1Header] at hRead
      split_ifs at hRead with hOpens
      rcases Option.bind_eq_some_iff.mp hRead with
        ⟨rate, -, hRest⟩
      rcases Option.map_eq_some_iff.mp hRest with
        ⟨kbps, -, rfl⟩
      have hMono :
          isMono (b0 :: b1 :: b2 :: b3 :: rest) =
            decide (b3.toNat / 64 = 3) := by
        simp [isMono, mono_iff]
      rw [sideInfoOffset, hMpeg1, hMono,
        Mpeg1Header.sideInfoEnd]
      cases decide (b3.toNat / 64 = 3) with
      | true => rfl
      | false => rfl

/-
  The frames that the search knows are the tagged frames of
  MPEG-1.
-/
theorem leadingTagFrame_iff
    (data : Bytes)
    (n : Nat) :
    leadingTagFrame data = some n ↔
      isMpeg1 data = true ∧ mp3FrameSize data = some n ∧
        n ≤ data.length ∧
          (data.drop (sideInfoOffset data)).take 4 ∈
            [XING, INFO, VBRI] := by
  rw [leadingTagFrame_eq_some_iff]
  simp only [List.mem_cons, List.not_mem_nil, or_false]
  constructor
  · rintro ⟨h, hRead, hLength, hWhole, hTag⟩
    rcases sideInfoEnd_eq hRead with ⟨hMpeg1, hOffset⟩
    rw [hOffset] at hTag
    refine ⟨hMpeg1, ?_, hWhole, hTag⟩
    rw [mp3FrameSize_mpeg1 hMpeg1, hRead, Option.map_some,
      hLength]
  · rintro ⟨hMpeg1, hSize, hWhole, hTag⟩
    rw [mp3FrameSize_mpeg1 hMpeg1] at hSize
    rcases Option.map_eq_some_iff.mp hSize with
      ⟨h, hRead, hLength⟩
    rw [← (sideInfoEnd_eq hRead).2] at hTag
    exact ⟨h, hRead, hLength, hWhole, hTag⟩

/- A tagged frame at the first sync word is found there. -/
theorem detectXingFrameEnd_iff
    (data : Bytes)
    (stop : Nat) :
    detectXingFrameEnd data = some stop ↔
      ∃ sync n,
        TaggedFrameAt data sync n ∧
          isMpeg1 (data.drop sync) = true ∧
            stop = sync + n := by
  rw [detectXingFrameEnd, detectXingFrom_eq_some_iff]
  constructor
  · rintro ⟨sync, n, hFirst, hFound, rfl⟩
    have hLength := length_of_leadingTagFrame hFound
    rw [List.length_drop] at hLength
    rcases (leadingTagFrame_iff _ n).mp hFound with
      ⟨hMpeg1, hSize, -, hTag⟩
    exact
      ⟨sync, n, ⟨hFirst, hSize, by omega, hTag⟩, hMpeg1,
        by omega⟩
  · rintro ⟨sync, n, hFrame, hMpeg1, rfl⟩
    have hWhole := hFrame.whole
    refine ⟨sync, n, hFrame.first, ?_, by omega⟩
    apply (leadingTagFrame_iff _ n).mpr
    exact
      ⟨hMpeg1, hFrame.size,
        by rw [List.length_drop]; omega, hFrame.tagged⟩

/-
  The search ends where the size reader has the frame end,
  and finds nothing else.
-/
structure FrameLengthsAgree (data : Bytes) : Prop where
  found :
    ∀ sync n, TaggedFrameAt data sync n →
      detectXingFrameEnd data = some (sync + n)
  only :
    ∀ stop, detectXingFrameEnd data = some stop →
      stop ≤ data.length ∧
        ∃ sync n, TaggedFrameAt data sync n ∧
          stop = sync + n

/-
  They agree unless the tagged frame is of MPEG-2 or 2.5,
  whose bitrate the probe does not tell.
-/
theorem frameLengthsAgree_iff (data : Bytes) :
    FrameLengthsAgree data ↔
      ∀ sync n, TaggedFrameAt data sync n →
        isMpeg1 (data.drop sync) = true := by
  constructor
  · intro hAgree sync n hFrame
    rcases
        (detectXingFrameEnd_iff data _).mp
          (hAgree.found sync n hFrame) with
      ⟨other, m, hOther, hMpeg1, -⟩
    have hSame : other = sync :=
      first_sync_unique
        ⟨hOther.first,
          (startsWithSync_of_mp3FrameSize hOther.size).2⟩
        ⟨hFrame.first,
          (startsWithSync_of_mp3FrameSize hFrame.size).2⟩
    rw [← hSame]
    exact hMpeg1
  · intro hMpeg1
    constructor
    · intro sync n hFrame
      exact
        (detectXingFrameEnd_iff data _).mpr
          ⟨sync, n, hFrame, hMpeg1 sync n hFrame, rfl⟩
    · intro stop hStop
      refine ⟨detectXingFrameEnd_le hStop, ?_⟩
      rcases (detectXingFrameEnd_iff data stop).mp hStop with
        ⟨sync, n, hFrame, -, hEnd⟩
      exact ⟨sync, n, hFrame, hEnd⟩

/- A frame of MPEG-2 at 8 kbps and 22050 Hz, with a tag. -/
def taggedMpeg2 : Bytes :=
  [0xFF, 0xF3, 0x10, 0x04] ++ List.replicate 17 0 ++ XING ++
    [0]

/- The search does not find it. -/
theorem taggedMpeg2_missed :
    TaggedFrameAt taggedMpeg2 0 26 ∧
      detectXingFrameEnd taggedMpeg2 = none ∧
        ¬ FrameLengthsAgree taggedMpeg2 := by
  have hFrame : TaggedFrameAt taggedMpeg2 0 26 :=
    ⟨fun j hj => absurd hj (by omega), by decide, by decide,
      by decide⟩
  have hMissed : detectXingFrameEnd taggedMpeg2 = none := by
    decide
  refine ⟨hFrame, hMissed, fun hAgree => ?_⟩
  have hFound := hAgree.found 0 26 hFrame
  rw [hMissed] at hFound
  cases hFound

end RustyIce
