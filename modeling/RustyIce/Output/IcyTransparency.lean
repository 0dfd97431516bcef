import RustyIce.Output.HttpPassthrough
import Mathlib.Data.Nat.Find

/-
  ICY interleaving seen from the listener: reading
  `metaint` audio bytes, a length byte and 16 times as many
  bytes of metadata, over and over, gives the audio back as
  long as the length byte can tell the length of every
  frame written.

  Main declarations:
    * `icyDecode`
    * `FrameFits` and `wellFramed_iff_frameFits`
    * `Transparent`
    * `transparent_of_frameFits`
    * `icyTransparent_iff`
-/

------------------------------------------------------------
-- The Listener
------------------------------------------------------------

namespace RustyIce

namespace Output

open Library.Interleave

/- A length byte counts blocks of 16 bytes. -/
def icyAnnounced (length : UInt8) : Nat :=
  16 * length.toNat

/- The audio a listener takes from a connection. -/
def icyDecode
    (metaint : Nat)
    (stream : Bytes) : Bytes :=
  unweave metaint icyAnnounced (.payload metaint) stream

/-
  The displayed texts leave the frame within the 255 blocks
  a length byte can announce: its fixed part takes 28 bytes.
-/
def FrameFits (shown : Displayed) : Prop :=
  (utf8Bytes shown.title).length +
    (utf8Bytes shown.url).length ≤ 4052

instance (shown : Displayed) : Decidable (FrameFits shown) := by
  unfold FrameFits
  infer_instance

/-
  One connection. Every run returns; the listener takes
  exactly the audio handed to the connection, and the
  counter is below `icy_metaint` after every packet.
-/
def Transparent
    (output : HttpPassthroughOutput)
    (seen : Nat → Displayed)
    (polled : List Polled) : Prop :=
  (∃ out reason,
    output.run seen true polled .start = some (out, reason) ∧
      icyDecode output.icyMetaint out.written =
        audio polled) ∧
    ∀ front, front <+: polled →
      ∃ out reason,
        output.run seen true front .start =
            some (out, reason) ∧
          out.bytesSinceMeta < output.icyMetaint

end Output

end RustyIce

------------------------------------------------------------
-- Frames
------------------------------------------------------------

namespace RustyIce

namespace Output

open Library.Interleave

theorem length_metaStr (title url : String) :
    (utf8Bytes (metaStr title url)).length =
      (utf8Bytes title).length + (utf8Bytes url).length +
        28 := by
  have hOpen : (utf8Bytes "StreamTitle='").length = 13 := by
    decide
  have hMiddle :
      (utf8Bytes "';StreamUrl='").length = 13 := by
    decide
  have hClose : (utf8Bytes "';").length = 2 := by
    decide
  delta metaStr
  simp only [utf8Bytes_append, List.length_append, hOpen,
    hMiddle, hClose]
  omega

/- A text within 4080 bytes is announced exactly. -/
theorem icyAnnounced_of_fits
    {raw : Bytes}
    (hFits : raw.length ≤ 4080) :
    icyAnnounced (icyLengthByte (icyBlocks raw)) =
      icyBlocks raw * 16 := by
  have hBlocks : icyBlocks raw ≤ 255 := by
    unfold icyBlocks
    omega
  have hByte :
      (UInt8.ofNat (icyBlocks raw)).toNat =
        icyBlocks raw := by
    rw [UInt8.toNat_ofNat']
    exact Nat.mod_eq_of_lt (by omega)
  rw [icyLengthByte, if_pos hBlocks, icyAnnounced, hByte]
  omega

/- A longer text is announced as 4080 bytes. -/
theorem icyAnnounced_of_overlong
    {raw : Bytes}
    (hLong : 4080 < raw.length) :
    icyAnnounced (icyLengthByte (icyBlocks raw)) = 4080 := by
  have hBlocks : ¬ icyBlocks raw ≤ 255 := by
    unfold icyBlocks
    omega
  rw [icyLengthByte, if_neg hBlocks]
  rfl

/- The frame of a text that fits announces its body. -/
theorem wellFramed_of_frameFits
    {shown : Displayed}
    (hFits : FrameFits shown) :
    WellFramed icyAnnounced (buildIcyFrame shown) := by
  unfold buildIcyFrame
  by_cases hEmpty : shown.title = "" ∧ shown.url = ""
  · rw [if_pos hEmpty]
    rfl
  · rw [if_neg hEmpty]
    unfold FrameFits at hFits
    have hRaw :
        (utf8Bytes
          (metaStr shown.title shown.url)).length ≤ 4080 := by
      rw [length_metaStr]
      omega
    simp only [WellFramed, icyAnnounced_of_fits hRaw,
      List.length_append, List.length_replicate]
    unfold icyBlocks
    omega

/-
  The frame of a text that does not fit announces the first
  4080 bytes of its body and has at least one more.
-/
theorem overlong_of_not_frameFits
    {shown : Displayed}
    (hLong : ¬ FrameFits shown) :
    ∃ header excess body rest,
      buildIcyFrame shown =
          header :: (body ++ excess :: rest) ∧
        body.length = icyAnnounced header := by
  unfold FrameFits at hLong
  have hRaw :
      4080 <
        (utf8Bytes
          (metaStr shown.title shown.url)).length := by
    rw [length_metaStr]
    omega
  have hSome : ¬ (shown.title = "" ∧ shown.url = "") := by
    rintro ⟨hTitle, hUrl⟩
    rw [hTitle, hUrl] at hLong
    exact hLong (by decide)
  unfold buildIcyFrame
  rw [if_neg hSome]
  generalize utf8Bytes (metaStr shown.title shown.url) = raw
    at hRaw
  have hDrop : (raw.drop 4080) ≠ [] := by
    intro hNil
    have hLength := congrArg List.length hNil
    rw [List.length_drop, List.length_nil] at hLength
    omega
  rcases List.exists_cons_of_ne_nil hDrop with
    ⟨excess, rest, hExcess⟩
  refine
    ⟨icyLengthByte (icyBlocks raw), excess, raw.take 4080,
      rest ++
        List.replicate (icyBlocks raw * 16 - raw.length) 0,
      ?_, ?_⟩
  · have hSplit : raw = raw.take 4080 ++ excess :: rest := by
      rw [← hExcess, List.take_append_drop]
    have hPadded :
        raw ++
            List.replicate
              (icyBlocks raw * 16 - raw.length) 0 =
          raw.take 4080 ++
            excess ::
              (rest ++
                List.replicate
                  (icyBlocks raw * 16 - raw.length) 0) := by
      conv =>
        lhs
        arg 1
        rw [hSplit]
      rw [List.append_assoc, List.cons_append]
    exact congrArg _ hPadded
  · rw [icyAnnounced_of_overlong hRaw, List.length_take]
    omega

end Output

end RustyIce

------------------------------------------------------------
-- Transparent Connections
------------------------------------------------------------

namespace RustyIce

namespace Output

open Library.Interleave

/- What a run from a fresh connection has written. -/
theorem run_written
    (output : HttpPassthroughOutput)
    (seen : Nat → Displayed)
    (polled : List Polled)
    (hMetaint : 0 < output.icyMetaint) :
    ∃ out reason,
      output.run seen true polled .start =
          some (out, reason) ∧
        out.written =
          weave output.icyMetaint
            (fun k => buildIcyFrame (seen k)) 0 0
            (audio polled) ∧
        out.bytesSinceMeta < output.icyMetaint ∧
        out.bytesSent = (audio polled).length := by
  rcases run_eq output seen polled .start hMetaint with
    ⟨reason, hRun⟩
  refine ⟨_, reason, hRun, ?_, ?_, ?_⟩
  · rfl
  · exact sinceAfter_lt _ _ hMetaint
  · exact Nat.zero_add _

/- The counter is within bounds whatever is displayed. -/
theorem bytesSinceMeta_lt
    (output : HttpPassthroughOutput)
    (seen : Nat → Displayed)
    (polled : List Polled)
    (hMetaint : 0 < output.icyMetaint) :
    ∃ out reason,
      output.run seen true polled .start =
          some (out, reason) ∧
        out.bytesSinceMeta < output.icyMetaint := by
  rcases run_written output seen polled hMetaint with
    ⟨out, reason, hRun, _, hSince, _⟩
  exact ⟨out, reason, hRun, hSince⟩

/- Transparency is a statement about the woven stream. -/
theorem transparent_iff
    (output : HttpPassthroughOutput)
    (seen : Nat → Displayed)
    (polled : List Polled)
    (hMetaint : 0 < output.icyMetaint) :
    Transparent output seen polled ↔
      icyDecode output.icyMetaint
          (weave output.icyMetaint
            (fun k => buildIcyFrame (seen k)) 0 0
            (audio polled)) =
        audio polled := by
  rcases run_written output seen polled hMetaint with
    ⟨out, reason, hRun, hWritten, _, _⟩
  constructor
  · rintro ⟨⟨out', reason', hRun', hDecode⟩, _⟩
    rw [hRun] at hRun'
    cases hRun'
    rw [← hWritten]
    exact hDecode
  · intro hDecode
    refine ⟨⟨out, reason, hRun, ?_⟩, ?_⟩
    · rw [hWritten]
      exact hDecode
    · intro front _
      exact bytesSinceMeta_lt output seen front hMetaint

/- Frames that fit never show in the audio. -/
theorem transparent_of_frameFits
    (output : HttpPassthroughOutput)
    (seen : Nat → Displayed)
    (polled : List Polled)
    (hMetaint : 0 < output.icyMetaint)
    (hFits :
      ∀ k, k < (audio polled).length / output.icyMetaint →
        FrameFits (seen k)) :
    Transparent output seen polled := by
  rw [transparent_iff output seen polled hMetaint]
  have hRead :=
    unweave_weave output.icyMetaint 0 icyAnnounced
      (fun k => buildIcyFrame (seen k)) 0 (audio polled)
      hMetaint
      (by
        intro n _ hn
        apply wellFramed_of_frameFits
        apply hFits
        simpa [framesAfter] using hn)
  exact hRead.2

/-
  Behind the first frame that does not fit the listener
  takes a byte of metadata for audio.
-/
theorem decode_of_overlong
    {metaint k : Nat}
    {seen : Nat → Displayed}
    (hMetaint : 0 < metaint)
    (hBefore : ∀ n, n < k → FrameFits (seen n))
    (hLong : ¬ FrameFits (seen k)) :
    ∃ excess,
      ∀ symbols tail : Bytes,
        symbols.length = (k + 1) * metaint →
          ∃ more,
            icyDecode metaint
                (weave metaint
                  (fun k => buildIcyFrame (seen k)) 0 0
                  (symbols ++ tail)) =
              symbols ++ excess :: more := by
  rcases overlong_of_not_frameFits hLong with
    ⟨header, excess, body, rest, hFrame, hBody⟩
  refine ⟨excess, ?_⟩
  intro symbols tail hLength
  exact
    unweave_overlong icyAnnounced
      (fun k => buildIcyFrame (seen k)) symbols tail
      hMetaint hLength
      (fun n hn => wellFramed_of_frameFits (hBefore n hn))
      hFrame hBody

/- A condition that fails somewhere has a first failure. -/
theorem exists_first_overlong
    {seen : Nat → Displayed}
    {count : Nat}
    (hSome : ∃ k, k < count ∧ ¬ FrameFits (seen k)) :
    ∃ k, k < count ∧ ¬ FrameFits (seen k) ∧
      ∀ n, n < k → FrameFits (seen n) := by
  have hFirst := Nat.find_spec hSome
  refine ⟨Nat.find hSome, hFirst.1, hFirst.2, ?_⟩
  intro n hn
  by_contra hBad
  exact Nat.find_min hSome hn ⟨by omega, hBad⟩

/- One packet of audio as a subscription delivers it. -/
def audioPacket (data : Bytes) : Polled :=
  .packet
    { payload := .encoded { codec := .MP3, data := data }
      sequence := 0 }

@[simp] theorem audio_audioPacket (data : Bytes) :
    audio [audioPacket data] = data := by
  simp [audio, audioPacket, packetAudio]

/-
  Audio that ends with the first frame that does not fit is
  not given back.
-/
theorem not_transparent_cut
    {output : HttpPassthroughOutput}
    {seen : Nat → Displayed}
    {k : Nat}
    {polled : List Polled}
    (hMetaint : 0 < output.icyMetaint)
    (hBefore : ∀ n, n < k → FrameFits (seen n))
    (hLong : ¬ FrameFits (seen k))
    (hLength :
      (audio polled).length = (k + 1) * output.icyMetaint) :
    ¬ Transparent output seen polled := by
  intro hTransparent
  rw [transparent_iff output seen polled hMetaint]
    at hTransparent
  rcases decode_of_overlong hMetaint hBefore hLong with
    ⟨excess, hDecode⟩
  rcases hDecode (audio polled) [] hLength with ⟨more, hMore⟩
  rw [List.append_nil, hTransparent] at hMore
  have hLengths := congrArg List.length hMore
  rw [List.length_append, List.length_cons] at hLengths
  omega

/-
  Audio of any length past the first frame that does not
  fit: a stream of equal bytes other than the one the
  listener takes from the frame is not given back.
-/
theorem exists_not_transparent
    {output : HttpPassthroughOutput}
    {seen : Nat → Displayed}
    {k count : Nat}
    (hMetaint : 0 < output.icyMetaint)
    (hBefore : ∀ n, n < k → FrameFits (seen n))
    (hLong : ¬ FrameFits (seen k))
    (hReached : (k + 1) * output.icyMetaint ≤ count) :
    ∃ data : Bytes, data.length = count ∧
      ¬ Transparent output seen [audioPacket data] := by
  rcases decode_of_overlong hMetaint hBefore hLong with
    ⟨excess, hDecode⟩
  have hOther : excess + 1 ≠ excess := by
    intro hEq
    have hNat := congrArg UInt8.toNat hEq
    rw [UInt8.toNat_add] at hNat
    have hLess := excess.toNat_lt
    simp only [UInt8.reduceToNat] at hNat
    omega
  refine
    ⟨List.replicate count (excess + 1),
      List.length_replicate, ?_⟩
  intro hTransparent
  rw [transparent_iff _ _ _ hMetaint, audio_audioPacket]
    at hTransparent
  have hSplit :
      List.replicate count (excess + 1) =
        List.replicate ((k + 1) * output.icyMetaint)
            (excess + 1) ++
          List.replicate
            (count - (k + 1) * output.icyMetaint)
            (excess + 1) := by
    rw [List.replicate_append_replicate]
    congr 1
    omega
  rcases hDecode _
      (List.replicate
        (count - (k + 1) * output.icyMetaint) (excess + 1))
      List.length_replicate with ⟨more, hMore⟩
  rw [← hSplit, hTransparent] at hMore
  have hMem :
      excess ∈ List.replicate count (excess + 1) := by
    rw [hMore]
    simp
  exact hOther (List.eq_of_mem_replicate hMem).symm

end Output

end RustyIce

------------------------------------------------------------
-- Exactly When Connections Are Transparent
------------------------------------------------------------

namespace RustyIce

namespace Output

/-
  A connection gives the audio back, at every length it can
  be cut to, exactly if every frame written in it fits; and
  runs of one length give their audio back, whatever it is,
  exactly under the same condition. A single run past an
  overlong frame can come out right by the accident of its
  audio repeating the metadata.
-/
theorem icyTransparent_iff
    (output : HttpPassthroughOutput)
    (hMetaint : 0 < output.icyMetaint)
    (seen : Nat → Displayed)
    (polled : List Polled) :
    ((∀ front, audio front <+: audio polled →
        Transparent output seen front) ↔
      ∀ k, k < (audio polled).length / output.icyMetaint →
        FrameFits (seen k)) ∧
      ((∀ other,
        (audio other).length = (audio polled).length →
          Transparent output seen other) ↔
        ∀ k, k < (audio polled).length / output.icyMetaint →
          FrameFits (seen k)) := by
  refine ⟨⟨?_, ?_⟩, ⟨?_, ?_⟩⟩
  · intro hAll
    by_contra hSome
    push Not at hSome
    rcases exists_first_overlong hSome with
      ⟨k, hReached, hLong, hBefore⟩
    have hCut :
        (k + 1) * output.icyMetaint ≤
          (audio polled).length :=
      (Nat.le_div_iff_mul_le hMetaint).mp hReached
    have hFront :
        Transparent output seen
          [audioPacket
            ((audio polled).take
              ((k + 1) * output.icyMetaint))] := by
      apply hAll
      rw [audio_audioPacket]
      exact List.take_prefix _ _
    refine
      not_transparent_cut hMetaint hBefore hLong ?_ hFront
    rw [audio_audioPacket, List.length_take]
    omega
  · intro hFits front hFront
    apply transparent_of_frameFits output seen front hMetaint
    intro k hk
    apply hFits k
    exact
      Nat.lt_of_lt_of_le hk
        (Nat.div_le_div_right hFront.length_le)
  · intro hAll
    by_contra hSome
    push Not at hSome
    rcases exists_first_overlong hSome with
      ⟨k, hReached, hLong, hBefore⟩
    rcases exists_not_transparent hMetaint hBefore hLong
        ((Nat.le_div_iff_mul_le hMetaint).mp hReached) with
      ⟨data, hLength, hNot⟩
    apply hNot
    apply hAll
    rw [audio_audioPacket]
    exact hLength
  · intro hFits other hLength
    apply transparent_of_frameFits output seen other hMetaint
    rw [hLength]
    exact hFits

/- A titled mount without any other description. -/
def titled (title : String) : Displayed where
  info :=
    { path := "/rotation"
      codec := .MP3
      sourcePassword := ""
      maxListeners := none
      metadata := .default }
  currentTitle := some title
  sourceOverlay := none

/- Four bytes between metadata points, and one metadata point. -/
theorem icyTransparent_iff_titled :
    0 < (HttpPassthroughOutput.mk 4).icyMetaint ∧
      ((∀ front,
        audio front <+: audio [audioPacket [1, 2, 3, 4, 5]] →
          Transparent ⟨4⟩ (fun _ => titled "a") front) ↔
        ∀ k,
          k < (audio
              [audioPacket [1, 2, 3, 4, 5]]).length / 4 →
            FrameFits (titled "a")) :=
  ⟨by decide,
    (icyTransparent_iff ⟨4⟩ (by decide)
      (fun _ => titled "a")
      [audioPacket [1, 2, 3, 4, 5]]).1⟩

/- A title of 4053 letters. -/
def longTitle : String :=
  String.ofList (List.replicate 4053 'a')

theorem not_frameFits_longTitle :
    ¬ FrameFits (titled longTitle) := by
  have hTitle : (titled longTitle).title = longTitle := rfl
  have hLength : (utf8Bytes longTitle).length = 4053 :=
    length_utf8Bytes_replicate 4053 (by decide)
  unfold FrameFits
  rw [hTitle, hLength]
  omega

/-
  One packet of 8192 zero bytes at the standard spacing,
  under a title of 4053 letters.
-/
theorem not_transparent_longTitle :
    ¬ Transparent .default (fun _ => titled longTitle)
      [audioPacket (List.replicate 8192 0)] := by
  have hMetaint :
      HttpPassthroughOutput.default.icyMetaint = 8192 := rfl
  have hLength :
      (audio [audioPacket (List.replicate 8192 0)]).length =
        (0 + 1) *
          HttpPassthroughOutput.default.icyMetaint := by
    rw [audio_audioPacket, List.length_replicate, hMetaint]
  exact
    not_transparent_cut (by decide)
      (fun n hn => absurd hn (Nat.not_lt_zero n))
      not_frameFits_longTitle hLength

end Output

end RustyIce
