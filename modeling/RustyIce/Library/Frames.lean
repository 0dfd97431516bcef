import Mathlib.Data.List.Basic
import Mathlib.Tactic.Common

/-
  Streams made of frames of known sizes, cut after any
  number of symbols: the frames that are complete by then,
  and what is there of the next one.

  Main declarations:
    * `complete`, `complete_mono`, `prefix_complete`
    * `Partial` and `take_stream`
    * `eq_of_length_stream`
    * `PrefixFree` and `stream_injective`
-/

------------------------------------------------------------
-- Complete Frames
------------------------------------------------------------

namespace Library

namespace Frames

variable {Frame Symbol : Type}
variable (symbols : Frame → List Symbol)

/- The stream of a list of frames. -/
def stream (frames : List Frame) : List Symbol :=
  frames.flatMap symbols

@[simp] theorem stream_nil :
    stream symbols [] = [] := rfl

@[simp] theorem stream_cons
    (frame : Frame)
    (frames : List Frame) :
    stream symbols (frame :: frames) =
      symbols frame ++ stream symbols frames := rfl

@[simp] theorem stream_append
    (first second : List Frame) :
    stream symbols (first ++ second) =
      stream symbols first ++ stream symbols second := by
  simp [stream]

/- The frames complete within the first `count` symbols. -/
def complete : Nat → List Frame → List Frame
| _, [] => []
| count, frame :: frames =>
    if (symbols frame).length ≤ count then
      frame ::
        complete (count - (symbols frame).length) frames
    else
      []

/- What a cut leaves of a frame that is not complete. -/
def Partial (part : List Symbol) : Prop :=
  ∃ frame,
    part <+: symbols frame ∧
      part.length < (symbols frame).length

theorem complete_prefix
    (count : Nat)
    (frames : List Frame) :
    complete symbols count frames <+: frames := by
  induction frames generalizing count with
  | nil => exact List.prefix_rfl
  | cons frame frames ih =>
      rw [complete]
      split
      · exact List.cons_prefix_cons.mpr ⟨rfl, ih _⟩
      · exact List.nil_prefix

/- The stream and its complete frames seen through a map. -/
theorem stream_map
    {Source : Type}
    (f : Source → Frame)
    (sources : List Source) :
    stream symbols (sources.map f) =
      stream (fun source => symbols (f source)) sources := by
  simp [stream, List.flatMap_map]

/- Reading on only completes more frames. -/
theorem complete_mono
    {fewer more : Nat}
    (hMore : fewer ≤ more)
    (frames : List Frame) :
    complete symbols fewer frames <+:
      complete symbols more frames := by
  induction frames generalizing fewer more with
  | nil => exact List.prefix_rfl
  | cons frame frames ih =>
      by_cases hFits : (symbols frame).length ≤ fewer
      · have hFitsMore : (symbols frame).length ≤ more := by
          omega
        rw [complete, complete, if_pos hFits,
          if_pos hFitsMore]
        exact List.cons_prefix_cons.mpr
          ⟨rfl, ih (by omega)⟩
      · rw [complete, if_neg hFits]
        exact List.nil_prefix

/- No more frames than these are there that soon. -/
theorem prefix_complete
    {count : Nat}
    {first frames : List Frame}
    (hFirst : first <+: frames)
    (hCount : (stream symbols first).length ≤ count) :
    first <+: complete symbols count frames := by
  induction first generalizing count frames with
  | nil => exact List.nil_prefix
  | cons frame first ih =>
      rcases hFirst with ⟨rest, rfl⟩
      rw [stream_cons, List.length_append] at hCount
      rw [List.cons_append, complete, if_pos (by omega)]
      exact List.cons_prefix_cons.mpr
        ⟨rfl, ih (List.prefix_append _ _) (by omega)⟩

/- Cut between two frames, a stream is whole up to there. -/
theorem complete_length_stream
    (hSome : ∀ frame, 0 < (symbols frame).length)
    (first second : List Frame) :
    complete symbols (stream symbols first).length
        (first ++ second) =
      first := by
  induction first with
  | nil =>
      cases second with
      | nil => rfl
      | cons frame frames =>
          have hPos := hSome frame
          rw [List.nil_append, complete, stream_nil,
            List.length_nil, if_neg (by omega)]
  | cons frame frames ih =>
      rw [List.cons_append, complete, stream_cons,
        List.length_append, if_pos (by omega),
        Nat.add_sub_cancel_left, ih]

/-
  A stream cut after `count` symbols: its complete frames,
  then part of a frame. Some frame is not empty, so that the
  end of the stream is a cut inside a frame too.
-/
theorem take_stream
    (count : Nat)
    (frames : List Frame)
    (hSome : ∃ frame, 0 < (symbols frame).length) :
    ∃ part,
      (stream symbols frames).take count =
          stream symbols (complete symbols count frames) ++
            part ∧
        Partial symbols part := by
  induction frames generalizing count with
  | nil =>
      rcases hSome with ⟨frame, hFrame⟩
      exact
        ⟨[], by simp [complete],
          frame, List.nil_prefix, hFrame⟩
  | cons frame frames ih =>
      by_cases hFits : (symbols frame).length ≤ count
      · rcases ih (count - (symbols frame).length) with
          ⟨part, hTake, hPart⟩
        refine ⟨part, ?_, hPart⟩
        rw [complete, if_pos hFits, stream_cons, stream_cons,
          List.take_append, List.take_of_length_le hFits,
          hTake, List.append_assoc]
      · refine ⟨(symbols frame).take count, ?_, frame, ?_, ?_⟩
        · have hZero : count - (symbols frame).length = 0 := by
            omega
          rw [complete, if_neg hFits, stream_cons,
            List.take_append, hZero, List.take_zero]
          simp
        · exact List.take_prefix _ _
        · rw [List.length_take]
          omega

/- Initial parts of one stream are told apart by length. -/
theorem eq_of_length_stream
    {first second frames : List Frame}
    (hSome : ∀ frame, 0 < (symbols frame).length)
    (hFirst : first <+: frames)
    (hSecond : second <+: frames)
    (hLength :
      (stream symbols first).length =
        (stream symbols second).length) :
    first = second := by
  have hEmpty :
      ∀ rest : List Frame,
        (stream symbols rest).length = 0 → rest = [] := by
    intro rest hRest
    cases rest with
    | nil => rfl
    | cons frame rest =>
        have hPos := hSome frame
        rw [stream_cons, List.length_append] at hRest
        omega
  rcases List.prefix_or_prefix_of_prefix hFirst hSecond with
    ⟨rest, rfl⟩ | ⟨rest, rfl⟩
  · rw [stream_append, List.length_append] at hLength
    rw [hEmpty rest (by omega), List.append_nil]
  · rw [stream_append, List.length_append] at hLength
    rw [hEmpty rest (by omega), List.append_nil]

/- No frame is the start of another one. -/
def PrefixFree : Prop :=
  ∀ (one two : Frame) (rest more : List Symbol),
    symbols one ++ rest = symbols two ++ more → one = two

/- Then a stream tells its frames. -/
theorem stream_injective
    (hSome : ∀ frame, 0 < (symbols frame).length)
    (hFree : PrefixFree symbols)
    {first second : List Frame}
    (hStream :
      stream symbols first = stream symbols second) :
    first = second := by
  induction first generalizing second with
  | nil =>
      cases second with
      | nil => rfl
      | cons frame frames =>
          have hPos := hSome frame
          have hLength := congrArg List.length hStream
          rw [stream_nil, stream_cons, List.length_append,
            List.length_nil] at hLength
          omega
  | cons frame frames ih =>
      cases second with
      | nil =>
          have hPos := hSome frame
          have hLength := congrArg List.length hStream
          rw [stream_nil, stream_cons, List.length_append,
            List.length_nil] at hLength
          omega
      | cons other others =>
          rw [stream_cons, stream_cons] at hStream
          have hHead : frame = other :=
            hFree _ _ _ _ hStream
          subst hHead
          rw [ih (List.append_cancel_left hStream)]

end Frames

end Library
