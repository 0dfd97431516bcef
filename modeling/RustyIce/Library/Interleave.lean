import Mathlib.Data.List.Basic
import Mathlib.Tactic.Common

/-
  In-band metadata: a payload stream with a frame inserted
  after every `period` payload symbols, and the reader that
  takes the frames out again.

  A frame is a header symbol that announces the length of
  the body, then the body. The reader knows the period and
  how a header announces a length, and nothing else.

  Main declarations:
    * `weave`
    * `Mode` and `unweave`
    * `WellFramed`
    * `unweave_weave`
    * `unweave_overlong`
-/

------------------------------------------------------------
-- Weaving
------------------------------------------------------------

namespace Library

namespace Interleave

variable {Symbol : Type}

/-
  Insert frame number `k`, `k + 1`, … after every `period`
  symbols, `since` symbols having passed since the last one.
-/
def weave
    (period : Nat)
    (frames : Nat → List Symbol) :
    Nat → Nat → List Symbol → List Symbol
| _, _, [] => []
| since, k, symbol :: symbols =>
    if since + 1 = period then
      symbol :: (frames k ++
        weave period frames 0 (k + 1) symbols)
    else
      symbol :: weave period frames (since + 1) k symbols

/- How many symbols have passed since the last frame. -/
def sinceAfter
    (period : Nat)
    (since count : Nat) : Nat :=
  (since + count) % period

/- The number of the next frame. -/
def framesAfter
    (period : Nat)
    (since k count : Nat) : Nat :=
  k + (since + count) / period

/- A stretch that stops short of the next frame is kept. -/
theorem weave_short
    {period since : Nat}
    (frames : Nat → List Symbol)
    (k : Nat)
    (symbols : List Symbol)
    (hShort : since + symbols.length < period) :
    weave period frames since k symbols = symbols := by
  induction symbols generalizing since with
  | nil => rfl
  | cons symbol symbols ih =>
      rw [List.length_cons] at hShort
      rw [weave, if_neg (by omega), ih (by omega)]

/- A stretch that ends where the next frame is due. -/
theorem weave_full
    {period since : Nat}
    (frames : Nat → List Symbol)
    (k : Nat)
    (stretch symbols : List Symbol)
    (hSince : since < period)
    (hFull : since + stretch.length = period) :
    weave period frames since k (stretch ++ symbols) =
      stretch ++
        (frames k ++
          weave period frames 0 (k + 1) symbols) := by
  induction stretch generalizing since with
  | nil =>
      rw [List.length_nil] at hFull
      omega
  | cons symbol stretch ih =>
      rw [List.length_cons] at hFull
      rw [List.cons_append, weave]
      by_cases hDue : since + 1 = period
      · have hLast : stretch = [] := by
          apply List.eq_nil_of_length_eq_zero
          omega
        subst hLast
        rw [if_pos hDue]
        rfl
      · rw [if_neg hDue, ih (by omega) (by omega)]
        rfl

/- The counters of two stretches read one after the other. -/
theorem sinceAfter_add
    (period since first second : Nat) :
    sinceAfter period (sinceAfter period since first) second =
      sinceAfter period since (first + second) := by
  simp only [sinceAfter, Nat.mod_add_mod, Nat.add_assoc]

theorem framesAfter_add
    (period since k first second : Nat) :
    framesAfter period (sinceAfter period since first)
        (framesAfter period since k first) second =
      framesAfter period since k (first + second) := by
  rcases Nat.eq_zero_or_pos period with hZero | hPos
  · simp [framesAfter, hZero]
  · have hSplit := Nat.div_add_mod (since + first) period
    have hSum :
        since + (first + second) =
          (since + first) % period + second +
            period * ((since + first) / period) := by
      omega
    simp only [framesAfter, sinceAfter]
    rw [hSum, Nat.add_mul_div_left _ _ hPos]
    omega

theorem sinceAfter_lt
    {period : Nat}
    (since count : Nat)
    (hPeriod : 0 < period) :
    sinceAfter period since count < period :=
  Nat.mod_lt _ hPeriod

end Interleave

end Library

------------------------------------------------------------
-- Reading
------------------------------------------------------------

namespace Library

namespace Interleave

variable {Symbol : Type}

/- Where the reader stands in the stream. -/
inductive Mode where
| payload (left : Nat)
| header
| body (left : Nat)
deriving DecidableEq, Repr

/- Before the last symbol of a stretch comes the next mode. -/
def Mode.next
    (period : Nat)
    (announced : Symbol → Nat)
    (mode : Mode)
    (symbol : Symbol) : Mode :=
  match mode with
  | .payload left =>
      if left ≤ 1 then .header else .payload (left - 1)
  | .header =>
      if announced symbol = 0 then .payload period
      else .body (announced symbol)
  | .body left =>
      if left ≤ 1 then .payload period
      else .body (left - 1)

/- Only payload symbols are delivered. -/
def Mode.deliver
    (mode : Mode)
    (symbol : Symbol) : List Symbol :=
  match mode with
  | .payload _ => [symbol]
  | .header => []
  | .body _ => []

/- The mode after reading a stretch of the stream. -/
def modeAfter
    (period : Nat)
    (announced : Symbol → Nat) :
    Mode → List Symbol → Mode
| mode, [] => mode
| mode, symbol :: symbols =>
    modeAfter period announced
      (mode.next period announced symbol) symbols

/- The payload a reader delivers. -/
def unweave
    (period : Nat)
    (announced : Symbol → Nat) :
    Mode → List Symbol → List Symbol
| _, [] => []
| mode, symbol :: symbols =>
    mode.deliver symbol ++
      unweave period announced
        (mode.next period announced symbol) symbols

theorem modeAfter_append
    (period : Nat)
    (announced : Symbol → Nat)
    (mode : Mode)
    (first second : List Symbol) :
    modeAfter period announced mode (first ++ second) =
      modeAfter period announced
        (modeAfter period announced mode first) second := by
  induction first generalizing mode with
  | nil => rfl
  | cons symbol symbols ih =>
      simp only [List.cons_append, modeAfter, ih]

theorem unweave_append
    (period : Nat)
    (announced : Symbol → Nat)
    (mode : Mode)
    (first second : List Symbol) :
    unweave period announced mode (first ++ second) =
      unweave period announced mode first ++
        unweave period announced
          (modeAfter period announced mode first) second := by
  induction first generalizing mode with
  | nil => rfl
  | cons symbol symbols ih =>
      simp only [List.cons_append, unweave, modeAfter, ih,
        List.append_assoc]

/- Reading a stretch inside a frame body delivers nothing. -/
theorem read_body
    (period : Nat)
    (announced : Symbol → Nat)
    (left : Nat)
    (symbols : List Symbol)
    (hLength : symbols.length < left) :
    modeAfter period announced (.body left) symbols =
        .body (left - symbols.length) ∧
      unweave period announced (.body left) symbols =
        [] := by
  induction symbols generalizing left with
  | nil => exact ⟨rfl, rfl⟩
  | cons symbol symbols ih =>
      have hMore : ¬ left ≤ 1 := by
        simp only [List.length_cons] at hLength
        omega
      have hRest : symbols.length < left - 1 := by
        simp only [List.length_cons] at hLength
        omega
      rcases ih (left - 1) hRest with ⟨hMode, hOut⟩
      constructor
      · simp only [modeAfter, Mode.next, hMore, if_false,
          hMode, List.length_cons]
        congr 1
        omega
      · simp only [unweave, Mode.next, hMore, if_false,
          hOut, Mode.deliver, List.append_nil]

/- Reading a whole body returns to payload mode. -/
theorem read_whole_body
    (period : Nat)
    (announced : Symbol → Nat)
    (symbols : List Symbol)
    (hSome : 0 < symbols.length) :
    modeAfter period announced
          (.body symbols.length) symbols =
        .payload period ∧
      unweave period announced
          (.body symbols.length) symbols = [] := by
  rcases List.eq_nil_or_concat symbols with
    rfl | ⟨front, last, rfl⟩
  · simp at hSome
  · rw [List.concat_eq_append]
    have hFront :
        front.length < (front ++ [last]).length := by
      simp
    rcases read_body period announced _ front hFront with
      ⟨hMode, hOut⟩
    have hOne :
        (front ++ [last]).length - front.length = 1 := by
      simp
    constructor
    · rw [modeAfter_append, hMode, hOne]
      rfl
    · rw [unweave_append, hOut, hMode, hOne]
      rfl

end Interleave

end Library

------------------------------------------------------------
-- Frames That Announce Their Bodies
------------------------------------------------------------

namespace Library

namespace Interleave

variable {Symbol : Type}

/- The body is as long as the header announces. -/
def WellFramed
    (announced : Symbol → Nat) : List Symbol → Prop
| [] => False
| header :: body => body.length = announced header

/- A reader passes over a frame that announces its body. -/
theorem read_frame
    (period : Nat)
    (announced : Symbol → Nat)
    {frame : List Symbol}
    (hFrame : WellFramed announced frame) :
    modeAfter period announced .header frame =
        .payload period ∧
      unweave period announced .header frame = [] := by
  cases frame with
  | nil => exact hFrame.elim
  | cons header body =>
      have hLength : body.length = announced header := hFrame
      simp only [modeAfter, unweave, Mode.next, Mode.deliver,
        List.nil_append, ← hLength]
      by_cases hEmpty : body.length = 0
      · rw [List.length_eq_zero_iff] at hEmpty
        subst hEmpty
        exact ⟨rfl, rfl⟩
      · rw [if_neg hEmpty]
        exact read_whole_body period announced body (by omega)

/-
  Reading one payload symbol: the frame falls due exactly
  when the reader expects a header.
-/
theorem next_payload
    {period since : Nat}
    (announced : Symbol → Nat)
    (symbol : Symbol)
    (hSince : since < period) :
    (Mode.payload (period - since)).next
        period announced symbol =
      if since + 1 = period then .header
      else .payload (period - (since + 1)) := by
  simp only [Mode.next]
  by_cases hDue : since + 1 = period
  · rw [if_pos hDue, if_pos (by omega)]
  · rw [if_neg hDue, if_neg (by omega)]
    congr 1

/-
  If every inserted frame announces its body, the reader
  delivers the payload and stays in step with the writer.
-/
theorem unweave_weave
    (period since : Nat)
    (announced : Symbol → Nat)
    (frames : Nat → List Symbol)
    (k : Nat)
    (symbols : List Symbol)
    (hSince : since < period)
    (hFrames :
      ∀ n, k ≤ n →
        n < framesAfter period since k symbols.length →
          WellFramed announced (frames n)) :
    modeAfter period announced (.payload (period - since))
          (weave period frames since k symbols) =
        .payload
          (period -
            sinceAfter period since symbols.length) ∧
      unweave period announced (.payload (period - since))
          (weave period frames since k symbols) =
        symbols := by
  induction symbols generalizing since k with
  | nil =>
      simp only [weave, modeAfter, unweave, sinceAfter,
        List.length_nil, Nat.add_zero,
        Nat.mod_eq_of_lt hSince, and_self]
  | cons symbol symbols ih =>
      have hNext :=
        next_payload announced symbol hSince
      rw [weave]
      by_cases hDue : since + 1 = period
      · have hStart : 0 < period := by omega
        have hCount :
            framesAfter period since k
                (symbols.length + 1) =
              framesAfter period 0 (k + 1)
                symbols.length := by
          have hSum :
              since + (symbols.length + 1) =
                symbols.length + period := by omega
          simp only [framesAfter, hSum, Nat.zero_add,
            Nat.add_div_right _ hStart]
          omega
        have hMod :
            sinceAfter period since (symbols.length + 1) =
              sinceAfter period 0 symbols.length := by
          have hSum :
              since + (symbols.length + 1) =
                symbols.length + period := by omega
          simp only [sinceAfter, hSum, Nat.zero_add,
            Nat.add_mod_right]
        have hFrame :
            WellFramed announced (frames k) := by
          apply hFrames k (Nat.le_refl k)
          rw [List.length_cons, hCount, framesAfter]
          exact Nat.lt_of_lt_of_le (Nat.lt_succ_self k)
            (Nat.le_add_right _ _)
        have hRest :
            ∀ n, k + 1 ≤ n →
              n < framesAfter period 0 (k + 1)
                symbols.length →
                WellFramed announced (frames n) := by
          intro n hLow hHigh
          apply hFrames n (by omega)
          rw [List.length_cons, hCount]
          exact hHigh
        rcases read_frame period announced hFrame with
          ⟨hFrameMode, hFrameOut⟩
        rcases ih 0 (k + 1) hStart hRest with ⟨hMode, hOut⟩
        rw [Nat.sub_zero] at hMode hOut
        rw [if_pos hDue]
        rw [if_pos hDue] at hNext
        constructor
        · rw [modeAfter, hNext, modeAfter_append,
            hFrameMode, hMode, List.length_cons, hMod]
        · rw [unweave, hNext, unweave_append, hFrameOut,
            hFrameMode, hOut]
          rfl
      · have hLess : since + 1 < period := by omega
        have hCount :
            framesAfter period since k
                (symbols.length + 1) =
              framesAfter period (since + 1) k
                symbols.length := by
          simp only [framesAfter]
          congr 2
          omega
        have hMod :
            sinceAfter period since (symbols.length + 1) =
              sinceAfter period (since + 1)
                symbols.length := by
          simp only [sinceAfter]
          congr 1
          omega
        have hRest :
            ∀ n, k ≤ n →
              n < framesAfter period (since + 1) k
                symbols.length →
                WellFramed announced (frames n) := by
          intro n hLow hHigh
          apply hFrames n hLow
          rw [List.length_cons, hCount]
          exact hHigh
        rcases ih (since + 1) k hLess hRest with
          ⟨hMode, hOut⟩
        rw [if_neg hDue]
        rw [if_neg hDue] at hNext
        constructor
        · rw [modeAfter, hNext, hMode, List.length_cons, hMod]
        · rw [unweave, hNext, hOut]
          rfl

end Interleave

end Library

------------------------------------------------------------
-- Frames Longer Than They Announce
------------------------------------------------------------

namespace Library

namespace Interleave

variable {Symbol : Type}

/- Weaving a stream in two parts. -/
theorem weave_append
    {period since : Nat}
    (frames : Nat → List Symbol)
    (k : Nat)
    (first second : List Symbol)
    (hSince : since < period) :
    weave period frames since k (first ++ second) =
      weave period frames since k first ++
        weave period frames
          (sinceAfter period since first.length)
          (framesAfter period since k first.length)
          second := by
  induction first generalizing since k with
  | nil =>
      simp [weave, sinceAfter, framesAfter,
        Nat.mod_eq_of_lt hSince, Nat.div_eq_of_lt hSince]
  | cons symbol symbols ih =>
      rw [List.cons_append, weave, weave]
      by_cases hDue : since + 1 = period
      · have hStart : 0 < period := by omega
        have hSum :
            since + (symbols.length + 1) =
              symbols.length + period := by omega
        rw [if_pos hDue, if_pos hDue, ih (k + 1) hStart]
        simp only [sinceAfter, framesAfter,
          List.length_cons, hSum, Nat.zero_add,
          Nat.add_mod_right, Nat.add_div_right _ hStart,
          List.cons_append, List.append_assoc]
        congr 4
        omega
      · have hLess : since + 1 < period := by omega
        have hSum :
            since + (symbols.length + 1) =
              since + 1 + symbols.length := by omega
        rw [if_neg hDue, if_neg hDue, ih k hLess]
        simp only [sinceAfter, framesAfter,
          List.length_cons, hSum, List.cons_append]

/-
  A frame whose body goes on after what it announces: the
  reader delivers the first symbol of the excess.
-/
theorem read_overlong
    (period : Nat)
    (announced : Symbol → Nat)
    (header excess : Symbol)
    (body rest : List Symbol)
    (hBody : body.length = announced header) :
    ∃ more,
      unweave period announced .header
          (header :: (body ++ excess :: rest)) =
        excess :: more := by
  have hFramed : WellFramed announced (header :: body) :=
    hBody
  rcases read_frame period announced hFramed with
    ⟨hMode, hOut⟩
  refine
    ⟨unweave period announced
      ((Mode.payload period).next period announced excess)
      rest, ?_⟩
  rw [← List.cons_append, unweave_append, hMode, hOut]
  rfl

/-
  The payload up to the first overlong frame is delivered,
  and behind it the first symbol of the frame's excess.
-/
theorem unweave_overlong
    {period k : Nat}
    (announced : Symbol → Nat)
    (frames : Nat → List Symbol)
    {header excess : Symbol}
    {body rest : List Symbol}
    (symbols tail : List Symbol)
    (hPeriod : 0 < period)
    (hLength : symbols.length = (k + 1) * period)
    (hFrames :
      ∀ n, n < k → WellFramed announced (frames n))
    (hFrame :
      frames k = header :: (body ++ excess :: rest))
    (hBody : body.length = announced header) :
    ∃ more,
      unweave period announced (.payload period)
          (weave period frames 0 0 (symbols ++ tail)) =
        symbols ++ excess :: more := by
  rcases List.eq_nil_or_concat symbols with
    rfl | ⟨front, last, rfl⟩
  · have hSome : 0 < (k + 1) * period :=
      Nat.mul_pos (Nat.succ_pos k) hPeriod
    rw [List.length_nil] at hLength
    omega
  · rw [List.concat_eq_append] at *
    have hFront : front.length + 1 = (k + 1) * period := by
      simpa using hLength
    -- The writer stands one symbol before frame `k`.
    have hDiv : front.length / period = k := by
      apply Nat.div_eq_of_lt_le
      · rw [Nat.add_mul] at hFront
        omega
      · omega
    have hMod : front.length % period + 1 = period := by
      have hSplit := Nat.div_add_mod front.length period
      rw [hDiv] at hSplit
      have hComm : period * k = k * period :=
        Nat.mul_comm period k
      rw [Nat.add_mul] at hFront
      omega
    have hRead :=
      unweave_weave period 0 announced frames 0 front hPeriod
        (by
          intro n _ hn
          apply hFrames
          simpa [framesAfter, hDiv] using hn)
    rcases hRead with ⟨hMode, hOut⟩
    rw [Nat.sub_zero] at hMode hOut
    have hSince :
        sinceAfter period 0 front.length + 1 = period := by
      simpa [sinceAfter] using hMod
    have hLeft :
        period - sinceAfter period 0 front.length = 1 := by
      omega
    rw [hLeft] at hMode
    have hNumber :
        framesAfter period 0 0 front.length = k := by
      simp [framesAfter, hDiv]
    rcases read_overlong period announced header excess
        body (rest ++ weave period frames 0 (k + 1) tail)
        hBody with ⟨more, hMore⟩
    refine ⟨more, ?_⟩
    rw [List.append_assoc,
      weave_append frames 0 front _ hPeriod,
      unweave_append, hMode, hOut, hNumber,
      List.singleton_append, weave, if_pos hSince, hFrame]
    simp only [unweave, Mode.deliver, Mode.next, Nat.le_refl,
      if_true, List.append_assoc, List.cons_append,
      List.nil_append]
    rw [unweave, Mode.deliver, Mode.next, List.nil_append]
      at hMore
    rw [hMore]

end Interleave

end Library

------------------------------------------------------------
-- Streams That Are Still Written
------------------------------------------------------------

namespace Library

namespace Interleave

variable {Symbol : Type}

/- A reader in the middle of a stream has a part of it. -/
theorem unweave_isPrefix
    (period : Nat)
    (announced : Symbol → Nat)
    (mode : Mode)
    {part whole : List Symbol}
    (hPart : part <+: whole) :
    unweave period announced mode part <+:
      unweave period announced mode whole := by
  rcases hPart with ⟨later, rfl⟩
  rw [unweave_append]
  exact List.prefix_append _ _

end Interleave

end Library
