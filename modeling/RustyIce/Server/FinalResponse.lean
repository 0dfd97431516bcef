import RustyIce.Server.IngestEndings
import RustyIce.Server.RequestBody
import RustyIce.Server.SourceConnection
import RustyIce.Transcode.FrameConservation

/-
  What the handler of a source connection writes, from the
  head of the request to the end of its ingest, and how a
  client reads it: status lines, one for each response.

  No write fails. The mount, its slot, the lock of the slot's
  token and the configuration at each of the three times it
  is loaded are as the handler finds them. A lock is poisoned
  once a task has panicked with it in hand.

  Main declarations:
    * `statusCodes`, `OneFinalResponse`
    * `SourceVisit`, `handleSourceConnection`
    * `SourceVisit.Answered`
    * `oneFinalResponse_iff`
-/

------------------------------------------------------------
-- The Client's Side
------------------------------------------------------------

namespace RustyIce

/- The lines of a text, and what follows the last end. -/
def crlfLines : List Char → List (List Char)
| [] => [[]]
| '\r' :: '\n' :: rest => [] :: crlfLines rest
| c :: rest =>
    match crlfLines rest with
    | [] => [[c]]
    | line :: more => (c :: line) :: more

/- The code behind the version of a status line. -/
def statusCode (line : List Char) : Option Nat :=
  if "HTTP/1.".toList <+: line then
    u64FromText ((line.drop 9).take 3)
  else
    none

/-
  Responses without a body, one after the other: a status
  line, and lines up to an empty one.
-/
def readResponses :
    Bool → List (List Char) → Option (List Nat)
| true, [[]] => some []
| true, line :: rest =>
    (statusCode line).bind fun code =>
      (readResponses false rest).map (code :: ·)
| false, line :: rest => readResponses line.isEmpty rest
| _, [] => none

def statusCodes (text : List Char) : Option (List Nat) :=
  readResponses true (crlfLines text)

/- Interim responses are those below 200. -/
def finalCodes (codes : List Nat) : List Nat :=
  codes.filter (200 ≤ ·)

/- A final response, perhaps behind `100 Continue`. -/
def OneFinalResponse (written : List Char) : Prop :=
  ∃ final,
    200 ≤ final ∧
      (statusCodes written = some [final] ∨
        statusCodes written = some [100, final])

end RustyIce

------------------------------------------------------------
-- The Handler's Side
------------------------------------------------------------

namespace RustyIce

open Transcode

def writeStatus
    (code : Nat)
    (reason : String) : List Char :=
  "HTTP/1.1 ".toList ++ Nat.toDigits 10 code ++ [' '] ++
    reason.toList ++
      "\r\nContent-Length: 0\r\nConnection: close\r\n\r\n".toList

def writeStatusRetryAfter
    (code : Nat)
    (reason : String)
    (retryAfterS : Nat) : List Char :=
  "HTTP/1.1 ".toList ++ Nat.toDigits 10 code ++ [' '] ++
    reason.toList ++
      "\r\nContent-Length: 0\r\nRetry-After: ".toList ++
        Nat.toDigits 10 retryAfterS ++
          "\r\nConnection: close\r\n\r\n".toList

def writeStatusWithAuthChallenge : List Char :=
  "HTTP/1.1 401 Unauthorized\r\n".toList ++
    "WWW-Authenticate: Basic realm=\"Icecast\"\r\n".toList ++
      "Content-Length: 0\r\nConnection: close\r\n\r\n".toList

/- The header `Expect: 100-continue`, in any case. -/
def expectsContinue (headers : HeaderMap) : Bool :=
  (headerText headers "expect").any fun value =>
    decide
      ((trimText value).map Char.toLower =
        "100-continue".toList)

/- Neither asked to continue, nor framed. -/
def isClassicIcecast (headers : HeaderMap) : Bool :=
  !expectsContinue headers &&
    (contentLength headers).isNone && !isChunked headers

def upfrontResponse (headers : HeaderMap) : List Char :=
  if expectsContinue headers then
    "HTTP/1.1 100 Continue\r\n\r\n".toList
  else if isClassicIcecast headers then
    "HTTP/1.0 200 OK\r\n\r\n".toList
  else
    []

def sourceCodec (headers : HeaderMap) : CodecId :=
  detectCodec
    ((headerText headers "content-type").map String.ofList)

/- What a source is told that a transcode does not take. -/
def codecReason : String :=
  "mount requires MP3 or Ogg Vorbis source (transcoding is enabled)"

inductive AuthOutcome where
| unauthorized
| internal
deriving DecidableEq, Repr

/-
  What a connection meets: its head, whether its path is
  registered, whether a task holds the slot, the lock of its
  token, and a release in time, what the password check says
  if it can, the claim of the slot and the lock at that time,
  the metadata of the mount, and the configuration when a
  mount is created, when the codec is checked and when the
  ingest is built.
-/
structure SourceVisit where
  head : Except IoError ParsedHead
  known : Bool
  heldByTask : Bool
  poisoned : Bool
  released : Bool
  verified : Option Bool
  created : Config
  checked : Config
  claims : Bool
  claimPoisoned : Bool
  built : Config
  metadata : MountMetadata

namespace SourceVisit

/-
  The slot is free for a source, or was freed in time. The
  task's token is behind a lock.
-/
def preemptNonLiveIfPresent (v : SourceVisit) : Option Bool :=
  if v.heldByTask then
    if v.poisoned then none else some v.released
  else
    some true

/- The outcome of a password check. -/
def authorise
    (v : SourceVisit)
    (resolved : Option (Except AuthOutcome Bool)) :
    Option (Except AuthOutcome Bool) :=
  match v.verified with
  | some true => resolved
  | some false => some (.error .unauthorized)
  | none => some (.error .internal)

/-
  Whether the mount is dynamic. Its bus panics over a ring
  size that a channel does not take.
-/
def resolveOrCreateMount
    (v : SourceVisit) : Option (Except AuthOutcome Bool) :=
  if v.known then
    match v.preemptNonLiveIfPresent with
    | none => none
    | some false => some (.error .internal)
    | some true => v.authorise (some (.ok false))
  else
    v.authorise
      (if channelAccepts v.created.limits.ringSize then
        some (.ok true)
      else
        none)

def build
    (v : SourceVisit)
    (head : ParsedHead) : IngestBuild :=
  buildIngestForMount v.built head.path v.metadata

end SourceVisit

variable {Sample : Type}

/- Behind the ingest, if it is over. -/
def afterIngest
    {lib : Symphonia Sample}
    {E : Engines Sample}
    (classic : Bool) :
    IngestPhase lib E → Option (List Char)
| .selecting _ => none
| .pacing _ => none
| .panicked => some []
| .returned (.error (.transcodeInit _)) =>
    some
      (writeStatusRetryAfter 503 "transcoding unavailable" 60)
| .returned _ =>
    some (if classic then [] else writeStatus 200 "OK")

/- The body of a request whose slot is claimed. -/
def streamSource
    (lib : Symphonia Sample)
    (E : Engines Sample)
    (v : SourceVisit)
    (head : ParsedHead)
    (events : List IngestEvent) : Option (List Char) :=
  let codec := sourceCodec head.headers
  let build := v.build head
  ((ingestMachine lib E build codec).run
      (build.start lib E codec) events).bind fun last =>
    (afterIngest (isClassicIcecast head.headers) last).map
      fun terminal => upfrontResponse head.headers ++ terminal

/-
  All that is written to a connection, once its handler is
  done; the events are those of the ingest, if it comes to
  one.
-/
def handleSourceConnection
    (lib : Symphonia Sample)
    (E : Engines Sample)
    (v : SourceVisit)
    (events : List IngestEvent) : Option (List Char) :=
  match v.head with
  | .error _ => some (writeStatus 400 "Bad Request")
  | .ok head =>
      match v.resolveOrCreateMount with
      | none => some []
      | some (.error .unauthorized) =>
          some writeStatusWithAuthChallenge
      | some (.error .internal) =>
          some (writeStatus 500 "Internal Server Error")
      | some (.ok _) =>
          if !acceptsCodec v.checked head.path
              (sourceCodec head.headers) then
            some (writeStatus 415 codecReason)
          else if !v.claims then
            some
              (writeStatus 409
                "mount already has an active source")
          else if v.claimPoisoned then
            some []
          else
            streamSource lib E v head events

end RustyIce

------------------------------------------------------------
-- The Requests That Are Answered
------------------------------------------------------------

namespace RustyIce

open Transcode

variable {Sample : Type}
variable {lib : Symphonia Sample}
variable {E : Engines Sample}
variable {v : SourceVisit}
variable {written : List Char}

namespace SourceVisit

/- The request claims the slot. -/
structure Streams
    (v : SourceVisit)
    (head : ParsedHead) : Prop where
  verified : v.verified = some true
  preempted :
    v.known = true →
      v.preemptNonLiveIfPresent = some true
  codec :
    acceptsCodec v.checked head.path
        (sourceCodec head.headers) =
      true
  claims : v.claims = true

/-
  A mount that is created gets a ring size that a channel
  takes, and no lock that is taken is poisoned. A source that
  streams was answered before; or no chunk brings its pacing
  rate to zero, and none comes to an encoder that could not
  be built.
-/
structure Answered
    (lib : Symphonia Sample)
    (E : Engines Sample)
    (v : SourceVisit)
    (head : ParsedHead)
    (events : List IngestEvent) : Prop where
  ring :
    v.known = false →
      v.verified = some true →
        channelAccepts v.created.limits.ringSize
  lock :
    v.known = true →
      v.heldByTask = true → v.poisoned = false
  claimLock : v.Streams head → v.claimPoisoned = false
  ingest :
    v.Streams head →
      isClassicIcecast head.headers = true ∨
        ((v.build head).Paced lib E
            (sourceCodec head.headers)
            (receivedChunks events) ∧
          (v.build head).Encodes lib E
            (sourceCodec head.headers) events)

end SourceVisit

namespace SourceVisit

/- How the mount of a request is resolved. -/
theorem resolve_cases (v : SourceVisit) :
    (v.resolveOrCreateMount = none ∧
        ((v.known = false ∧ v.verified = some true ∧
            ¬ channelAccepts v.created.limits.ringSize) ∨
          (v.known = true ∧ v.heldByTask = true ∧
            v.poisoned = true))) ∨
      ((∃ e, v.resolveOrCreateMount = some (.error e)) ∧
        (v.known = false → v.verified ≠ some true) ∧
          (v.known = true →
            v.heldByTask = true → v.poisoned = false) ∧
            ∀ head, ¬ v.Streams head) ∨
      ((∃ dynamic,
          v.resolveOrCreateMount = some (.ok dynamic)) ∧
        (v.known = false →
          channelAccepts v.created.limits.ringSize) ∧
          (v.known = true →
            v.heldByTask = true → v.poisoned = false) ∧
            v.verified = some true ∧
              (v.known = true →
                v.preemptNonLiveIfPresent = some true)) := by
  -- Behind the preemption the password decides.
  have hRefused :
      v.verified ≠ some true → ∀ head, ¬ v.Streams head :=
    fun hWrong head hStreams => hWrong hStreams.verified
  unfold resolveOrCreateMount authorise
  cases hKnown : v.known with
  | true =>
      cases hTime : v.preemptNonLiveIfPresent with
      | none =>
          have hLock : v.heldByTask = true ∧ v.poisoned = true := by
            unfold preemptNonLiveIfPresent at hTime
            split_ifs at hTime with hTask hPoisoned
            exact ⟨hTask, hPoisoned⟩
          exact .inl ⟨rfl, .inr ⟨rfl, hLock⟩⟩
      | some freed =>
          have hLock :
              v.heldByTask = true → v.poisoned = false := by
            intro hTask
            unfold preemptNonLiveIfPresent at hTime
            split_ifs at hTime with hPoisoned
            exact Bool.eq_false_of_not_eq_true hPoisoned
          right
          cases freed with
          | false =>
              refine
                .inl ⟨⟨.internal, rfl⟩, nofun, fun _ => hLock, ?_⟩
              intro head hStreams
              have hFreed := hStreams.preempted hKnown
              rw [hTime] at hFreed
              cases hFreed
          | true =>
              rcases hVerified : v.verified with _ | _ | _
              · exact
                  .inl
                    ⟨⟨.internal, rfl⟩, nofun, fun _ => hLock,
                      hRefused (by simp [hVerified])⟩
              · exact
                  .inl
                    ⟨⟨.unauthorized, rfl⟩, nofun, fun _ => hLock,
                      hRefused (by simp [hVerified])⟩
              · exact
                  .inr
                    ⟨⟨false, rfl⟩, nofun, fun _ => hLock, rfl,
                      fun _ => rfl⟩
  | false =>
      rcases hVerified : v.verified with _ | _ | _
      · exact
          .inr (.inl
            ⟨⟨.internal, rfl⟩, by simp, nofun,
              hRefused (by simp [hVerified])⟩)
      · exact
          .inr (.inl
            ⟨⟨.unauthorized, rfl⟩, by simp, nofun,
              hRefused (by simp [hVerified])⟩)
      · by_cases hRing :
            channelAccepts v.created.limits.ringSize
        · exact
            .inr (.inr
              ⟨⟨true, by simp [hRing]⟩, fun _ => hRing, nofun,
                rfl, nofun⟩)
        · exact
            .inl ⟨by simp [hRing], .inl ⟨rfl, rfl, hRing⟩⟩

end SourceVisit

/- No two final responses are read. -/
def AtMostOneFinal (written : List Char) : Prop :=
  ∃ codes,
    statusCodes written = some codes ∧
      (finalCodes codes).length ≤ 1

/- What is read decides both. -/
theorem final_of_codes
    {codes : List Nat}
    {final : Nat}
    (hCodes : statusCodes written = some codes)
    (hFinal : 200 ≤ final)
    (hShape : codes = [final] ∨ codes = [100, final]) :
    OneFinalResponse written ∧ AtMostOneFinal written := by
  have hOne : finalCodes codes = [final] := by
    rcases hShape with rfl | rfl <;>
      simp [finalCodes, hFinal]
  refine ⟨⟨final, hFinal, ?_⟩, codes, hCodes, ?_⟩
  · rw [hCodes]
    exact hShape.imp (congrArg some) (congrArg some)
  · rw [hOne]
    exact Nat.le_refl _

theorem unanswered_of_codes
    {codes : List Nat}
    (hCodes : statusCodes written = some codes)
    (hNone : finalCodes codes = []) :
    ¬ OneFinalResponse written ∧ AtMostOneFinal written := by
  refine ⟨?_, codes, hCodes, ?_⟩
  · rintro ⟨final, hFinal, hOne | hOne⟩ <;>
      rw [hCodes] at hOne <;>
        cases hOne <;>
          simp [finalCodes, hFinal] at hNone
  · rw [hNone]
    exact Nat.zero_le _

/- A request is refused with one response. -/
theorem refused_once
    {final : Nat}
    {P : Prop}
    (hCodes : statusCodes written = some [final])
    (hFinal : 200 ≤ final)
    (hHolds : P) :
    (OneFinalResponse written ↔ P) ∧
      AtMostOneFinal written := by
  obtain ⟨hOne, hMost⟩ :=
    final_of_codes hCodes hFinal (.inl rfl)
  exact ⟨iff_of_true hOne hHolds, hMost⟩

/- The reply ahead of the body, by the framing. -/
theorem upfrontResponse_cases (headers : HeaderMap) :
    (isClassicIcecast headers = true ∧
        upfrontResponse headers =
          "HTTP/1.0 200 OK\r\n\r\n".toList) ∨
      (isClassicIcecast headers = false ∧
        (upfrontResponse headers =
            "HTTP/1.1 100 Continue\r\n\r\n".toList ∨
          upfrontResponse headers = [])) := by
  unfold upfrontResponse
  cases hExpects : expectsContinue headers with
  | true =>
      right
      refine ⟨by simp [isClassicIcecast, hExpects], .inl ?_⟩
      rw [if_pos rfl]
  | false =>
      rw [if_neg Bool.false_ne_true]
      cases isClassicIcecast headers with
      | true => exact .inl ⟨rfl, rfl⟩
      | false => exact .inr ⟨rfl, .inr rfl⟩

/-
  Without a panic the last response depends on the first,
  and nothing is written behind one.
-/
theorem afterIngest_cases
    {classic : Bool}
    {last : IngestPhase lib E}
    {terminal : List Char}
    (hInit :
      ∀ message,
        last ≠ .returned (.error (.transcodeInit message)))
    (hTerminal : afterIngest classic last = some terminal) :
    (last = .panicked ∧ terminal = []) ∨
      (last ≠ .panicked ∧
        terminal =
          if classic then [] else writeStatus 200 "OK") := by
  cases last with
  | selecting loop => cases hTerminal
  | pacing loop => cases hTerminal
  | panicked =>
      cases hTerminal
      exact .inl ⟨rfl, rfl⟩
  | returned result =>
      refine .inr ⟨by simp, ?_⟩
      cases result with
      | ok stats =>
          cases hTerminal
          rfl
      | error e =>
          cases e with
          | transcodeInit message =>
              exact absurd rfl (hInit message)
          | io error =>
              cases hTerminal
              rfl
          | mountBusy =>
              cases hTerminal
              rfl
          | cancelled =>
              cases hTerminal
              rfl

/- A source that streams, however its ingest ends. -/
theorem streamSource_final
    {head : ParsedHead}
    {events : List IngestEvent}
    (hDone :
      streamSource lib E v head events = some written) :
    (OneFinalResponse written ↔
        isClassicIcecast head.headers = true ∨
          ((v.build head).Paced lib E
              (sourceCodec head.headers)
              (receivedChunks events) ∧
            (v.build head).Encodes lib E
              (sourceCodec head.headers) events)) ∧
      AtMostOneFinal written := by
  unfold streamSource at hDone
  rcases Option.bind_eq_some_iff.mp hDone with
    ⟨last, hRun, hAfter⟩
  rcases Option.map_eq_some_iff.mp hAfter with
    ⟨terminal, hTerminal, rfl⟩
  obtain ⟨hInit, hPaced⟩ := ingest_endings hRun
  rw [← hPaced]
  have hEnds := afterIngest_cases hInit hTerminal
  rcases upfrontResponse_cases head.headers with
    ⟨hClassic, hUpfront⟩ | ⟨hFramed, hUpfront | hUpfront⟩
  · have hNothing : terminal = [] := by
      rw [hClassic] at hEnds
      rcases hEnds with ⟨-, hEmpty⟩ | ⟨-, hEmpty⟩
      · exact hEmpty
      · exact hEmpty
    have hCodes :
        statusCodes ("HTTP/1.0 200 OK\r\n\r\n".toList ++ []) =
          some [200] := by
      decide
    rw [hUpfront, hNothing]
    exact refused_once hCodes (Nat.le_refl _) (.inl hClassic)
  · rw [hUpfront]
    rcases hEnds with ⟨hPanics, rfl⟩ | ⟨hReturns, rfl⟩
    · have hCodes :
          statusCodes
              ("HTTP/1.1 100 Continue\r\n\r\n".toList ++ []) =
            some [100] := by
        decide
      obtain ⟨hNot, hMost⟩ := unanswered_of_codes hCodes rfl
      refine ⟨iff_of_false hNot ?_, hMost⟩
      simp [hFramed, hPanics]
    · have hCodes :
          statusCodes
              ("HTTP/1.1 100 Continue\r\n\r\n".toList ++
                writeStatus 200 "OK") =
            some [100, 200] := by
        decide
      rw [hFramed, if_neg Bool.false_ne_true]
      obtain ⟨hOne, hMost⟩ :=
        final_of_codes hCodes (Nat.le_refl _) (.inr rfl)
      exact ⟨iff_of_true hOne (.inr hReturns), hMost⟩
  · rw [hUpfront, List.nil_append]
    rcases hEnds with ⟨hPanics, rfl⟩ | ⟨hReturns, rfl⟩
    · obtain ⟨hNot, hMost⟩ :=
        unanswered_of_codes (rfl : statusCodes [] = some []) rfl
      refine ⟨iff_of_false hNot ?_, hMost⟩
      simp [hFramed, hPanics]
    · have hCodes :
          statusCodes (writeStatus 200 "OK") =
            some [200] := by
        decide
      rw [hFramed, if_neg Bool.false_ne_true]
      exact refused_once hCodes (Nat.le_refl _) (.inr hReturns)

/- A request whose mount is there, and its password right. -/
theorem final_of_resolved
    {head : ParsedHead}
    {dynamic : Bool}
    {events : List IngestEvent}
    (hHead : v.head = .ok head)
    (hResolve :
      v.resolveOrCreateMount = some (.ok dynamic))
    (hRing :
      v.known = false →
        channelAccepts v.created.limits.ringSize)
    (hLock :
      v.known = true →
        v.heldByTask = true → v.poisoned = false)
    (hVerified : v.verified = some true)
    (hTime :
      v.known = true →
        v.preemptNonLiveIfPresent = some true)
    (hDone :
      handleSourceConnection lib E v events =
        some written) :
    (OneFinalResponse written ↔
        v.Answered lib E head events) ∧
      AtMostOneFinal written := by
  have hCodec :
      statusCodes (writeStatus 415 codecReason) =
        some [415] := by
    decide
  have hBusy :
      statusCodes
          (writeStatus 409
            "mount already has an active source") =
        some [409] := by
    decide
  simp only [handleSourceConnection, hHead, hResolve]
    at hDone
  have hStays :
      (∀ hStreams : v.Streams head, False) →
        v.Answered lib E head events := by
    intro hNever
    exact
      { ring := fun hKnown _ => hRing hKnown
        lock := hLock
        claimLock := fun hStreams => (hNever hStreams).elim
        ingest := fun hStreams => (hNever hStreams).elim }
  split at hDone
  · rename_i hRefused
    cases hDone
    apply refused_once hCodec (by decide)
    apply hStays
    intro hStreams
    rw [hStreams.codec] at hRefused
    cases hRefused
  · rename_i hAccepted
    split at hDone
    · rename_i hTaken
      cases hDone
      apply refused_once hBusy (by decide)
      apply hStays
      intro hStreams
      rw [hStreams.claims] at hTaken
      cases hTaken
    · rename_i hClaimed
      have hStreams : v.Streams head :=
        { verified := hVerified
          preempted := hTime
          codec := by simpa using hAccepted
          claims := by simpa using hClaimed }
      split at hDone
      · rename_i hPoisoned
        cases hDone
        obtain ⟨hNot, hMost⟩ :=
          unanswered_of_codes
            (rfl : statusCodes [] = some []) rfl
        refine ⟨iff_of_false hNot ?_, hMost⟩
        intro hAnswered
        rw [hAnswered.claimLock hStreams] at hPoisoned
        cases hPoisoned
      · rename_i hFree
        obtain ⟨hFinal, hMost⟩ := streamSource_final hDone
        refine ⟨?_, hMost⟩
        rw [hFinal]
        constructor
        · intro hEnds
          exact
            { ring := fun hKnown _ => hRing hKnown
              lock := hLock
              claimLock := fun _ => by simpa using hFree
              ingest := fun _ => hEnds }
        · intro hAnswered
          exact hAnswered.ingest hStreams

/-
  Every connection of a source is answered by exactly one
  final response, or one behind `100 Continue`, exactly if
  its head is wrong, or the mount it creates can have its
  bus, the locks it takes are not poisoned and, unless it was
  answered ahead of its body, its ingest never divides by
  zero and never lacks the encoder it expects. No connection
  is answered twice.
-/
theorem oneFinalResponse_iff
    (lib : Symphonia Sample)
    (E : Engines Sample)
    (v : SourceVisit)
    (events : List IngestEvent)
    (written : List Char)
    (hDone :
      handleSourceConnection lib E v events =
        some written) :
    (OneFinalResponse written ↔
        ∀ head, v.head = .ok head →
          v.Answered lib E head events) ∧
      AtMostOneFinal written := by
  have hBad :
      statusCodes (writeStatus 400 "Bad Request") =
        some [400] := by
    decide
  have hUnauthorised :
      statusCodes writeStatusWithAuthChallenge =
        some [401] := by
    decide
  have hInternal :
      statusCodes (writeStatus 500 "Internal Server Error") =
        some [500] := by
    decide
  rcases hHead : v.head with e | head
  · simp only [handleSourceConnection, hHead] at hDone
    cases hDone
    exact refused_once hBad (by decide) nofun
  · simp only [Except.ok.injEq, forall_eq']
    rcases v.resolve_cases with
      ⟨hResolve, hPanics⟩ |
        ⟨⟨e, hResolve⟩, hVerified, hLock, hNever⟩ |
        ⟨⟨dynamic, hResolve⟩, hRing, hLock, hVerified, hTime⟩
    · simp only [handleSourceConnection, hHead, hResolve]
        at hDone
      cases hDone
      obtain ⟨hNot, hMost⟩ :=
        unanswered_of_codes (rfl : statusCodes [] = some []) rfl
      refine ⟨iff_of_false hNot ?_, hMost⟩
      intro hAnswered
      rcases hPanics with
        ⟨hKnown, hVerified, hRing⟩ |
          ⟨hKnown, hTask, hPoisoned⟩
      · exact hRing (hAnswered.ring hKnown hVerified)
      · rw [hAnswered.lock hKnown hTask] at hPoisoned
        cases hPoisoned
    · have hHolds : v.Answered lib E head events :=
        { ring := fun hKnown hOk =>
            absurd hOk (hVerified hKnown)
          lock := hLock
          claimLock := fun hStreams =>
            absurd hStreams (hNever head)
          ingest := fun hStreams =>
            absurd hStreams (hNever head) }
      simp only [handleSourceConnection, hHead, hResolve]
        at hDone
      cases e with
      | unauthorized =>
          cases hDone
          exact refused_once hUnauthorised (by decide) hHolds
      | internal =>
          cases hDone
          exact refused_once hInternal (by decide) hHolds
    · exact
        final_of_resolved hHead hResolve hRing hLock hVerified
          hTime hDone

/- A request with a body of three bytes, let in. -/
def sizedVisit (cfg : Config) : SourceVisit where
  head :=
    .ok
      { path := "/live"
        headers := [("content-length", utf8Bytes "3")]
        leftover := [] }
  known := true
  heldByTask := true
  poisoned := false
  released := true
  verified := some true
  created := cfg
  checked := cfg
  claims := true
  claimPoisoned := false
  built := cfg
  metadata :=
    { name := none
      description := none
      genre := none
      url := none }

/- Its ingest returns, and the client is told. -/
theorem sizedVisit_answered :
    ∃ written,
      handleSourceConnection idle recorder
            (sizedVisit .bare)
            [.received [1, 2, 3], .closed] =
          some written ∧
        OneFinalResponse written ∧
          AtMostOneFinal written := by
  refine ⟨writeStatus 200 "OK", rfl, ?_⟩
  have hFinal :=
    oneFinalResponse_iff idle recorder (sizedVisit .bare)
      [.received [1, 2, 3], .closed] (writeStatus 200 "OK")
      rfl
  refine ⟨hFinal.1.mpr ?_, hFinal.2⟩
  intro head hHead
  cases hHead
  refine ⟨nofun, fun _ _ => rfl, fun _ => rfl, ?_⟩
  intro _
  right
  refine ⟨?_, ?_, ?_⟩
  · rintro front - - ⟨hVorbis, -⟩
    exact absurd hVorbis (by decide)
  · rintro ⟨config, hPlain, -⟩
    cases hPlain
  · rintro - ⟨config, hPlain, -⟩
    cases hPlain

/- The same server with a maximum rate of nothing. -/
def zeroMaximum : Config :=
  { Config.bare with
    limits :=
      { Config.bare.limits with sourceMaxKbps := some 0 } }

/- Its first chunk ends the connection without a word. -/
theorem zeroMaximum_unanswered :
    ∃ written,
      handleSourceConnection idle recorder
            (sizedVisit zeroMaximum) [.received [1, 2, 3]] =
          some written ∧
        ¬ OneFinalResponse written := by
  refine ⟨[], rfl, ?_⟩
  exact
    (unanswered_of_codes
      (rfl : statusCodes [] = some []) rfl).1

end RustyIce
