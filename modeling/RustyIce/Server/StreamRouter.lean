import RustyIce.Server.Bus
import RustyIce.Server.SourceProtocol

/-
  A listener of a mount: the handler of its request, read by
  read, and then its output task, poll by poll.

  The caps on listeners and the identity headers of the
  response are left out. A listener is kicked through the
  map it is registered in, and notices at its next poll.

  Main declarations:
    * `outputCodec`, `contentTypeFor`
    * `Promise`, `Promise.Fits`, `Promise.Keeps`
    * `Subscription`, `Subscription.Listens`
    * `Listener`, `Listener.step`
-/

------------------------------------------------------------
-- Output Codecs
------------------------------------------------------------

namespace RustyIce

/-
  The codec a transcode setting makes of a source's; both
  `resolve_output_codec` of the router and `output_codec` of
  the ingest compute it.
-/
def outputCodec
    (source : CodecId)
    (transcode : Option TranscodeConfig) : CodecId :=
  match transcode with
  | some tc => codecSeed tc.format
  | none => source

def contentTypeFor (codec : CodecId) : String :=
  if codec = .VORBIS then "application/ogg"
  else "audio/mpeg"

/- What the response to a listener announces. -/
structure Promise where
  codec : CodecId
  icy : Bool
deriving DecidableEq, Repr

namespace Promise

/- Interleaved metadata is for MP3 only. -/
def make
    (source : CodecId)
    (transcode : Option TranscodeConfig)
    (icyMetadata : Bool) : Promise where
  codec := outputCodec source transcode
  icy :=
    outputCodec source transcode = .MP3 && icyMetadata

def contentType (promise : Promise) : String :=
  contentTypeFor promise.codec

/- A codec is what the listener was told. -/
def Fits
    (promise : Promise)
    (codec : CodecId) : Prop :=
  contentTypeFor codec = promise.contentType ∧
    (promise.icy = true → codec = .MP3)

instance
    (promise : Promise)
    (codec : CodecId) :
    Decidable (promise.Fits codec) := by
  unfold Fits
  infer_instance

/- An encoded packet has a codec that fits. -/
def Keeps
    (promise : Promise)
    (packet : StreamPacket) : Prop :=
  match packet.payload with
  | .encoded encoded => promise.Fits encoded.codec
  | .decoded _ => True

instance
    (promise : Promise)
    (packet : StreamPacket) :
    Decidable (promise.Keeps packet) := by
  unfold Keeps
  split <;> infer_instance

end Promise

end RustyIce

------------------------------------------------------------
-- Subscriptions
------------------------------------------------------------

namespace RustyIce

/-
  Where a subscribed listener is: not yet in the map, before
  a look at its token, handed the next packet, or gone.
-/
inductive OutputPhase where
| unregistered
| looking
| taking
| left
deriving DecidableEq, Repr

structure Subscription where
  promise : Promise
  headers : Option Bytes
  queue : List StreamPacket
  delivered : List StreamPacket
  kicked : Bool
  phase : OutputPhase
deriving DecidableEq, Repr

namespace Subscription

/- The handler registers, and the output task polls. -/
def step (sub : Subscription) : Option Subscription :=
  match sub.phase with
  | .unregistered => some { sub with phase := .looking }
  | .looking =>
      if sub.kicked then
        some { sub with phase := .left }
      else
        some { sub with phase := .taking }
  | .taking =>
      match sub.queue with
      | [] => some { sub with phase := .looking }
      | packet :: rest =>
          some
            { sub with
              queue := rest
              delivered := sub.delivered ++ [packet]
              phase := .looking }
  | .left => none

def receive
    (sub : Subscription)
    (packet : StreamPacket) : Subscription :=
  { sub with queue := sub.queue ++ [packet] }

/- A slow subscriber misses the oldest packet. -/
def lag (sub : Subscription) : Subscription :=
  { sub with queue := sub.queue.tail }

def leave (sub : Subscription) : Subscription :=
  { sub with phase := .left }

/- Only a registered listener is found to be kicked. -/
def kick (sub : Subscription) : Subscription :=
  if sub.phase = .unregistered then sub
  else { sub with kicked := true }

/- The listener may still be handed a packet. -/
def Listens (sub : Subscription) : Prop :=
  sub.phase ≠ .left ∧
    (sub.kicked = false ∨ sub.phase = .taking)

instance (sub : Subscription) : Decidable sub.Listens := by
  unfold Listens
  infer_instance

end Subscription

end RustyIce

------------------------------------------------------------
-- Listeners
------------------------------------------------------------

namespace RustyIce

/- Where `listener_handler` is. -/
inductive Listener where
| arrived (icyMetadata : Bool)
| configured
    (icyMetadata : Bool)
    (transcode : Option TranscodeConfig)
| promised (promise : Promise)
| primed (promise : Promise) (headers : Option Bytes)
| subscribed (sub : Subscription)
deriving DecidableEq, Repr

namespace Listener

/- With captured headers to send first, no burst is sent. -/
def burst
    (bus : TokioBroadcastBus)
    (headers : Option Bytes) : List StreamPacket :=
  match headers with
  | some _ => []
  | none => bus.subscribe

/- The next read of the handler. -/
def step
    (cfg : Config)
    (path : String)
    (mount : ActiveMount)
    (bus : TokioBroadcastBus) :
    Listener → Option Listener
| .arrived icyMetadata =>
    some
      (.configured icyMetadata (mountTranscode cfg path))
| .configured icyMetadata transcode =>
    some
      (.promised
        (.make mount.info.codec transcode icyMetadata))
| .promised promise =>
    some (.primed promise mount.headerBytes)
| .primed promise headers =>
    some
      (.subscribed
        { promise := promise
          headers := headers
          queue := burst bus headers
          delivered := []
          kicked := false
          phase := .unregistered })
| .subscribed sub => sub.step.map .subscribed

/- A change to the listeners that are subscribed. -/
def onSubscribed
    (change : Subscription → Subscription) :
    Listener → Listener
| .subscribed sub => .subscribed (change sub)
| .arrived icyMetadata => .arrived icyMetadata
| .configured icyMetadata transcode =>
    .configured icyMetadata transcode
| .promised promise => .promised promise
| .primed promise headers => .primed promise headers

/- A property of the subscription, once there is one. -/
def Subscribed
    (P : Subscription → Prop) : Listener → Prop
| .subscribed sub => P sub
| .arrived _ => True
| .configured _ _ => True
| .promised _ => True
| .primed _ _ => True

instance
    (P : Subscription → Prop)
    [DecidablePred P]
    (l : Listener) :
    Decidable (l.Subscribed P) := by
  unfold Subscribed
  split <;> infer_instance

theorem Subscribed.mono
    {P Q : Subscription → Prop}
    (hImp : ∀ sub, P sub → Q sub)
    {l : Listener}
    (hP : l.Subscribed P) :
    l.Subscribed Q := by
  cases l with
  | subscribed sub => exact hImp sub hP
  | _ => trivial

/- What a change keeps of every subscription. -/
theorem subscribed_onSubscribed
    {P Q : Subscription → Prop}
    {change : Subscription → Subscription}
    (hChange : ∀ sub, P sub → Q (change sub))
    {l : Listener}
    (hP : l.Subscribed P) :
    (l.onSubscribed change).Subscribed Q := by
  cases l with
  | subscribed sub => exact hChange sub hP
  | _ => trivial

end Listener

end RustyIce
