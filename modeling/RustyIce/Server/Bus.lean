import RustyIce.Core.Mount
import Mathlib.Data.List.Infix
import Mathlib.Algebra.Order.Ring.Nat

/-
  The fan-out bus of a mount: a rolling history, bounded in
  bytes, replayed to a new subscriber before the live
  stream.

  Main declarations:
    * `HistoryRing`, `HistoryRing.evict`
    * `TokioBroadcastBus`, `TokioBroadcastBus.publish`,
      `TokioBroadcastBus.subscribe`
    * `publish_suffix`, `subscribe_suffix`
-/

------------------------------------------------------------
-- The History
------------------------------------------------------------

namespace RustyIce

/- Decoded frames are not sent over a wire as they are. -/
def packetBytes (packet : StreamPacket) : Nat :=
  match packet.payload with
  | .encoded p => p.data.length
  | .decoded _ => 0

def totalBytes (packets : List StreamPacket) : Nat :=
  (packets.map packetBytes).sum

@[simp] theorem totalBytes_nil : totalBytes [] = 0 := rfl

@[simp] theorem totalBytes_cons
    (packet : StreamPacket)
    (packets : List StreamPacket) :
    totalBytes (packet :: packets) =
      packetBytes packet + totalBytes packets := by
  simp [totalBytes]

@[simp] theorem totalBytes_append
    (front rear : List StreamPacket) :
    totalBytes (front ++ rear) =
      totalBytes front + totalBytes rear := by
  simp [totalBytes]

/- The recent packets and the running total of their bytes. -/
structure HistoryRing where
  packets : List StreamPacket
  bytes : Nat
  counted : bytes = totalBytes packets

namespace HistoryRing

def new : HistoryRing where
  packets := []
  bytes := 0
  counted := rfl

def push
    (ring : HistoryRing)
    (packet : StreamPacket) : HistoryRing where
  packets := ring.packets ++ [packet]
  bytes := ring.bytes + packetBytes packet
  counted := by simp [ring.counted]

/-
  Drop the oldest packets while the total exceeds the cap,
  but never the last one.
-/
def evictFrom (cap : Nat) :
    (packets : List StreamPacket) →
      (bytes : Nat) → bytes = totalBytes packets → HistoryRing
| [], bytes, hCounted => ⟨[], bytes, hCounted⟩
| [packet], bytes, hCounted => ⟨[packet], bytes, hCounted⟩
| packet :: next :: rest, bytes, hCounted =>
    if cap < bytes then
      evictFrom cap (next :: rest) (bytes - packetBytes packet)
        (by
          rw [hCounted, totalBytes_cons]
          omega)
    else
      ⟨packet :: next :: rest, bytes, hCounted⟩

def evict
    (cap : Nat)
    (ring : HistoryRing) : HistoryRing :=
  evictFrom cap ring.packets ring.bytes ring.counted

theorem evictFrom_suffix
    (cap : Nat)
    (packets : List StreamPacket)
    (bytes : Nat)
    (hCounted : bytes = totalBytes packets) :
    (evictFrom cap packets bytes hCounted).packets <:+
      packets := by
  induction packets generalizing bytes with
  | nil => exact List.suffix_refl _
  | cons packet rest ih =>
      cases rest with
      | nil => exact List.suffix_refl _
      | cons next rest =>
          rw [evictFrom]
          split
          · exact (ih _ _).trans (List.suffix_cons _ _)
          · exact List.suffix_refl _

end HistoryRing

end RustyIce

------------------------------------------------------------
-- The Bus
------------------------------------------------------------

namespace RustyIce

structure TokioBroadcastBus where
  size : BusSize
  history : HistoryRing

namespace TokioBroadcastBus

def new (size : BusSize) : TokioBroadcastBus where
  size := size
  history := .new

def publish
    (bus : TokioBroadcastBus)
    (packet : StreamPacket) : TokioBroadcastBus :=
  { bus with
    history :=
      (bus.history.push packet).evict bus.size.burstBytes }

/-
  Walk back from the newest packet until the cap is reached;
  one packet is always taken.
-/
def burstFrom (cap : Nat) :
    (newestFirst : List StreamPacket) →
      (bytes : Nat) → (taken : List StreamPacket) →
        List StreamPacket
| [], _, taken => taken
| packet :: older, bytes, taken =>
    if cap < bytes + packetBytes packet ∧ taken ≠ [] then
      taken
    else if cap ≤ bytes + packetBytes packet then
      packet :: taken
    else
      burstFrom cap older (bytes + packetBytes packet)
        (packet :: taken)

/- What a new subscriber gets before the live stream. -/
def subscribe
    (bus : TokioBroadcastBus) : List StreamPacket :=
  if bus.size.burstBytes = 0 then
    []
  else
    burstFrom bus.size.burstBytes
      bus.history.packets.reverse 0 []

theorem burstFrom_suffix
    (cap : Nat)
    (newestFirst : List StreamPacket)
    (bytes : Nat)
    (taken : List StreamPacket) :
    burstFrom cap newestFirst bytes taken <:+
      newestFirst.reverse ++ taken := by
  induction newestFirst generalizing bytes taken with
  | nil => exact List.suffix_refl _
  | cons packet older ih =>
      rw [List.reverse_cons, List.append_assoc,
        List.singleton_append, burstFrom]
      split
      · have hTaken := List.suffix_cons packet taken
        exact hTaken.trans (List.suffix_append _ _)
      · split
        · exact List.suffix_append _ _
        · exact ih _ _

/- A burst is the end of the history. -/
theorem subscribe_suffix (bus : TokioBroadcastBus) :
    bus.subscribe <:+ bus.history.packets := by
  unfold subscribe
  split
  · exact List.nil_suffix
  · have hBurst :=
      burstFrom_suffix bus.size.burstBytes
        bus.history.packets.reverse 0 []
    rw [List.reverse_reverse, List.append_nil] at hBurst
    exact hBurst

/- The history is the end of what was published. -/
theorem publish_suffix
    (bus : TokioBroadcastBus)
    (packet : StreamPacket)
    {published : List StreamPacket}
    (hHistory : bus.history.packets <:+ published) :
    (bus.publish packet).history.packets <:+
      published ++ [packet] := by
  have hEvict :
      (bus.publish packet).history.packets <:+
        bus.history.packets ++ [packet] :=
    HistoryRing.evictFrom_suffix _ _ _ _
  rcases hHistory with ⟨older, rfl⟩
  rw [List.append_assoc]
  exact hEvict.trans (List.suffix_append _ _)

end TokioBroadcastBus

end RustyIce
