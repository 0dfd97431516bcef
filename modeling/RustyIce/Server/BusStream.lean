import RustyIce.Library.Broadcast
import RustyIce.Library.Machine
import RustyIce.Server.Bus

/-
  The bus with its broadcast channel and its subscribers:
  what a subscriber receives is the end of what was published
  before it came, as much as the cap admits, and everything
  published since.

  Main declarations:
    * `BusSubscriber`, `BusSystem`, `busMachine`
    * `Burst`, `BurstThenLive`
    * `evict_kept`, `subscribe_burst`
    * `burst_then_live`
-/

------------------------------------------------------------
-- Subscribers
------------------------------------------------------------

namespace RustyIce

/-
  A stream handed out by the bus: the rest of its snapshot,
  its place in the channel, and what it has yielded. `since`
  is how many packets were published before it.
-/
structure BusSubscriber where
  live : Bool
  since : Nat
  snapshot : List StreamPacket
  next : Nat
  received : List StreamPacket
  lagged : Bool
deriving DecidableEq, Repr

structure BusSystem where
  bus : TokioBroadcastBus
  sender : Library.Broadcast StreamPacket
  subscribers : List BusSubscriber

/- Calls on the bus, and polls of the streams. -/
inductive BusLabel where
| publish (packet : StreamPacket)
| subscribe
| subscribeLive
| poll (i : Nat)
deriving DecidableEq, Repr

namespace BusSubscriber

/-
  The snapshot first, then the channel; what was missed is
  left out of the stream.
-/
def poll
    (sender : Library.Broadcast StreamPacket)
    (sub : BusSubscriber) : Option BusSubscriber :=
  match sub.snapshot with
  | packet :: rest =>
      some
        { sub with
          snapshot := rest
          received := sub.received ++ [packet] }
  | [] =>
      match sender.recv sub.next with
      | none => none
      | some (.value packet, next) =>
          some
            { sub with
              next := next
              received := sub.received ++ [packet] }
      | some (.lagged _, next) =>
          some { sub with next := next, lagged := true }

end BusSubscriber

namespace BusSystem

/- The snapshot and the receiver are made under one lock. -/
def subscriber
    (s : BusSystem)
    (live : Bool) : BusSubscriber where
  live := live
  since := s.sender.sent.length
  snapshot := if live then [] else s.bus.subscribe
  next := s.sender.subscribe
  received := []
  lagged := false

def step
    (s : BusSystem) : BusLabel → Option BusSystem
| .publish packet =>
    some
      { s with
        bus := s.bus.publish packet
        sender := s.sender.send packet }
| .subscribe =>
    some
      { s with
        subscribers := s.subscribers ++ [s.subscriber false] }
| .subscribeLive =>
    some
      { s with
        subscribers := s.subscribers ++ [s.subscriber true] }
| .poll i =>
    match s.subscribers[i]? with
    | none => none
    | some sub =>
        match sub.poll s.sender with
        | none => none
        | some next =>
            some
              { s with
                subscribers := s.subscribers.set i next }

end BusSystem

/-
  A bus of the given sizes; `buffer` is what the channel
  makes of the capacity it is asked for.
-/
def busMachine
    (size : BusSize)
    (buffer : Nat) :
    Library.Machine BusSystem BusLabel where
  init := fun s =>
    s.bus = .new size ∧ s.sender = .new buffer ∧
      s.subscribers = []
  step := BusSystem.step

end RustyIce

------------------------------------------------------------
-- The Property
------------------------------------------------------------

namespace RustyIce

/-
  What is replayed of the packets published so far: nothing
  without a cap; else as much of their end as the cap admits,
  and never less than one packet.
-/
structure Burst
    (cap : Nat)
    (published burst : List StreamPacket) : Prop where
  suffix : burst <:+ published
  disabled : cap = 0 → burst = []
  nonempty : cap ≠ 0 → published ≠ [] → burst ≠ []
  bounded :
    totalBytes burst ≤ cap ∨ ∃ packet, burst = [packet]
  maximal :
    cap ≠ 0 →
      ∀ older between,
        older :: between ++ burst <:+ published →
          packetBytes older ≠ 0 →
            cap < totalBytes (older :: between ++ burst)

/-
  The eviction with an exact subtraction: it fails where the
  saturating one of the source would saturate.
-/
def HistoryRing.evictExact (cap : Nat) :
    List StreamPacket → Nat → Option (List StreamPacket × Nat)
| [], bytes => some ([], bytes)
| [packet], bytes => some ([packet], bytes)
| packet :: next :: rest, bytes =>
    if cap < bytes then
      if bytes < packetBytes packet then
        none
      else
        evictExact cap (next :: rest)
          (bytes - packetBytes packet)
    else
      some (packet :: next :: rest, bytes)

/-
  Every subscriber that was never told of missed packets gets
  a burst and then all that was published since its call, and
  the history counts its bytes exactly.
-/
structure BurstThenLive (s : BusSystem) : Prop where
  streams :
    ∀ i sub,
      s.subscribers[i]? = some sub →
        sub.lagged = false →
          ∃ burst,
            (sub.live = true → burst = []) ∧
              (sub.live = false →
                Burst s.bus.size.burstBytes
                  (s.sender.sent.take sub.since) burst) ∧
                sub.received <+:
                    burst ++ s.sender.sent.drop sub.since ∧
                  (s.step (.poll i) = none →
                    sub.received =
                      burst ++ s.sender.sent.drop sub.since)
  counted :
    s.bus.history.bytes = totalBytes s.bus.history.packets
  exact :
    ∀ packet,
      HistoryRing.evictExact s.bus.size.burstBytes
          (s.bus.history.packets ++ [packet])
          (s.bus.history.bytes + packetBytes packet) =
        some
          ((s.bus.publish packet).history.packets,
            (s.bus.publish packet).history.bytes)

end RustyIce

------------------------------------------------------------
-- Eviction
------------------------------------------------------------

namespace RustyIce

namespace HistoryRing

/- What is counted exactly never saturates. -/
theorem evictExact_eq
    (cap : Nat)
    (packets : List StreamPacket)
    (bytes : Nat)
    (hCounted : bytes = totalBytes packets) :
    evictExact cap packets bytes =
      some
        ((evictFrom cap packets bytes hCounted).packets,
          (evictFrom cap packets bytes hCounted).bytes) := by
  induction packets generalizing bytes with
  | nil => rfl
  | cons packet rest ih =>
      cases rest with
      | nil => rfl
      | cons next rest =>
          rw [evictExact, evictFrom]
          split
          · have hEnough : ¬ bytes < packetBytes packet := by
              rw [hCounted, totalBytes_cons]
              omega
            rw [if_neg hEnough]
            exact ih _ _
          · rfl

theorem evictFrom_ne_nil
    {cap : Nat}
    {packets : List StreamPacket}
    {bytes : Nat}
    (hCounted : bytes = totalBytes packets)
    (hSome : packets ≠ []) :
    (evictFrom cap packets bytes hCounted).packets ≠ [] := by
  induction packets generalizing bytes with
  | nil => exact absurd rfl hSome
  | cons packet rest ih =>
      cases rest with
      | nil => exact List.cons_ne_nil _ _
      | cons next rest =>
          rw [evictFrom]
          split
          · exact ih _ (List.cons_ne_nil _ _)
          · exact List.cons_ne_nil _ _

/- Only what does not fit is evicted. -/
theorem evictFrom_longer
    {cap : Nat}
    {packets longer : List StreamPacket}
    {bytes : Nat}
    (hCounted : bytes = totalBytes packets)
    (hSuffix : longer <:+ packets)
    (hLonger :
      (evictFrom cap packets bytes hCounted).packets.length <
        longer.length) :
    cap < totalBytes longer := by
  induction packets generalizing bytes with
  | nil =>
      have hLength := hSuffix.length_le
      simp only [evictFrom] at hLonger
      omega
  | cons packet rest ih =>
      have hLength := hSuffix.length_le
      cases rest with
      | nil =>
          simp only [evictFrom] at hLonger
          omega
      | cons next rest =>
          rw [evictFrom] at hLonger
          split at hLonger
          · rename_i hOver
            rcases List.suffix_cons_iff.mp hSuffix with
              hAll | hRest
            · rw [hAll, ← hCounted]
              exact hOver
            · exact ih _ hRest hLonger
          · simp only at hLonger
            omega

end HistoryRing

/-
  The history is the end of what was published, and only what
  does not fit is missing.
-/
structure Kept
    (cap : Nat)
    (published history : List StreamPacket) : Prop where
  suffix : history <:+ published
  nonempty : published ≠ [] → history ≠ []
  evicted :
    ∀ longer,
      longer <:+ published →
        history.length < longer.length →
          cap < totalBytes longer

theorem kept_nil (cap : Nat) : Kept cap [] [] where
  suffix := List.suffix_refl _
  nonempty := fun hSome => absurd rfl hSome
  evicted := by
    intro longer hSuffix hLonger
    rw [List.suffix_nil.mp hSuffix] at hLonger
    cases hLonger

/- Publishing keeps it so. -/
theorem kept_publish
    {bus : TokioBroadcastBus}
    {published : List StreamPacket}
    (hKept :
      Kept bus.size.burstBytes published bus.history.packets)
    (packet : StreamPacket) :
    Kept bus.size.burstBytes (published ++ [packet])
      (bus.publish packet).history.packets where
  suffix := bus.publish_suffix packet hKept.suffix
  nonempty := by
    intro _
    exact HistoryRing.evictFrom_ne_nil _ (by simp [HistoryRing.push])
  evicted := by
    intro longer hSuffix hLonger
    rcases List.suffix_concat_iff.mp hSuffix with
      rfl | ⟨front, rfl, hFront⟩
    · cases hLonger
    · by_cases hShort :
          front.length ≤ bus.history.packets.length
      · have hInside : front <:+ bus.history.packets :=
          List.suffix_of_suffix_length_le hFront hKept.suffix
            hShort
        refine
          HistoryRing.evictFrom_longer
            (bus.history.push packet).counted ?_ hLonger
        exact List.suffix_concat_iff.mpr
          (.inr ⟨front, rfl, hInside⟩)
      · have hOver := hKept.evicted front hFront (by omega)
        rw [totalBytes_append]
        omega

end RustyIce

------------------------------------------------------------
-- The Snapshot
------------------------------------------------------------

namespace RustyIce

namespace TokioBroadcastBus

variable {cap bytes : Nat}
variable {newestFirst taken : List StreamPacket}

theorem burstFrom_ne_nil
    (hSome : newestFirst ≠ [] ∨ taken ≠ []) :
    burstFrom cap newestFirst bytes taken ≠ [] := by
  induction newestFirst generalizing bytes taken with
  | nil =>
      rcases hSome with hNo | hTaken
      · exact absurd rfl hNo
      · exact hTaken
  | cons packet older ih =>
      rw [burstFrom]
      split
      · rename_i hStop
        exact hStop.2
      · split
        · exact List.cons_ne_nil _ _
        · exact ih (.inr (List.cons_ne_nil _ _))

/- A walk that goes on has not reached the cap. -/
theorem burstFrom_bounded
    (hBytes : bytes = totalBytes taken)
    (hLess : bytes < cap) :
    totalBytes (burstFrom cap newestFirst bytes taken) ≤
        cap ∨
      ∃ packet,
        burstFrom cap newestFirst bytes taken = [packet] := by
  induction newestFirst generalizing bytes taken with
  | nil =>
      left
      rw [burstFrom, ← hBytes]
      omega
  | cons packet older ih =>
      rw [burstFrom]
      split
      · left
        rw [← hBytes]
        omega
      · rename_i hGo
        split
        · by_cases hNone : taken = []
          · right
            exact ⟨packet, by rw [hNone]⟩
          · left
            have hFits : ¬ cap < bytes + packetBytes packet :=
              fun hOver => hGo ⟨hOver, hNone⟩
            rw [totalBytes_cons, ← hBytes]
            omega
        · rename_i hBelow
          apply ih
          · rw [totalBytes_cons, hBytes, Nat.add_comm]
          · omega

/- What precedes a walk that stopped does not fit. -/
theorem burstFrom_maximal
    {older : StreamPacket}
    {between : List StreamPacket}
    (hBytes : bytes = totalBytes taken)
    (hSuffix :
      older :: between ++
          burstFrom cap newestFirst bytes taken <:+
        newestFirst.reverse ++ taken)
    (hSome : packetBytes older ≠ 0) :
    cap <
      totalBytes
        (older :: between ++
          burstFrom cap newestFirst bytes taken) := by
  induction newestFirst generalizing bytes taken with
  | nil =>
      have hLength := hSuffix.length_le
      rw [burstFrom] at hLength
      simp only [List.cons_append, List.length_cons,
        List.length_append, List.reverse_nil,
        List.length_nil] at hLength
      omega
  | cons packet rest ih =>
      rw [List.reverse_cons, List.append_assoc,
        List.singleton_append] at hSuffix
      rw [burstFrom] at hSuffix ⊢
      split at hSuffix
      · rename_i hStop
        rw [if_pos hStop]
        rcases hSuffix with ⟨front, hFront⟩
        have hBoth :
            (front ++ older :: between) ++ taken =
              (rest.reverse ++ [packet]) ++ taken := by
          simpa using hFront
        -- The packet that did not fit comes right before.
        have hLast :
            older :: between <:+ rest.reverse ++ [packet] :=
          ⟨front, List.append_cancel_right hBoth⟩
        rcases List.suffix_concat_iff.mp hLast with
          hNil | ⟨inner, hInner, _⟩
        · cases hNil
        · rw [hInner, totalBytes_append, totalBytes_append]
          simp only [totalBytes_cons, totalBytes_nil,
            ← hBytes]
          omega
      · rename_i hGo
        rw [if_neg hGo]
        split at hSuffix
        · rename_i hFull
          rw [if_pos hFull, totalBytes_append, totalBytes_cons,
            totalBytes_cons, ← hBytes]
          omega
        · rename_i hBelow
          rw [if_neg hBelow]
          refine ih ?_ hSuffix
          rw [totalBytes_cons, hBytes, Nat.add_comm]

end TokioBroadcastBus

/- The snapshot of a kept history is a burst. -/
theorem subscribe_burst
    {bus : TokioBroadcastBus}
    {published : List StreamPacket}
    (hKept :
      Kept bus.size.burstBytes published
        bus.history.packets) :
    Burst bus.size.burstBytes published bus.subscribe := by
  have hSuffix := bus.subscribe_suffix
  unfold TokioBroadcastBus.subscribe at hSuffix ⊢
  by_cases hCap : bus.size.burstBytes = 0
  · rw [if_pos hCap]
    exact
      { suffix := List.nil_suffix
        disabled := fun _ => rfl
        nonempty := fun hNot => absurd hCap hNot
        bounded := .inl (Nat.zero_le _)
        maximal := fun hNot => absurd hCap hNot }
  · rw [if_neg hCap] at hSuffix ⊢
    refine
      { suffix := hSuffix.trans hKept.suffix
        disabled := fun hZero => absurd hZero hCap
        nonempty := ?_
        bounded :=
          TokioBroadcastBus.burstFrom_bounded rfl (by omega)
        maximal := ?_ }
    · intro _ hPublished
      apply TokioBroadcastBus.burstFrom_ne_nil
      left
      simpa using hKept.nonempty hPublished
    · intro _ older between hLonger hSome
      by_cases hInside :
          (older :: between ++
              TokioBroadcastBus.burstFrom bus.size.burstBytes
                bus.history.packets.reverse 0 []).length ≤
            bus.history.packets.length
      · refine
          TokioBroadcastBus.burstFrom_maximal
            totalBytes_nil.symm ?_ hSome
        rw [List.reverse_reverse, List.append_nil]
        exact
          List.suffix_of_suffix_length_le hLonger hKept.suffix
            hInside
      · exact hKept.evicted _ hLonger (by omega)

end RustyIce

------------------------------------------------------------
-- Burst Then Live
------------------------------------------------------------

namespace RustyIce

/-
  What a subscriber has received, what is left of its
  snapshot and what is unread in the channel make up a burst
  and all that was published since.
-/
structure SubscriberInv
    (s : BusSystem)
    (sub : BusSubscriber) : Prop where
  since : sub.since ≤ s.sender.sent.length
  next : sub.next ≤ s.sender.sent.length
  stream :
    sub.lagged = false →
      ∃ burst,
        (sub.live = true → burst = []) ∧
          (sub.live = false →
            Burst s.bus.size.burstBytes
              (s.sender.sent.take sub.since) burst) ∧
            sub.received ++ sub.snapshot ++
                s.sender.unread sub.next =
              burst ++ s.sender.unread sub.since

structure BusInv (s : BusSystem) : Prop where
  kept :
    Kept s.bus.size.burstBytes s.sender.sent
      s.bus.history.packets
  subscribers : ∀ sub ∈ s.subscribers, SubscriberInv s sub

variable {s t : BusSystem}

theorem subscriberInv_new
    (hKept :
      Kept s.bus.size.burstBytes s.sender.sent
        s.bus.history.packets)
    (live : Bool) :
    SubscriberInv s (s.subscriber live) where
  since := Nat.le_refl _
  next := Nat.le_refl _
  stream := by
    intro _
    refine ⟨(s.subscriber live).snapshot, ?_, ?_, ?_⟩
    · rintro rfl
      rfl
    · rintro rfl
      unfold BusSystem.subscriber
      simp only [List.take_length]
      exact subscribe_burst hKept
    · unfold BusSystem.subscriber
      simp [Library.Broadcast.unread, Library.Broadcast.subscribe]

theorem subscriberInv_publish
    {sub : BusSubscriber}
    (hInv : SubscriberInv s sub)
    (packet : StreamPacket) :
    SubscriberInv
      { s with
        bus := s.bus.publish packet
        sender := s.sender.send packet } sub where
  since := by
    have hSince := hInv.since
    simp only [Library.Broadcast.send, List.length_append]
    omega
  next := by
    have hNext := hInv.next
    simp only [Library.Broadcast.send, List.length_append]
    omega
  stream := by
    intro hLagged
    rcases hInv.stream hLagged with
      ⟨burst, hLive, hBurst, hStream⟩
    refine ⟨burst, hLive, ?_, ?_⟩
    · intro hCall
      have hTake :
          (s.sender.send packet).sent.take sub.since =
            s.sender.sent.take sub.since :=
        List.take_append_of_le_length hInv.since
      simp only
      rw [hTake]
      exact hBurst hCall
    · simp only
      rw [Library.Broadcast.unread_send hInv.next,
        Library.Broadcast.unread_send hInv.since,
        ← List.append_assoc, hStream, List.append_assoc]

theorem subscriberInv_poll
    {sub after : BusSubscriber}
    (hInv : SubscriberInv s sub)
    (hPoll : sub.poll s.sender = some after) :
    SubscriberInv s after := by
  unfold BusSubscriber.poll at hPoll
  split at hPoll
  · rename_i packet rest hSnapshot
    cases hPoll
    refine ⟨hInv.since, hInv.next, ?_⟩
    intro hLagged
    rcases hInv.stream hLagged with
      ⟨burst, hLive, hBurst, hStream⟩
    refine ⟨burst, hLive, hBurst, ?_⟩
    rw [hSnapshot] at hStream
    simpa using hStream
  · rename_i hSnapshot
    split at hPoll
    · cases hPoll
    · rename_i packet next hRecv
      cases hPoll
      rcases Library.Broadcast.unread_of_recv hRecv with
        ⟨hUnread, hNext⟩
      refine ⟨hInv.since, hNext, ?_⟩
      intro hLagged
      rcases hInv.stream hLagged with
        ⟨burst, hLive, hBurst, hStream⟩
      refine ⟨burst, hLive, hBurst, ?_⟩
      rw [hSnapshot, hUnread] at hStream
      simpa [hSnapshot] using hStream
    · rename_i missed next hRecv
      cases hPoll
      refine
        ⟨hInv.since, Library.Broadcast.le_of_recv hRecv, ?_⟩
      intro hLagged
      cases hLagged

theorem busInv_step
    {label : BusLabel}
    (hInv : BusInv s)
    (hStep : s.step label = some t) :
    BusInv t := by
  have hNew :
      ∀ live,
        BusInv
          { s with
            subscribers :=
              s.subscribers ++ [s.subscriber live] } := by
    intro live
    refine ⟨hInv.kept, ?_⟩
    intro sub hMem
    rcases List.mem_append.mp hMem with hOld | hAdded
    · have hSub := hInv.subscribers sub hOld
      exact ⟨hSub.since, hSub.next, hSub.stream⟩
    · rw [List.mem_singleton.mp hAdded]
      have hSub := subscriberInv_new hInv.kept live
      exact ⟨hSub.since, hSub.next, hSub.stream⟩
  cases label with
  | publish packet =>
      cases hStep
      refine ⟨kept_publish hInv.kept packet, ?_⟩
      intro sub hMem
      exact
        subscriberInv_publish (hInv.subscribers sub hMem)
          packet
  | subscribe =>
      cases hStep
      exact hNew false
  | subscribeLive =>
      cases hStep
      exact hNew true
  | poll i =>
      simp only [BusSystem.step] at hStep
      split at hStep
      · cases hStep
      · rename_i sub hSome
        split at hStep
        · cases hStep
        · rename_i after hPoll
          cases hStep
          refine ⟨hInv.kept, ?_⟩
          intro other hMem
          have hOther : SubscriberInv s other := by
            rcases List.mem_or_eq_of_mem_set hMem with
              hOld | hNow
            · exact hInv.subscribers other hOld
            · rw [hNow]
              exact
                subscriberInv_poll
                  (hInv.subscribers sub
                    (List.mem_of_getElem? hSome))
                  hPoll
          exact ⟨hOther.since, hOther.next, hOther.stream⟩

/- A stream with nothing to yield has yielded everything. -/
theorem unread_of_poll_none
    {sub : BusSubscriber}
    {sender : Library.Broadcast StreamPacket}
    (hPoll : sub.poll sender = none) :
    sub.snapshot = [] ∧ sender.unread sub.next = [] := by
  unfold BusSubscriber.poll at hPoll
  split at hPoll
  · cases hPoll
  · rename_i hSnapshot
    split at hPoll
    · rename_i hRecv
      exact
        ⟨hSnapshot,
          Library.Broadcast.unread_of_recv_none hRecv⟩
    · cases hPoll
    · cases hPoll

/-
  Whatever is published and whoever subscribes in between, a
  subscriber that does not lag receives one contiguous
  stream.
-/
theorem burst_then_live
    {size : BusSize}
    {buffer : Nat}
    (hReach : (busMachine size buffer).Reachable s) :
    BurstThenLive s := by
  have hInv : BusInv s := by
    apply hReach.invariant
    · rintro u ⟨hBus, hSender, hNone⟩
      refine ⟨?_, ?_⟩
      · rw [hBus, hSender]
        exact kept_nil _
      · rw [hNone]
        intro sub hMem
        cases hMem
    · intro u label v hBefore _ hStep
      exact busInv_step hBefore hStep
  refine
    { streams := ?_
      counted := s.bus.history.counted
      exact := ?_ }
  · intro i sub hSome hLagged
    have hSub :=
      hInv.subscribers sub (List.mem_of_getElem? hSome)
    rcases hSub.stream hLagged with
      ⟨burst, hLive, hBurst, hStream⟩
    refine ⟨burst, hLive, hBurst, ?_, ?_⟩
    · refine
        ⟨sub.snapshot ++ s.sender.unread sub.next, ?_⟩
      rw [← List.append_assoc]
      exact hStream
    · intro hBlocked
      simp only [BusSystem.step, hSome] at hBlocked
      split at hBlocked
      · rename_i hPoll
        rcases unread_of_poll_none hPoll with
          ⟨hSnapshot, hUnread⟩
        rw [hSnapshot, hUnread, List.append_nil,
          List.append_nil] at hStream
        exact hStream
      · cases hBlocked
  · intro packet
    exact
      HistoryRing.evictExact_eq _ _ _
        (s.bus.history.push packet).counted

/- A bus before its first packet. -/
def BusSystem.idle
    (size : BusSize)
    (buffer : Nat) : BusSystem where
  bus := .new size
  sender := .new buffer
  subscribers := []

def sizedPacket (sequence count : Nat) : StreamPacket where
  payload :=
    .encoded
      { codec := .MP3
        data := List.replicate count 0 }
  sequence := sequence

/- Three packets, a subscriber, a fourth packet, all read. -/
def lateSubscriber : List BusLabel :=
  [.publish (sizedPacket 0 3), .publish (sizedPacket 1 2),
    .publish (sizedPacket 2 2), .subscribe,
    .publish (sizedPacket 3 9), .poll 0, .poll 0, .poll 0]

theorem burst_then_live_lateSubscriber :
    ∃ s sub,
      (busMachine { capacity := 4, burstBytes := 5 } 4).run
          (.idle { capacity := 4, burstBytes := 5 } 4)
          lateSubscriber =
        some s ∧
        s.subscribers[0]? = some sub ∧
          sub.received =
              [sizedPacket 1 2, sizedPacket 2 2,
                sizedPacket 3 9] ∧
            BurstThenLive s := by
  have hRun :
      (busMachine { capacity := 4, burstBytes := 5 } 4).run
          (.idle { capacity := 4, burstBytes := 5 } 4)
          lateSubscriber =
        some _ :=
    rfl
  have hReach :=
    Library.Machine.reachable_of_run
      (⟨rfl, rfl, rfl⟩ :
        (busMachine { capacity := 4, burstBytes := 5 } 4).init
          (.idle { capacity := 4, burstBytes := 5 } 4))
      hRun
  exact ⟨_, _, hRun, rfl, rfl, burst_then_live hReach⟩

end RustyIce
