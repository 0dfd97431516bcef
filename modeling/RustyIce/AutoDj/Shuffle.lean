import RustyIce.AutoDj.Rotation
import RustyIce.Library.Rounds

/-
  What a rotation keeps when it shuffles: a pass takes files
  of the folder, none of them twice, and as long as passes
  are not cut short every file has its share.

  Main declarations:
    * `Rotation.InRounds`
    * `Rotation.FairShares`
    * `fair_shares`
-/

------------------------------------------------------------
-- Passes Are Parts Of A Shuffle
------------------------------------------------------------

namespace RustyIce

namespace AutoDj

/- Sorted or shuffled, the files are those of the scan. -/
theorem perm_of_ordered
    {order : Order}
    {scanned tracks : List TrackPath}
    (hOrdered : Ordered order scanned tracks) :
    tracks.Perm scanned := by
  cases order with
  | sequential =>
      have hSame : tracks = scanned := hOrdered
      rw [hSame]
  | shuffle => exact hOrdered

namespace Rotation

/- Every pass has begun a list of all the files. -/
structure InRounds
    (tracks : List TrackPath)
    (s : Rotation) : Prop where
  ended : ∀ round ∈ s.ended, round.Subperm tracks
  started : s.started.Subperm tracks
  rest :
    ∀ rest,
      s.pass.rest = some rest →
        (s.started ++ rest).Perm tracks

variable {dj : AutoDjPlayer}
variable {s t : Rotation}

theorem inRounds_fresh
    (tracks : List TrackPath)
    (system : MountSystem) :
    InRounds tracks (fresh system) where
  ended := List.forall_mem_nil _
  started := List.nil_subperm
  rest := by
    intro rest hRest
    cases hRest

/- A player takes each file of its list from the front. -/
theorem inRounds_step
    (hRounds : InRounds dj.tracks s)
    {label : RotationLabel}
    (hStep : s.step dj label = some t) :
    InRounds dj.tracks t := by
  rcases lists_of_step hStep with
    ⟨tracks, _, hOrdered, hEnded, hStarted, hPass⟩ |
      ⟨track, rest, _, hPicked, hEnded, hStarted, hPass⟩ |
        ⟨_, hEnded, hStarted, hRest⟩
  · constructor
    · rw [hEnded]
      intro round hMem
      rcases List.mem_append.mp hMem with hOld | hNew
      · exact hRounds.ended round hOld
      · rw [List.mem_singleton.mp hNew]
        exact hRounds.started
    · rw [hStarted]
      exact List.nil_subperm
    · intro rest hHere
      rw [hPass] at hHere
      cases hHere
      rw [hStarted]
      exact perm_of_ordered hOrdered
  · have hWhole :
        ((s.started ++ [track]) ++ rest).Perm dj.tracks := by
      rw [List.append_assoc]
      apply hRounds.rest
      rw [hPicked]
      rfl
    constructor
    · rw [hEnded]
      exact hRounds.ended
    · rw [hStarted]
      exact
        (List.sublist_append_left _ rest).subperm.trans
          hWhole.subperm
    · intro other hHere
      rw [hPass] at hHere
      cases hHere
      rw [hStarted]
      exact hWhole
  · constructor
    · rw [hEnded]
      exact hRounds.ended
    · rw [hStarted]
      exact hRounds.started
    · intro rest hHere
      rw [hStarted]
      exact hRounds.rest rest (hRest rest hHere)

theorem InRounds.of_reachable
    (hReach : (rotationMachine dj).Reachable s) :
    InRounds dj.tracks s := by
  refine
    Library.Machine.ReachableUnder.invariant
      (I := InRounds dj.tracks) ?_ ?_ hReach
  · rintro s ⟨system, _, _, rfl⟩
    exact inRounds_fresh _ system
  · intro s label t hRounds _ hStep
    exact inRounds_step hRounds hStep

end Rotation

end AutoDj

end RustyIce

------------------------------------------------------------
-- Shares
------------------------------------------------------------

namespace RustyIce

namespace AutoDj

namespace Rotation

/- Every pass that ended started all of the files, or none. -/
def Uncut
    (dj : AutoDjPlayer)
    (s : Rotation) : Prop :=
  ∀ round ∈ s.ended,
    round = [] ∨ round.length = dj.tracks.length

instance
    (dj : AutoDjPlayer)
    (s : Rotation) :
    Decidable (s.Uncut dj) := by
  unfold Uncut
  infer_instance

/-
  No pass starts a file twice, or one that is not of the
  folder. If no pass was cut short, no file was started two
  times more often than another, and of any `2 * n - 1`
  starts in a row each of the `n` files is one.
-/
structure FairShares
    (dj : AutoDjPlayer)
    (s : Rotation) : Prop where
  distinct :
    ∀ round ∈ s.ended ++ [s.started],
      round.Nodup ∧ round ⊆ dj.tracks
  shares :
    s.Uncut dj →
      ∀ track ∈ dj.tracks, ∀ other ∈ dj.tracks,
        s.log.count track ≤ s.log.count other + 1
  soon :
    s.Uncut dj →
      ∀ before piece after,
        s.log = before ++ piece ++ after →
          2 * dj.tracks.length ≤ piece.length + 1 →
            dj.tracks ⊆ piece

end Rotation

theorem fair_shares
    (dj : AutoDjPlayer)
    {s : Rotation}
    (hReach : (rotationMachine dj).Reachable s) :
    s.FairShares dj := by
  have hRounds := Rotation.InRounds.of_reachable hReach
  have hNodup := dj.nodup_tracks
  have hEvenly
      (hUncut : s.Uncut dj) :
      Library.Evenly dj.tracks s.log := by
    apply
      Library.evenly_rounds hNodup ?_ hRounds.started
    intro round hMem
    rcases hUncut round hMem with hEmpty | hWhole
    · exact .inl hEmpty
    · have hPart := hRounds.ended round hMem
      exact
        .inr (hPart.perm_of_length_le (Nat.le_of_eq hWhole.symm))
  constructor
  · intro round hMem
    have hPart : round.Subperm dj.tracks := by
      rcases List.mem_append.mp hMem with hOld | hNew
      · exact hRounds.ended round hOld
      · rw [List.mem_singleton.mp hNew]
        exact hRounds.started
    refine ⟨?_, hPart.subset⟩
    rcases hPart with ⟨sorted, hPerm, hSublist⟩
    exact hPerm.nodup_iff.mp (hSublist.nodup hNodup)
  · intro hUncut track hTrack other hOther
    exact (hEvenly hUncut).count_le hTrack hOther
  · intro hUncut before piece after hLog hLong track hTrack
    exact (hEvenly hUncut).mem_piece hLog hLong hTrack

/- The two files, shuffled. -/
def twoShuffled : AutoDjPlayer :=
  { twoTracks with order := .shuffle }

/- A pass over both files, and back to the top. -/
def wholePass (tracks : List TrackPath) : List RotationLabel :=
  playing.map .system ++
    .openPipeline tracks ::
      (List.replicate 2
          [.pickTrack, .startTrack, .endTrack]).flatten ++
    .system (.player 0 .finish) ::
      List.replicate 8 (.system (.player 0 .go))

/- The second pass goes the other way round. -/
theorem fair_shares_twoShuffled :
    ∃ t,
      (rotationMachine twoShuffled).run idlePlayer
          (wholePass twoShuffled.tracks ++
            wholePass twoShuffled.tracks.reverse) =
        some t ∧
        t.log =
          twoShuffled.tracks ++ twoShuffled.tracks.reverse ∧
        t.Uncut twoShuffled ∧
        t.FairShares twoShuffled := by
  refine ⟨_, rfl, ?_, ?_, ?_⟩
  · decide
  · decide
  · apply fair_shares
    exact
      Library.Machine.reachable_of_run
        (init_idlePlayer twoShuffled)
        (rfl :
          (rotationMachine twoShuffled).run idlePlayer
              (wholePass twoShuffled.tracks ++
                wholePass twoShuffled.tracks.reverse) =
            some _)

end AutoDj

end RustyIce
