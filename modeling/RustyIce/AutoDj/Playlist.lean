import RustyIce.Core.Config
import Mathlib.Data.List.Sort

/-
  The playlist of a rotation: the files a scan finds in the
  folder, their order, and the title shown for each.

  A folder is what a walk through it yields; a file is named
  by the components of its path below the folder. The tags
  of a file are read by a library and are a parameter.

  Main declarations:
    * `Folder`, `scan`, `Ordered`
    * `nodup_scan`
    * `displayTitle`
-/

------------------------------------------------------------
-- File Names
------------------------------------------------------------

namespace RustyIce

/- A file below the folder, by its path components. -/
abbrev TrackPath := List Bytes

/- What precedes and what follows the last dot of a name. -/
def splitFileAtDot (name : Bytes) : Bytes × Option Bytes :=
  let after :=
    (name.reverse.takeWhile (· ≠ 0x2E)).reverse
  let before := name.take (name.length - after.length - 1)
  if after = name ∨ before = [] then
    (name, none)
  else
    (before, some after)

def fileStem (track : TrackPath) : Option Bytes :=
  track.getLast?.map fun name => (splitFileAtDot name).1

def extension (track : TrackPath) : Option Bytes :=
  track.getLast?.bind fun name => (splitFileAtDot name).2

def lowerByte (b : UInt8) : UInt8 :=
  if 0x41 ≤ b ∧ b ≤ 0x5A then b + 0x20 else b

/- The file is one the rotation can decode. -/
def IsAudio (track : TrackPath) : Prop :=
  (extension track).map (·.map lowerByte) ∈
    [some (utf8Bytes "mp3"), some (utf8Bytes "ogg")]

instance (track : TrackPath) : Decidable (IsAudio track) := by
  unfold IsAudio
  infer_instance

end RustyIce

------------------------------------------------------------
-- Scanning
------------------------------------------------------------

namespace RustyIce

structure WalkEntry where
  path : TrackPath
  isFile : Bool
deriving DecidableEq, Repr

/- What a walk through a folder yields, in any order. -/
structure Folder where
  isDir : Bool
  entries : List WalkEntry
  distinct : (entries.map WalkEntry.path).Nodup

/- The audio files of the folder, sorted by path. -/
def scan (folder : Folder) : Option (List TrackPath) :=
  if folder.isDir then
    some
      (((folder.entries.filter (·.isFile)).map
          WalkEntry.path |>.filter fun path => IsAudio path
        ).insertionSort (· ≤ ·))
  else
    none

/-
  What `order_tracks` may make of a scan: nothing, or any
  shuffle.
-/
def Ordered
    (order : Order)
    (scanned tracks : List TrackPath) : Prop :=
  match order with
  | .sequential => tracks = scanned
  | .shuffle => tracks.Perm scanned

instance
    (order : Order)
    (scanned tracks : List TrackPath) :
    Decidable (Ordered order scanned tracks) :=
  match order with
  | .sequential =>
      inferInstanceAs (Decidable (tracks = scanned))
  | .shuffle =>
      inferInstanceAs (Decidable (tracks.Perm scanned))

variable {folder : Folder}
variable {tracks : List TrackPath}

/- No file is listed twice. -/
theorem nodup_scan (hScan : scan folder = some tracks) :
    tracks.Nodup := by
  unfold scan at hScan
  split at hScan
  · cases hScan
    rw [(List.perm_insertionSort _ _).nodup_iff]
    have hFiles :
        List.Sublist
          ((folder.entries.filter (·.isFile)).map
            WalkEntry.path)
          (folder.entries.map WalkEntry.path) :=
      List.filter_sublist.map _
    exact (folder.distinct.sublist hFiles).filter _
  · cases hScan

end RustyIce

------------------------------------------------------------
-- Titles
------------------------------------------------------------

namespace RustyIce

/- What a tag says about a file. -/
structure Tag where
  title : Option String
  artist : Option String
deriving DecidableEq, Repr

/-
  The title shown for a file: from its tag if it has one
  that can be read, or else the stem of its name.
-/
def displayTitle
    (readTag : TrackPath → Option Tag)
    (track : TrackPath) : String :=
  let stem :=
    (((fileStem track).bind utf8Text).map
      String.ofList).getD ""
  match readTag track with
  | none => stem
  | some tag =>
      match tag.artist, tag.title with
      | some a, some t =>
          if a ≠ "" ∧ t ≠ "" then a ++ " - " ++ t
          else if t ≠ "" then t
          else stem
      | none, some t => if t ≠ "" then t else stem
      | _, none => stem

end RustyIce
