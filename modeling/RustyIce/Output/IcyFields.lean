import RustyIce.Admin.Title
import RustyIce.AutoDj.Playlist
import RustyIce.Library.Delimited
import RustyIce.Output.IcyTransparency
import RustyIce.Server.SourceHeaders

/-
  What a listener reads in a metadata frame: the title and
  the address are what stands between quotes, up to the next
  quote that a semicolon follows.

  Main declarations:
    * `icyFields`
    * `Reaches`, `Unbroken`
    * `unbroken_of_setTitle`
    * `icyFields_buildIcyFrame_iff`
-/

------------------------------------------------------------
-- The Listener's Rule
------------------------------------------------------------

namespace RustyIce

namespace Output

open Library.Delimited

/- A frame body without the bytes it is padded with. -/
def dropPadding (body : Bytes) : Bytes :=
  (body.reverse.dropWhile (· = 0)).reverse

def icyTitleOpening : List Char := "StreamTitle='".toList

def icyUrlOpening : List Char := "StreamUrl='".toList

/-
  The title is the text between its opening and the next
  such pair, and the address likewise in what follows.
-/
def icyTexts
    (text : List Char) : Option (List Char × List Char) :=
  match enclosed icyTitleOpening '\'' ';' text with
  | none => none
  | some (title, rest) =>
      (enclosed icyUrlOpening '\'' ';' rest).map fun found =>
        (title, found.1)

/- The title and the address a listener sees in a frame. -/
def icyFields (frame : Bytes) : Option (String × String) :=
  match frame with
  | [] => none
  | length :: body =>
      ((utf8Text
            (dropPadding
              (body.take (icyAnnounced length)))).bind
          icyTexts).map fun found =>
        (String.ofList found.1, String.ofList found.2)

/- The text has no quote with a semicolon behind it. -/
def Unbroken (text : String) : Prop :=
  ¬ ['\'', ';'] <:+: text.toList

instance (text : String) : Decidable (Unbroken text) := by
  unfold Unbroken
  infer_instance

/-
  Where a displayed title comes from, if not from the names
  in the configuration: an administrator, a track of a
  rotation, or the headers of a source.
-/
structure Reaches (shown : Displayed) : Prop where
  title :
    ∀ text,
      shown.currentTitle = some text →
        (∃ title,
          (Admin.setTitle true title).stored =
            some (some text)) ∨
          ∃ readTag track, displayTitle readTag track = text
  overlay :
    ∀ overlay,
      shown.sourceOverlay = some overlay →
        ∃ headers, parseSourceOverlay headers = overlay

/- An administrator's title is never broken. -/
theorem unbroken_of_setTitle
    {known : Bool}
    {title stored : String}
    (hStored :
      (Admin.setTitle known title).stored =
        some (some stored)) :
    Unbroken stored := by
  obtain ⟨_, hClean⟩ := Admin.stored_of_setTitle hStored
  rintro ⟨before, after, hText⟩
  apply hClean.quote
  rw [← hText]
  simp

end Output

end RustyIce

------------------------------------------------------------
-- Round Trips
------------------------------------------------------------

namespace RustyIce

namespace Output

open Library.Delimited

/- Padding is dropped, and nothing else. -/
theorem dropPadding_append
    (raw : Bytes)
    {last : UInt8}
    (hLast : last ≠ 0)
    (n : Nat) :
    dropPadding (raw ++ [last] ++ List.replicate n 0) =
      raw ++ [last] := by
  have hZeros :
      ∀ b ∈ List.replicate n (0 : UInt8),
        decide (b = 0) = true := by
    intro b hMem
    exact decide_eq_true (List.eq_of_mem_replicate hMem)
  unfold dropPadding
  rw [List.reverse_append, List.reverse_replicate,
    List.dropWhile_append_of_pos hZeros, List.reverse_append,
    List.reverse_singleton, List.singleton_append,
    List.dropWhile_cons_of_neg (by simpa using hLast),
    List.reverse_cons, List.reverse_reverse]

/- A frame gives back the text it was built from. -/
theorem icyFields_eq
    {shown : Displayed}
    (hFits : FrameFits shown)
    (hSome : ¬ (shown.title = "" ∧ shown.url = "")) :
    icyFields (buildIcyFrame shown) =
      (icyTexts (metaStr shown.title shown.url).toList).map
        fun found =>
          (String.ofList found.1, String.ofList found.2) := by
  have hRaw :
      (utf8Bytes (metaStr shown.title shown.url)).length ≤
        4080 := by
    unfold FrameFits at hFits
    rw [length_metaStr]
    omega
  have hText :
      utf8Text (utf8Bytes (metaStr shown.title shown.url)) =
        some (metaStr shown.title shown.url).toList :=
    utf8Text_encode _
  have hEnd :
      utf8Bytes (metaStr shown.title shown.url) =
        utf8Bytes
            ("StreamTitle='" ++ shown.title ++
              "';StreamUrl='" ++ shown.url ++ "'") ++
          [0x3B] := by
    have hQuote :
        utf8Bytes "';" = utf8Bytes "'" ++ [0x3B] := by
      decide
    delta metaStr
    rw [utf8Bytes_append, hQuote, ← List.append_assoc,
      ← utf8Bytes_append]
  unfold buildIcyFrame
  rw [if_neg hSome]
  simp only [icyFields, icyAnnounced_of_fits hRaw]
  rw [List.take_of_length_le, hEnd, dropPadding_append,
    ← hEnd, hText]
  · rfl
  · decide
  · unfold icyBlocks
    rw [List.length_append, List.length_replicate]
    omega

/- A text is read back exactly if neither part is broken. -/
theorem icyTexts_metaStr_iff (title url : String) :
    icyTexts (metaStr title url).toList =
        some (title.toList, url.toList) ↔
      Unbroken title ∧ Unbroken url := by
  have hMiddle :
      "';StreamUrl='".toList =
        '\'' :: ';' :: icyUrlOpening := by
    decide
  have hClose : "';".toList = ['\'', ';'] := by
    decide
  have hText :
      (metaStr title url).toList =
        icyTitleOpening ++
          (title.toList ++ '\'' :: ';' ::
            (icyUrlOpening ++
              (url.toList ++ '\'' :: ';' :: []))) := by
    delta metaStr icyTitleOpening
    rw [String.toList_append, String.toList_append,
      String.toList_append, String.toList_append, hMiddle,
      hClose]
    generalize "StreamTitle='".toList = opening
    simp only [List.append_assoc, List.cons_append]
  have hTitle : icyTitleOpening ≠ [] := by decide
  have hUrl : icyUrlOpening ≠ [] := by decide
  have hApart : '\'' ≠ ';' := by decide
  rw [hText]
  unfold icyTexts Unbroken
  constructor
  · intro hFound
    split at hFound
    · cases hFound
    · rename_i found rest hFirst
      rcases Option.map_eq_some_iff.mp hFound with
        ⟨⟨text, last⟩, hSecond, hSame⟩
      rw [Prod.mk.injEq] at hSame
      obtain ⟨rfl, rfl⟩ := hSame
      have hFree := free_of_enclosed hTitle hFirst
      rw [enclosed_of_free hTitle hApart hFree,
        Option.some.injEq, Prod.mk.injEq] at hFirst
      rw [← hFirst.2] at hSecond
      exact ⟨hFree, free_of_enclosed hUrl hSecond⟩
  · rintro ⟨hTitleFree, hUrlFree⟩
    simp only [enclosed_of_free hTitle hApart hTitleFree,
      enclosed_of_free hUrl hApart hUrlFree, Option.map_some]

/-
  A frame that fits gives its title and its address back
  exactly if neither has a quote before a semicolon.
-/
theorem icyFields_buildIcyFrame_iff
    (shown : Displayed)
    (hFits : FrameFits shown)
    (hSome : ¬ (shown.title = "" ∧ shown.url = "")) :
    icyFields (buildIcyFrame shown) =
        some (shown.title, shown.url) ↔
      Unbroken shown.title ∧ Unbroken shown.url := by
  rw [icyFields_eq hFits hSome, ← icyTexts_metaStr_iff]
  constructor
  · intro hFound
    rcases Option.map_eq_some_iff.mp hFound with
      ⟨⟨title, url⟩, hTexts, hSame⟩
    rw [Prod.mk.injEq] at hSame
    rw [hTexts, ← hSame.1, ← hSame.2, String.toList_ofList,
      String.toList_ofList]
  · intro hTexts
    rw [hTexts, Option.map_some, String.ofList_toList,
      String.ofList_toList]

/-
  What a source displays that names its stream so that a
  second address begins in the name.
-/
def spoofing : Displayed where
  info :=
    { path := "/stream"
      codec := .MP3
      sourcePassword := "x"
      maxListeners := none
      metadata := .default }
  currentTitle := none
  sourceOverlay :=
    some
      (parseSourceOverlay
        [("ice-name",
          utf8Bytes "x';StreamUrl='http://evil")])

/- Listeners see that address. -/
theorem spoofing_believed :
    Reaches spoofing ∧ FrameFits spoofing ∧
      spoofing.title = "x';StreamUrl='http://evil" ∧
      spoofing.url = "" ∧
      icyFields (buildIcyFrame spoofing) =
        some ("x", "http://evil") := by
  refine ⟨⟨?_, ?_⟩, by decide, by decide, by decide, ?_⟩
  · intro text hNone
    cases hNone
  · intro overlay hOverlay
    cases hOverlay
    exact ⟨_, rfl⟩
  · decide

/- A title of a track with an apostrophe is not broken. -/
theorem icyFields_apostrophe :
    icyFields
        (buildIcyFrame
          { spoofing with currentTitle := some "Don't" }) =
      some ("Don't", "") := by
  apply
    (icyFields_buildIcyFrame_iff
      { spoofing with currentTitle := some "Don't" }
      (by decide) (by decide)).mpr
  decide

end Output

end RustyIce
