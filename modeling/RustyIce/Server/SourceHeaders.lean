import RustyIce.Core.Mount
import RustyIce.Server.RequestBody

/-
  The identity a source gives its stream in the headers of
  its request.

  Main declarations:
    * `readString`, `readPublic`, `readBitrate`
    * `parseSourceOverlay`
-/

------------------------------------------------------------
-- One Field
------------------------------------------------------------

namespace RustyIce

open Library.SocketText

/-
  The text of a header, or of another one only where the
  first is missing, without the white space around it.
-/
def eitherHeader
    (headers : HeaderMap)
    (primary fallback : String) : Option (List Char) :=
  ((headers.find? (·.1 = primary)).or
      (headers.find? (·.1 = fallback))).bind fun header =>
    (visibleText header.2).map trimText

def readString
    (headers : HeaderMap)
    (primary fallback : String) : Option String :=
  (eitherHeader headers primary fallback).bind fun trimmed =>
    if trimmed = [] then none
    else some (String.ofList trimmed)

def readPublic (headers : HeaderMap) : Option Bool :=
  (eitherHeader headers "ice-public" "icy-pub").bind
    fun raw =>
      if raw = ['1'] then some true
      else if raw = ['0'] then some false
      else none

/- `u32::from_str`. -/
def u32FromText (text : List Char) : Option Nat :=
  (u64FromText text).filter (· ≤ u32Max)

def readBitrate (headers : HeaderMap) : Option Nat :=
  (eitherHeader headers "ice-bitrate" "icy-br").bind
    u32FromText

end RustyIce

------------------------------------------------------------
-- The Overlay
------------------------------------------------------------

namespace RustyIce

def parseSourceOverlay
    (headers : HeaderMap) : SourceOverlay where
  name := readString headers "ice-name" "icy-name"
  description :=
    readString headers "ice-description" "icy-description"
  genre := readString headers "ice-genre" "icy-genre"
  url := readString headers "ice-url" "icy-url"
  isPublic := readPublic headers
  audioInfo :=
    readString headers "ice-audio-info" "icy-audioinfo"
  bitrateKbps := readBitrate headers

end RustyIce
