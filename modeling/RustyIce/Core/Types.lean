/-
  Stream types shared by every component: codec names,
  encoded packets, and the byte view of text.

  Payload sizes and byte values are kept; presentation
  times are not, since nothing modelled reads them.

  Main declarations:
    * `Bytes`, `utf8Bytes`, `utf8Text`, `trimText`
    * `CodecId`, `CodecInfo`
    * `EncodedPacket`, `AudioPayload`, `StreamPacket`
-/

------------------------------------------------------------
-- Bytes And Text
------------------------------------------------------------

namespace RustyIce

/- A byte string. -/
abbrev Bytes := List UInt8

/- The UTF-8 bytes of a text, as `str::as_bytes` gives. -/
def utf8Bytes (s : String) : Bytes :=
  s.toList.flatMap String.utf8EncodeChar

@[simp] theorem utf8Bytes_append (s t : String) :
    utf8Bytes (s ++ t) = utf8Bytes s ++ utf8Bytes t := by
  simp [utf8Bytes]

/- The text bytes encode, as `str::from_utf8` finds it. -/
def utf8Text (bytes : Bytes) : Option (List Char) :=
  bytes.toByteArray.utf8Decode?.map Array.toList

theorem utf8Text_encode (text : List Char) :
    utf8Text (text.flatMap String.utf8EncodeChar) =
      some text := by
  have hDecode := List.utf8Decode?_utf8Encode (l := text)
  unfold List.utf8Encode at hDecode
  rw [utf8Text, hDecode, Option.map_some, List.toList_toArray]

/- The white space of Unicode. -/
def isWhiteSpace (c : Char) : Bool :=
  let code := c.toNat
  (9 ≤ code && code ≤ 13) || code = 32 || code = 0x85 ||
    code = 0xA0 || code = 0x1680 ||
      (0x2000 ≤ code && code ≤ 0x200A) || code = 0x2028 ||
        code = 0x2029 || code = 0x202F || code = 0x205F ||
          code = 0x3000

/- Text without the white space around it, as `str::trim`. -/
def trimText (text : List Char) : List Char :=
  ((text.dropWhile isWhiteSpace).reverse.dropWhile
    isWhiteSpace).reverse

/- A text of `n` equal ASCII characters has `n` bytes. -/
theorem length_utf8Bytes_replicate
    (n : Nat)
    {c : Char}
    (hAscii : c.utf8Size = 1) :
    (utf8Bytes (String.ofList (List.replicate n c))).length =
      n := by
  simp [utf8Bytes, List.length_flatMap, hAscii]

end RustyIce

------------------------------------------------------------
-- Codecs
------------------------------------------------------------

namespace RustyIce

/- A codec identifier, named by its text. -/
structure CodecId where
  name : String
deriving DecidableEq, Repr

namespace CodecId

def MP3 : CodecId := ⟨"mp3"⟩
def OPUS : CodecId := ⟨"opus"⟩
def VORBIS : CodecId := ⟨"vorbis"⟩
def FLAC : CodecId := ⟨"flac"⟩
def AAC : CodecId := ⟨"aac"⟩
def WAV : CodecId := ⟨"wav"⟩

end CodecId

/- What a codec reads off the header of its data. -/
structure CodecInfo where
  id : CodecId
  sampleRate : Nat
  channels : Nat
  bitrateKbps : Option Nat
deriving DecidableEq, Repr

end RustyIce

------------------------------------------------------------
-- Packets
------------------------------------------------------------

namespace RustyIce

/- One chunk of encoded audio for a specific codec. -/
structure EncodedPacket where
  codec : CodecId
  data : Bytes
deriving DecidableEq, Repr

/- A decoded frame; its samples never reach a wire. -/
structure PcmFrame where
  sampleRate : Nat
  channels : Nat
deriving DecidableEq, Repr

/- The payload carried by a stream packet. -/
inductive AudioPayload where
| encoded (packet : EncodedPacket)
| decoded (frame : PcmFrame)
deriving DecidableEq, Repr

/- The unit that flows through a broadcast bus. -/
structure StreamPacket where
  payload : AudioPayload
  sequence : Nat
deriving DecidableEq, Repr

end RustyIce
