import RustyIce.Server.ConfigReload

/-
  The pieces of the source upload handler that are pure
  functions of the server's state: which settings apply to a
  path, whether a codec is taken, and the mount created for
  a path nobody registered.

  Main declarations:
    * `mountTranscode`, `acceptsCodec`
    * `createDynamicMount`
-/

------------------------------------------------------------
-- Settings Of A Path
------------------------------------------------------------

namespace RustyIce

/-
  The transcode settings in effect for a path; only the
  `[[mounts]]` section is consulted before the global block.
-/
def mountTranscode
    (cfg : Config)
    (mountPath : String) : Option TranscodeConfig :=
  match cfg.mounts.find? fun m => m.path = mountPath with
  | some mc => cfg.effectiveTranscode mc
  | none => cfg.transcode

/- A transcoding path takes MP3 and Vorbis sources only. -/
def acceptsCodec
    (cfg : Config)
    (mountPath : String)
    (codec : CodecId) : Bool :=
  (mountTranscode cfg mountPath).isNone ||
    codec = .MP3 || codec = .VORBIS

end RustyIce

------------------------------------------------------------
-- Dynamic Mounts
------------------------------------------------------------

namespace RustyIce

/- What a source that names an unknown path gets. -/
def dynamicInfo
    (mountPath : String)
    (codec : CodecId) : MountInfo where
  path := mountPath
  codec := codec
  sourcePassword := ""
  maxListeners := none
  metadata := .default

namespace ServerState

def createDynamicMount
    (s : ServerState)
    (mountPath : String)
    (codec : CodecId) : ServerState :=
  s.registerMount (dynamicInfo mountPath codec)
    (busSize s.config none)

theorem view_createDynamicMount_self
    (s : ServerState)
    (mountPath : String)
    (codec : CodecId) :
    (s.createDynamicMount mountPath codec).view mountPath =
      (s.view mountPath).withMount (some s.nextMount) :=
  view_registerMount_self s (dynamicInfo mountPath codec) _

theorem view_createDynamicMount_other
    (s : ServerState)
    {mountPath : String}
    (codec : CodecId)
    {path : String}
    (hOther : path ≠ mountPath) :
    (s.createDynamicMount mountPath codec).view path =
      s.view path :=
  view_registerMount_other s _ hOther

end ServerState

end RustyIce
