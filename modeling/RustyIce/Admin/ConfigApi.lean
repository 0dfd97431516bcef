import RustyIce.Core.Config

/-
  The configuration endpoints: what each section's save puts
  into a configuration.

  A patch is what a handler is left with once it has read
  the request body and kept the secrets the body leaves out.
  Laid over a configuration, it replaces its section.

  Main declarations:
    * `ConfigSection` and `SectionPatch`
    * `SectionPatch.overlay` and its laws
-/

------------------------------------------------------------
-- Sections And Patches
------------------------------------------------------------

namespace RustyIce

inductive ConfigSection where
| server
| transcode
| mounts
| users
| autodjs
| relays
deriving DecidableEq, Repr

/- An absent source password leaves the current one alone. -/
structure ServerPatch where
  server : ServerConfig
  logging : LoggingConfig
  limits : LimitsConfig
  sourcePassword : Option String
deriving DecidableEq, Repr

inductive SectionPatch where
| server (patch : ServerPatch)
| transcode (transcode : Option TranscodeConfig)
| mounts (mounts : List MountConfig)
| users (users : List UserConfig)
| autodjs (autodjs : List AutoDjConfig)
| relays (relays : List RelayConfig)
deriving DecidableEq, Repr

namespace SectionPatch

def target : SectionPatch → ConfigSection
| .server _ => .server
| .transcode _ => .transcode
| .mounts _ => .mounts
| .users _ => .users
| .autodjs _ => .autodjs
| .relays _ => .relays

/- The configuration with the section of a patch replaced. -/
def overlay
    (patch : SectionPatch)
    (cfg : Config) : Config :=
  match patch with
  | .server p =>
      { cfg with
        server := p.server
        logging := p.logging
        limits := p.limits
        auth :=
          { cfg.auth with
            sourcePassword :=
              p.sourcePassword <|> cfg.auth.sourcePassword } }
  | .transcode t => { cfg with transcode := t }
  | .mounts ms => { cfg with mounts := ms }
  | .users us =>
      { cfg with auth := { cfg.auth with users := us } }
  | .autodjs as => { cfg with autodjs := as }
  | .relays rs => { cfg with relays := rs }

/- The section has the value of the patch. -/
def ContainedIn
    (patch : SectionPatch)
    (cfg : Config) : Prop :=
  patch.overlay cfg = cfg

/- Saving the same section value twice is saving it once. -/
theorem overlay_overlay
    (patch : SectionPatch)
    (cfg : Config) :
    patch.overlay (patch.overlay cfg) =
      patch.overlay cfg := by
  cases patch with
  | server p =>
      cases hPassword : p.sourcePassword <;>
        simp [overlay, hPassword]
  | transcode t => rfl
  | mounts ms => rfl
  | users us => rfl
  | autodjs as => rfl
  | relays rs => rfl

/- Saves of different sections do not interfere. -/
theorem overlay_comm
    {first second : SectionPatch}
    (hOther : first.target ≠ second.target)
    (cfg : Config) :
    first.overlay (second.overlay cfg) =
      second.overlay (first.overlay cfg) := by
  cases first <;> cases second <;>
    first
    | exact absurd rfl hOther
    | rfl

/- It keeps it when another section is saved. -/
theorem ContainedIn.overlay_other
    {patch other : SectionPatch}
    {cfg : Config}
    (hIn : patch.ContainedIn cfg)
    (hOther : patch.target ≠ other.target) :
    patch.ContainedIn (other.overlay cfg) := by
  unfold ContainedIn at hIn ⊢
  rw [overlay_comm hOther, hIn]

end SectionPatch

end RustyIce
