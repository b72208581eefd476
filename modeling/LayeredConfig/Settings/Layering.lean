/-
This file lays settings over each other.

A setting that the upper layer gives replaces the one below it, and lists are replaced as a whole.
Only the additional profiles grow: those of the upper layer come after those below it, without the
ones that are there already.
-/

import LayeredConfig.Settings.Basic

namespace LayeredConfig

namespace ProfileSettings

/-- The profiles of a list, and after them those of another that are not among them yet. -/
def extended : List String → List String → List String
  | profiles, [] => profiles
  | profiles, profile :: rest =>
    if profiles.contains profile then extended profiles rest
    else extended (profiles ++ [profile]) rest

def overlay (lower upper : ProfileSettings) : ProfileSettings :=
  { active := upper.active.or lower.active
    fallback := upper.fallback.or lower.fallback
    additional :=
      match upper.additional with
      | none => lower.additional
      | some profiles => some (extended (lower.additional.getD []) profiles) }

end ProfileSettings

namespace Settings

/-- The settings of one layer under another. -/
def overlay (lower upper : Settings) : Settings :=
  { onMissing := upper.onMissing.or lower.onMissing
    profiles :=
      match lower.profiles, upper.profiles with
      | some below, some above => some (below.overlay above)
      | none, above => above
      | below, none => below
    baseDirectory := upper.baseDirectory.or lower.baseDirectory
    roots := upper.roots.or lower.roots
    imports := upper.imports.or lower.imports }

/-- The settings of several layers, the lowest first. -/
def overlayAll (layers : List Settings) : Settings :=
  layers.foldl overlay empty

end Settings

end LayeredConfig
