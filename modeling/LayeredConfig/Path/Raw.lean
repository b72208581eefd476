/-
This file treats paths whose bytes may be no text.

Such a path can be resolved part by part, since its slashes and dots are found all the same, but a
tilde is only looked for in text.
-/

import LayeredConfig.Path.Resolution
import LayeredConfig.Text.Decoding

namespace LayeredConfig

namespace Path

/-- The text of a path, which must be text throughout. -/
def textOf (path : Text.Decoded) : Except Error String :=
  if path.isText then .ok path.shown
  else .error (.badPath path.shown "path contains invalid UTF-8")

def expandTildeRaw (home : String) (path : Text.Decoded) : Except Error String := do
  expandTilde home (← textOf path)

def normalizeRaw (home : String) (workingDirectory : Except String String)
    (path : Text.Decoded) : Except Error String := do
  normalize home workingDirectory (← textOf path)

end Path

end LayeredConfig
