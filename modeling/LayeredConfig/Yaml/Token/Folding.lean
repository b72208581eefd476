/-
This file folds line breaks, as plain and quoted scalars do.

Blanks between two words on one line are kept. Blanks around line breaks are dropped; a single line
feed becomes a space, and of several breaks the first is dropped if it is a line feed.
-/

import LayeredConfig.Yaml.Cursor

namespace LayeredConfig.Yaml

/-- The blank space since the last word of a scalar; all texts are kept backwards. -/
structure Gap where
  /-- Blanks on the line of the word, before any break. -/
  blanks : List Char
  /-- Whether a break, or an escaped break, has come. -/
  broken : Bool
  /-- The first break that counts. -/
  firstBreak : List Char
  /-- The breaks after it. -/
  laterBreaks : List Char
  deriving Repr, Inhabited

namespace Gap

def none : Gap := ⟨[], false, [], []⟩

/-- A gap that an escaped break opens. -/
def escaped : Gap := ⟨[], true, [], []⟩

def isNone (gap : Gap) : Bool :=
  gap.blanks.isEmpty && !gap.broken

def addBlank (gap : Gap) (c : Char) : Gap :=
  if gap.broken then gap else { gap with blanks := c :: gap.blanks }

def addBreak (gap : Gap) (text : List Char) : Gap :=
  if gap.broken then { gap with laterBreaks := text ++ gap.laterBreaks }
  else ⟨[], true, text, gap.laterBreaks⟩

/-- What the gap reads as, backwards. -/
def folded (gap : Gap) : List Char :=
  if !gap.broken then gap.blanks
  else if gap.firstBreak = ['\n'] then
    if gap.laterBreaks.isEmpty then [' '] else gap.laterBreaks
  else gap.laterBreaks ++ gap.firstBreak

end Gap

end LayeredConfig.Yaml
