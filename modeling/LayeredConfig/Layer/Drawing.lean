/-
This file draws a layer tree as indented text, one layer a line.

Children stand under their parent by phase, the strongest first. A line tells the state of a layer,
its name, its profile and condition, and whether it takes part.
-/

import LayeredConfig.Layer.Tree

namespace LayeredConfig

namespace Layer

def indent (depth : Nat) : String :=
  String.ofList (List.replicate (2 * depth) ' ')

/-- The line of a layer, without its indentation. -/
def line (known : Option Profiles) (layer : Layer) : String :=
  if layer.role.isRoot then layer.role.text
  else
    layer.role.text ++ " '" ++ layer.name ++ "'" ++
      (match layer.resource?.bind (·.profile) with
        | some profile => " profile=" ++ profile
        | none => "") ++
      (match layer.condition? with
        | some condition => " on-profile=" ++ condition.text
        | none => "") ++
      (if layer.isActive known then "" else " (inactive)")

mutual

/-- The lines of a layer and of everything below it. -/
def draw (known : Option Profiles) (depth : Nat) : Layer → String
  | node stamp revision role before after =>
    indent depth ++ (node stamp revision role before after).line known ++ "\n" ++
      drawPhase known role.isRoot depth .after after ++
      drawPhase known role.isRoot depth .before before

def drawPhase (known : Option Profiles) (underRoot : Bool) (depth : Nat) (phase : Phase) :
    Option (List Layer) → String
  | none => ""
  | some found =>
    if underRoot then drawAll known (depth + 1) found
    else indent depth ++ "  @" ++ phase.text ++ "\n" ++ drawAll known (depth + 2) found

def drawAll (known : Option Profiles) (depth : Nat) : List Layer → String
  | [] => ""
  | layer :: rest => drawAll known depth rest ++ draw known depth layer

end

end Layer

namespace LayerTree

def draw (tree : LayerTree) (known : Option Profiles) : String :=
  tree.root.draw known 0

end LayerTree

end LayeredConfig
