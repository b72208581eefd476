/-
This file writes completion scripts, and tells how to install them.

A script offers the names of the commands and the global flags; it is one line for every shell.
-/

import LayeredConfig.CommandLine.Arguments

namespace LayeredConfig

namespace Shell

/-- How to install the script. -/
def installation : Shell → List String
  | bash =>
    ["#   stratum completions bash > ~/.local/share/bash-completion/completions/stratum",
     "# Or source it directly in ~/.bashrc:",
     "#   eval \"$(stratum completions bash)\""]
  | zsh =>
    ["#   stratum completions zsh > ~/.zsh/completions/_stratum",
     "# Make sure ~/.zsh/completions is in your $fpath"]
  | fish =>
    ["#   stratum completions fish > ~/.config/fish/completions/stratum.fish",
     "# Or add to config.fish:",
     "#   stratum completions fish | source"]
  | powershell => ["#   stratum completions powershell > $PROFILE"]
  | elvish => []

/-- What is told beside the script. -/
def instructions (shell : Shell) : List String :=
  ["# Generating " ++ shell.name ++ " completion script",
   "# Run the following command to enable completions:"] ++ shell.installation ++ [""]

/-- The words that a script offers. -/
def offeredWords : List String :=
  ArgumentRules.commandNames ++ ArgumentRules.ofProgram.flags.map fun flag => "--" ++ flag.word

/-- The words between quotes, with a separator between them. -/
def quotedWords (separator : String) : String :=
  String.intercalate separator (offeredWords.map fun word => "'" ++ word ++ "'")

def script : Shell → String
  | bash => "complete -W \"" ++ String.intercalate " " offeredWords ++ "\" stratum"
  | zsh => "compdef \"_arguments '*:word:(" ++ String.intercalate " " offeredWords ++ ")'\" stratum"
  | fish => "complete -c stratum -a \"" ++ String.intercalate " " offeredWords ++ "\""
  | powershell =>
    "Register-ArgumentCompleter -Native -CommandName stratum -ScriptBlock \x7b " ++
      quotedWords ", " ++ " \x7d"
  | elvish =>
    "set edit:completion:arg-completer[stratum] = \x7b |@words| put " ++ quotedWords " " ++ " \x7d"

end Shell

end LayeredConfig
