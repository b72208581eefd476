/-
This file checks settings before a resolution is run with them.

A name of a profile may hold no character with a meaning in lists or conditions. Paths may not be
empty, and locations may neither be empty nor come twice.
-/

import LayeredConfig.Settings.Basic

namespace LayeredConfig

open Text

namespace Settings

/-- The longest name of a profile, in bytes. -/
def profileNameLimit : Nat := 255

/-- Whether a character may not stand in the name of a profile. -/
def isReserved (c : Char) : Bool :=
  isBlank c || c = '\x00' || [',', '(', ')', '&', '|', '!'].contains c

/-- What is wrong with the name of a profile. -/
def profileFault? (name : String) : Option String :=
  if isBlankText name then some "Profile name cannot be empty"
  else if name.utf8ByteSize > profileNameLimit then
    some "Profile name cannot exceed 255 characters"
  else
    match name.toList.find? isReserved with
    | some c =>
      some ("Profile name '" ++ name ++ "' contains invalid character " ++ quotedChar c)
    | none => none

def pathFault? (path : String) : Option String :=
  if path = "" then some "Path cannot be empty" else none

/-- Fails with what is wrong with the first faulty item of a list, which the field numbers. -/
def checkItems (field : String) (fault? : String → Option String) :
    List (String × Nat) → Except Error Unit
  | [] => .ok ()
  | (item, index) :: rest =>
    match fault? item with
    | some reason => .error (.badSetting (elementName field index) reason)
    | none => checkItems field fault? rest

def checkList (field : String) (fault? : String → Option String) :
    Option (List String) → Except Error Unit
  | none => .ok ()
  | some items => checkItems field fault? items.zipIdx

/-- Checks locations, where `seen` are those that came before. -/
def checkImports (seen : List String) : List (String × Nat) → Except Error Unit
  | [] => .ok ()
  | (declared, index) :: rest =>
    let field := elementName "imports" index
    match Location.read declared with
    | .error cause => .error (.badSetting field cause.message)
    | .ok _ =>
      if seen.contains (trimmed declared) then
        .error (.badSetting field ("Duplicate import '" ++ declared ++ "'"))
      else checkImports (trimmed declared :: seen) rest

def checkProfiles (profiles : ProfileSettings) : Except Error Unit := do
  checkList "profiles.active" profileFault? profiles.active
  checkList "profiles.default" profileFault? profiles.fallback
  checkList "profiles.additional" profileFault? profiles.additional

def checkBaseDirectory : Option String → Except Error Unit
  | none => .ok ()
  | some path =>
    match pathFault? path with
    | some reason => .error (.badSetting "base_dir" reason)
    | none => .ok ()

/-- Fails with the first fault of the settings. -/
def check (settings : Settings) : Except Error Unit := do
  match settings.profiles with
  | some profiles => checkProfiles profiles
  | none => pure ()
  checkBaseDirectory settings.baseDirectory
  checkList "resource_roots" pathFault? settings.roots
  checkImports [] settings.importList.zipIdx

end Settings

end LayeredConfig
