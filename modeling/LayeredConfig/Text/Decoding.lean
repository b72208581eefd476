/-
This file decodes UTF-8 byte by byte, and tells where bytes are no text.

A sequence that breaks off, or a byte that begins none, stands for one unknown character; the byte
at which a sequence breaks off is read again as a beginning.
-/

namespace LayeredConfig.Text

/-- A sequence that has begun: the code so far, and the ranges of the bytes to come. -/
structure Pending where
  code : Nat
  ranges : List (Nat × Nat)

/-- What a byte is that no sequence is waiting for. -/
inductive Opening where
  | whole (c : Char)
  | begun (pending : Pending)
  | invalid

/-- The range of a byte that continues a sequence. -/
def continuation : Nat × Nat := (0x80, 0xBF)

def openWith (byte : Nat) : Opening :=
  if byte < 0x80 then .whole (Char.ofNat byte)
  else if byte < 0xC2 then .invalid
  else if byte < 0xE0 then .begun ⟨byte - 0xC0, [continuation]⟩
  else if byte = 0xE0 then .begun ⟨0, [(0xA0, 0xBF), continuation]⟩
  else if byte = 0xED then .begun ⟨0xD, [(0x80, 0x9F), continuation]⟩
  else if byte < 0xF0 then .begun ⟨byte - 0xE0, [continuation, continuation]⟩
  else if byte = 0xF0 then .begun ⟨0, [(0x90, 0xBF), continuation, continuation]⟩
  else if byte < 0xF4 then .begun ⟨byte - 0xF0, [continuation, continuation, continuation]⟩
  else if byte = 0xF4 then .begun ⟨4, [(0x80, 0x8F), continuation, continuation]⟩
  else .invalid

/-- The characters of a list of bytes; `none` stands for bytes that are no text. -/
def decodeFrom : Option Pending → List UInt8 → List (Option Char)
  | none, [] => []
  | some _, [] => [none]
  | pending, byte :: rest =>
    let reopen := fun (_ : Unit) =>
      match openWith byte.toNat with
      | .whole c => some c :: decodeFrom none rest
      | .begun next => decodeFrom (some next) rest
      | .invalid => none :: decodeFrom none rest
    match pending with
    | none => reopen ()
    | some ⟨_, []⟩ => none :: reopen ()
    | some ⟨code, (first, last) :: ranges⟩ =>
      if first ≤ byte.toNat && byte.toNat ≤ last then
        let code := code * 64 + (byte.toNat - 0x80)
        if ranges.isEmpty then some (Char.ofNat code) :: decodeFrom none rest
        else decodeFrom (some ⟨code, ranges⟩) rest
      else none :: reopen ()

/-- A text as bytes gave it, with a replacement character for bytes that are no text. -/
structure Decoded where
  shown : String
  isText : Bool
  deriving DecidableEq, Repr

def decode (bytes : List UInt8) : Decoded :=
  let chars := decodeFrom none bytes
  ⟨String.ofList (chars.map (·.getD '\uFFFD')), chars.all (·.isSome)⟩

end LayeredConfig.Text
