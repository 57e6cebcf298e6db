import VhalCore.Core.Hexadecimal

/-!
# Byte arrays of a debug command

A byte array is given to a debug command as a hexadecimal string. A string is the list of its
bytes.
-/

namespace VhalCore.FakeHardware

/-- The errors of `parseHexString`. -/
inductive HexError where
  /-- `invalid hex string: {}, should have even size` -/
  | oddSize (s : List UInt8)
  /-- `hex string should start with "0x", got {}` -/
  | noPrefix (s : List UInt8)
  /-- `invalid character {} in hex string {}` -/
  | invalidCharacter (c : UInt8) (subs : List UInt8)
  deriving DecidableEq, Repr

/-- The text `0x`. -/
def hexPrefix : List UInt8 := [48, 120]

/-- The loop over the characters of `subs`. A digit that is not a high one is added to the last
byte. -/
def parseDigits (subs : List UInt8) :
    List UInt8 → Bool → List UInt8 → Except HexError (List UInt8)
  | [], _, bytes => .ok bytes
  | c :: rest, highDigit, bytes =>
      match Hex.digitValue? c with
      | none => .error (.invalidCharacter c subs)
      | some v =>
          if highDigit then parseDigits subs rest (!highDigit) (bytes ++ [v * 16])
          else parseDigits subs rest (!highDigit) (bytes.modify (bytes.length - 1) (· + v))

/-- Reads bytes from a text `0x…` with two digits for each. -/
def parseHexString (s : List UInt8) : Except HexError (List UInt8) :=
  if s.length % 2 ≠ 0 then .error (.oddSize s)
  else if !hexPrefix.isPrefixOf s then .error (.noPrefix s)
  else
    let subs := (s.drop 2).map Hex.toLowerAscii
    parseDigits subs subs true []

end VhalCore.FakeHardware
