import RedshiftOdbc.Library.Words
import Mathlib.Data.List.Infix

/-!
# Copying a value to the application's buffer

The copy functions behind the arms of `convertSQLDataToCData`.  Three of them
keep their place in a value that does not fit, counted in the units they write;
the others start over with every call.  Bytes and wide characters are numbers,
and the terminator is not part of what is written.
-/

namespace RedshiftOdbc.Convert

open RedshiftOdbc.Words

inductive SqlReturn where
  | success
  | successWithInfo
  | error
  | noData
  deriving DecidableEq, Repr

/-- What a copy leaves: its code, the units written, `*pcbLenInd` where it is set, and the offset. -/
structure Copied where
  rc : SqlReturn
  written : List Nat
  indicator : Option Int
  offset : Int
  deriving DecidableEq, Repr

/-- `copyStrDataBigLen` with a source that is not null.  The room is an `int`. -/
def copyStrDataBigLen (text : List Nat) (cbLen offset : Int) : Copied :=
  if cbLen < 0 then ⟨.error, [], none, offset⟩
  else if text = [] then
    ⟨if 0 < cbLen then .success else .successWithInfo, [], some 0, 0⟩
  else if text.length ≤ offset then ⟨.success, [], none, 0⟩
  else
    let remaining := text.length - offset
    let copyLen := if 0 < cbLen then max 0 (min remaining (wrap 4 (cbLen - 1))) else 0
    let written := (text.drop offset.toNat).take copyLen.toNat
    if copyLen < remaining then ⟨.successWithInfo, written, some remaining, offset + copyLen⟩
    else ⟨.success, written, some remaining, 0⟩

/--
`copyWStrDataBigLen` for a text of `bytesLen` bytes and the wide characters it
converts to.  No wide character for some bytes is a failed conversion.
-/
def copyWStrDataBigLen (charSize bytesLen : Nat) (units : List Nat) (cbLen offset : Int) :
    Copied :=
  let cchLen := wrap 4 (cbLen / charSize)
  if cbLen < 0 then ⟨.error, [], none, offset⟩
  else if bytesLen = 0 then
    ⟨if 0 < cchLen then .success else .successWithInfo, [], some 0, 0⟩
  else if units = [] then ⟨.error, [], none, offset⟩
  else if offset < 0 ∨ units.length ≤ offset then ⟨.success, [], some 0, 0⟩
  else
    let remaining := units.length - offset
    let copyChars := max 0 (min remaining (if 0 < cchLen then cchLen - 1 else 0))
    let written := (units.drop offset.toNat).take copyChars.toNat
    if copyChars < remaining then
      ⟨.successWithInfo, written, some (remaining * charSize), offset + copyChars⟩
    else ⟨.success, written, some (remaining * charSize), 0⟩

def hexToBinary (digit : Nat) : Nat :=
  if 97 ≤ digit ∧ digit ≤ 102 then digit - 87
  else if 65 ≤ digit ∧ digit ≤ 70 then digit - 55
  else if 48 ≤ digit ∧ digit ≤ 57 then digit - 48
  else 0

def hexDecode : List Nat → List Nat
  | higher :: lower :: rest => (hexToBinary higher * 16 + hexToBinary lower) :: hexDecode rest
  | _ => []

/-- `copyHexToBinaryDataBigLen`.  The offset counts bytes, two digits each. -/
def copyHexToBinaryDataBigLen (text : List Nat) (cbLen offset : Int) : Copied :=
  let len : Int := text.length - 2 * offset
  let bytes := hexDecode (text.drop (2 * offset).toNat)
  if len % 2 = 1 then ⟨.error, [], some len, 0⟩
  else if 0 < len then
    if len / 2 ≤ cbLen then ⟨.success, bytes, some (len / 2), 0⟩
    else ⟨.successWithInfo, bytes.take cbLen.toNat, some (len / 2), offset + cbLen⟩
  else ⟨.success, [], some len, 0⟩

/-- `copyBinaryDataBigLen`: with a terminator, although the bytes are not a text. -/
def copyBinaryDataBigLen (bytes : List Nat) (cbLen offset : Int) : Copied :=
  if bytes = [] ∨ bytes.length < cbLen then ⟨.success, bytes, some bytes.length, offset⟩
  else ⟨.successWithInfo, bytes.take (cbLen - 1).toNat, some bytes.length, offset⟩

def hexDigit (value : Nat) : Nat := if value < 10 then 48 + value else 55 + value

def hexEncode (bytes : List Nat) : List Nat :=
  bytes.flatMap fun byte => [hexDigit (byte / 16 % 16), hexDigit (byte % 16)]

/-- `copyBinaryToHexDataBigLen`.  An odd length counts as the even one below it. -/
def copyBinaryToHexDataBigLen (bytes : List Nat) (cbLen offset : Int) : Copied :=
  let even := cbLen - cbLen % 2
  if bytes = [] then ⟨.success, [], some 0, offset⟩
  else if 2 * bytes.length < even then ⟨.success, hexEncode bytes, some (2 * bytes.length), offset⟩
  else ⟨.successWithInfo, (hexEncode bytes).take even.toNat, some (2 * bytes.length), offset⟩

/-- `copyWBinaryDataBigLen`.  Without room for a wide character it reports success. -/
def copyWBinaryDataBigLen (charSize : Nat) (bytes : List Nat) (cbLen offset : Int) : Copied :=
  let cchCap := if 0 < cbLen then cbLen / charSize else 0
  let need : Int := bytes.length * charSize
  if cchCap = 0 then ⟨.success, [], some need, offset⟩
  else if cchCap - 1 < bytes.length then
    ⟨.successWithInfo, bytes.take (cchCap - 1).toNat, some need, offset⟩
  else ⟨.success, bytes, some need, offset⟩

/-- `copyWBinaryToHexDataBigLen`, which writes whole pairs of digits. -/
def copyWBinaryToHexDataBigLen (charSize : Nat) (bytes : List Nat) (cbLen offset : Int) :
    Copied :=
  let capChars := if 0 < cbLen then cbLen / charSize else 0
  let need : Int := 2 * bytes.length * charSize
  if capChars = 0 then ⟨.success, [], some need, offset⟩
  else
    let usable := min (capChars - 1) (2 * bytes.length)
    let usable := usable - usable % 2
    ⟨if usable < 2 * bytes.length then .successWithInfo else .success,
      (hexEncode bytes).take usable.toNat, some need, offset⟩

/-- `snprintf` and the printing functions: success, whatever fits. -/
def printValue (text : List Nat) (cbLen offset : Int) : Copied :=
  ⟨.success, text.take (cbLen - 1).toNat, some text.length, offset⟩

/-- A truth value as one character, or as its text if the buffer is empty. -/
def copyBoolean (digit : Nat) (text : List Nat) (cbLen offset : Int) : Copied :=
  if 0 < cbLen then ⟨.success, [digit], some 1, offset⟩
  else copyStrDataBigLen text cbLen offset

/--
The arm of `convertSQLDataToCData` that the type of a column, the C type and the
format of the value select, with the text or the bytes it hands to a copy
function.
-/
inductive Arm where
  | chars (text : List Nat)
  | wideChars (bytesLen : Nat) (units : List Nat)
  | hexBinary (text : List Nat)
  | binary (bytes : List Nat)
  | binaryHex (bytes : List Nat)
  | wideBinary (bytes : List Nat)
  | wideBinaryHex (bytes : List Nat)
  | printed (text : List Nat)
  | boolean (digit : Nat) (text : List Nat)
  | fixed (bytes : List Nat)
  | failing
  deriving DecidableEq, Repr

namespace Arm

def copy (charSize : Nat) (cbLen offset : Int) : Arm → Copied
  | chars text => copyStrDataBigLen text cbLen offset
  | wideChars bytesLen units => copyWStrDataBigLen charSize bytesLen units cbLen offset
  | hexBinary text => copyHexToBinaryDataBigLen text cbLen offset
  | binary bytes => copyBinaryDataBigLen bytes cbLen offset
  | binaryHex bytes => copyBinaryToHexDataBigLen bytes cbLen offset
  | wideBinary bytes => copyWBinaryDataBigLen charSize bytes cbLen offset
  | wideBinaryHex bytes => copyWBinaryToHexDataBigLen charSize bytes cbLen offset
  | printed text => printValue text cbLen offset
  | boolean digit text => copyBoolean digit text cbLen offset
  | fixed bytes => ⟨.success, bytes, some bytes.length, offset⟩
  | failing => ⟨.error, [], none, offset⟩

def value : Arm → List Nat
  | chars text => text
  | wideChars _ units => units
  | hexBinary text => hexDecode text
  | binary bytes => bytes
  | binaryHex bytes => hexEncode bytes
  | wideBinary bytes => bytes
  | wideBinaryHex bytes => hexEncode bytes
  | printed text => text
  | boolean digit _ => [digit]
  | fixed bytes => bytes
  | failing => []

end Arm

end RedshiftOdbc.Convert
