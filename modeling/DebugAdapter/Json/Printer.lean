import DebugAdapter.Json.Basic
import DebugAdapter.Json.Scan

namespace DebugAdapter.Json

def hexByte (n : Nat) : UInt8 :=
  (if n < 10 then 0x30 + n else 0x57 + n).toUInt8

def escapeByte (b : UInt8) : Bytes :=
  if b = 0x22 then [0x5C, 0x22]
  else if b = 0x5C then [0x5C, 0x5C]
  else if b = 0x08 then [0x5C, 0x62]
  else if b = 0x0C then [0x5C, 0x66]
  else if b = 0x0A then [0x5C, 0x6E]
  else if b = 0x0D then [0x5C, 0x72]
  else if b = 0x09 then [0x5C, 0x74]
  else if b < 0x20 then
    [0x5C, 0x75, 0x30, 0x30, hexByte (b.toNat / 16), hexByte (b.toNat % 16)]
  else [b]

def printString (s : String) : Bytes :=
  Byte.quote :: (Bytes.ofString s).flatMap escapeByte ++ [Byte.quote]

def printNat (n : Nat) : Bytes :=
  (Nat.toDigits 10 n).map fun c => c.toNat.toUInt8

def printInt : Int → Bytes
  | .ofNat n => printNat n
  | .negSucc n => Byte.minus :: printNat (n + 1)

def printNumber : Number → Bytes
  | .int i => printInt i
  | .float x => Bytes.ofString (String.ofList (numberLayout.text x))

def printBool (b : Bool) : Bytes :=
  if b then Word.yes else Word.no

mutual

def print : Json → Bytes
  | .null => Word.null
  | .bool b => printBool b
  | .number n => printNumber n
  | .string s => printString s
  | .array [] => [Byte.leftBracket, Byte.rightBracket]
  | .array (item :: items) => Byte.leftBracket :: print item ++ printItems items
  | .record [] => [Byte.leftBrace, Byte.rightBrace]
  | .record ((name, value) :: fields) =>
    Byte.leftBrace :: printString name ++ Byte.colon :: print value ++ printFields fields

/-- The items after the first one, and the closing bracket. -/
def printItems : List Json → Bytes
  | [] => [Byte.rightBracket]
  | item :: items => Byte.comma :: print item ++ printItems items

def printFields : List (String × Json) → Bytes
  | [] => [Byte.rightBrace]
  | (name, value) :: fields =>
    Byte.comma :: printString name ++ Byte.colon :: print value ++ printFields fields

end

def printRecord (fields : Fields) : Bytes :=
  print (.record fields)

end DebugAdapter.Json
