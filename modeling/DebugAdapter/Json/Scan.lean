import DebugAdapter.Bytes
import DebugAdapter.Json.Error

namespace DebugAdapter.Json

namespace Word

/-- `null` -/
def null : Bytes := [0x6E, 0x75, 0x6C, 0x6C]

/-- `true` -/
def yes : Bytes := [0x74, 0x72, 0x75, 0x65]

/-- `false` -/
def no : Bytes := [0x66, 0x61, 0x6C, 0x73, 0x65]

end Word

abbrev Read (α : Type) := Except ReadError (α × Bytes)

namespace Byte

def quote : UInt8 := 0x22
def backslash : UInt8 := 0x5C
def comma : UInt8 := 0x2C
def colon : UInt8 := 0x3A
def minus : UInt8 := 0x2D
def plus : UInt8 := 0x2B
def point : UInt8 := 0x2E
def leftBracket : UInt8 := 0x5B
def rightBracket : UInt8 := 0x5D
def leftBrace : UInt8 := 0x7B
def rightBrace : UInt8 := 0x7D
def zero : UInt8 := 0x30
def unicodeMark : UInt8 := 0x75

/-- Space, tab, line feed and carriage return. -/
def isBlank (b : UInt8) : Bool :=
  b = 0x20 || b = 0x09 || b = 0x0A || b = 0x0D

def isDigit (b : UInt8) : Bool :=
  0x30 ≤ b && b ≤ 0x39

def digit (b : UInt8) : Nat :=
  b.toNat - 0x30

def hexDigit? (b : UInt8) : Option Nat :=
  if isDigit b then some (b.toNat - 0x30)
  else if 0x61 ≤ b ∧ b ≤ 0x66 then some (b.toNat - 0x57)
  else if 0x41 ≤ b ∧ b ≤ 0x46 then some (b.toNat - 0x37)
  else none

def isExponentMark (b : UInt8) : Bool :=
  b = 0x65 || b = 0x45

end Byte

def skipBlanks (bytes : Bytes) : Bytes :=
  bytes.dropWhile Byte.isBlank

def readWord : Bytes → Bytes → Except ReadError Bytes
  | [], bytes => .ok bytes
  | _ :: _, [] => .error .endOfValue
  | w :: word, b :: bytes => if w = b then readWord word bytes else .error .expectedWord

/-- What `\` and this byte stand for, apart from `\u`. -/
def escaped? (b : UInt8) : Option UInt8 :=
  if b = 0x22 ∨ b = 0x5C ∨ b = 0x2F then some b
  else if b = 0x62 then some 0x08
  else if b = 0x66 then some 0x0C
  else if b = 0x6E then some 0x0A
  else if b = 0x72 then some 0x0D
  else if b = 0x74 then some 0x09
  else none

def codeUnit? (a b c d : UInt8) : Option Nat := do
  let a ← Byte.hexDigit? a
  let b ← Byte.hexDigit? b
  let c ← Byte.hexDigit? c
  let d ← Byte.hexDigit? d
  return ((a * 16 + b) * 16 + c) * 16 + d

/-- What is wrong when no escape follows the first half of a pair. -/
def unpairedError : Bytes → ReadError
  | [] => .endOfString
  | [b] => if b = Byte.backslash then .endOfString else .unfinishedEscape
  | b :: u :: _ =>
    if b = Byte.backslash ∧ u = Byte.unicodeMark then .endOfString else .unfinishedEscape

/-- Puts the bytes of a code point before bytes that are kept last one first. -/
def pushCodePoint (n : Nat) (done : Bytes) : Bytes :=
  (String.utf8EncodeChar (Char.ofNat n)).reverse ++ done

/-- Reads the bytes of a string up to the quote that closes it; `done` holds those so far, last one
first. -/
def readStringFrom (done : Bytes) : Bytes → Read Bytes
  | [] => .error .endOfString
  | b :: rest =>
    if b = Byte.quote then .ok (done.reverse, rest)
    else if b = Byte.backslash then
      match rest with
      | [] => .error .endOfString
      | e :: rest =>
        if e = Byte.unicodeMark then
          match rest with
          | h₁ :: h₂ :: h₃ :: h₄ :: rest =>
            match codeUnit? h₁ h₂ h₃ h₄ with
            | none => .error .badEscape
            | some unit =>
              if 0xDC00 ≤ unit ∧ unit ≤ 0xDFFF then .error .loneSurrogate
              else if 0xD800 ≤ unit ∧ unit ≤ 0xDBFF then
                match rest with
                | b :: u :: l₁ :: l₂ :: l₃ :: l₄ :: rest =>
                  if b = Byte.backslash ∧ u = Byte.unicodeMark then
                    match codeUnit? l₁ l₂ l₃ l₄ with
                    | none => .error .badEscape
                    | some low =>
                      if 0xDC00 ≤ low ∧ low ≤ 0xDFFF then
                        readStringFrom
                          (pushCodePoint (0x10000 + (unit - 0xD800) * 0x400 + (low - 0xDC00)) done)
                          rest
                      else .error .loneSurrogate
                  else .error .unfinishedEscape
                | rest => .error (unpairedError rest)
              else readStringFrom (pushCodePoint unit done) rest
          | _ => .error .endOfString
        else
          match escaped? e with
          | none => .error .badEscape
          | some c => readStringFrom (c :: done) rest
    else if b < 0x20 then .error .controlCharacter
    else readStringFrom (b :: done) rest

def readString (bytes : Bytes) : Read String :=
  match readStringFrom [] bytes with
  | .error e => .error e
  | .ok (text, rest) =>
    match text.toString? with
    | none => .error .badCodePoint
    | some s => .ok (s, rest)

inductive Next where
  | closed (rest : Bytes)
  | more (rest : Bytes)

/-- Goes to the next item of a list; `first` holds at the opening bracket. -/
def nextItem (first : Bool) (bytes : Bytes) : Except ReadError Next :=
  match skipBlanks bytes with
  | [] => .error .endOfList
  | b :: rest =>
    if b = Byte.rightBracket then .ok (.closed rest)
    else if first then .ok (.more (b :: rest))
    else if b = Byte.comma then
      match skipBlanks rest with
      | [] => .error .endOfValue
      | c :: rest =>
        if c = Byte.rightBracket then .error .trailingComma else .ok (.more (c :: rest))
    else .error .expectedListEnd

def nextField (first : Bool) (bytes : Bytes) : Except ReadError Next :=
  match skipBlanks bytes with
  | [] => .error .endOfObject
  | b :: rest =>
    if b = Byte.rightBrace then .ok (.closed rest)
    else if first then
      if b = Byte.quote then .ok (.more rest) else .error .keyNotString
    else if b = Byte.comma then
      match skipBlanks rest with
      | [] => .error .endOfValue
      | c :: rest =>
        if c = Byte.quote then .ok (.more rest)
        else if c = Byte.rightBrace then .error .trailingComma
        else .error .keyNotString
    else .error .expectedObjectEnd

def skipColon (bytes : Bytes) : Except ReadError Bytes :=
  match skipBlanks bytes with
  | [] => .error .endOfObject
  | b :: rest => if b = Byte.colon then .ok rest else .error .expectedColon

def expectEnd (bytes : Bytes) : Except ReadError Unit :=
  match skipBlanks bytes with
  | [] => .ok ()
  | _ :: _ => .error .trailingCharacters

end DebugAdapter.Json
