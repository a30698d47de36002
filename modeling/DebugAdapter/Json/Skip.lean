import DebugAdapter.Json.Scan

namespace DebugAdapter.Json

def skipString : Bytes → Except ReadError Bytes
  | [] => .error .endOfString
  | b :: rest =>
    if b = Byte.quote then .ok rest
    else if b = Byte.backslash then
      match rest with
      | [] => .error .endOfString
      | e :: rest =>
        if e = Byte.unicodeMark then
          match rest with
          | h₁ :: h₂ :: h₃ :: h₄ :: rest =>
            if (codeUnit? h₁ h₂ h₃ h₄).isSome then skipString rest else .error .badEscape
          | _ => .error .endOfString
        else if (escaped? e).isSome then skipString rest
        else .error .badEscape
    else if b < 0x20 then .error .controlCharacter
    else skipString rest

def skipDigits : Bytes → Except ReadError Bytes
  | [] => .error .badNumber
  | b :: rest => if Byte.isDigit b then .ok (rest.dropWhile Byte.isDigit) else .error .badNumber

def skipExponent : Bytes → Except ReadError Bytes
  | [] => .ok []
  | b :: rest =>
    if Byte.isExponentMark b then
      match rest with
      | [] => .error .badNumber
      | s :: rest =>
        if s = Byte.plus ∨ s = Byte.minus then skipDigits rest else skipDigits (s :: rest)
    else .ok (b :: rest)

def skipFraction : Bytes → Except ReadError Bytes
  | [] => .ok []
  | b :: rest =>
    if b = Byte.point then
      match skipDigits rest with
      | .error e => .error e
      | .ok rest => skipExponent rest
    else skipExponent (b :: rest)

def skipUnsigned : Bytes → Except ReadError Bytes
  | [] => .error .badNumber
  | b :: rest =>
    if b = Byte.zero then
      match rest with
      | [] => .ok []
      | c :: rest => if Byte.isDigit c then .error .badNumber else skipFraction (c :: rest)
    else if Byte.isDigit b then skipFraction (rest.dropWhile Byte.isDigit)
    else .error .badNumber

def skipScalar : Bytes → Except ReadError Bytes
  | [] => .error .endOfValue
  | b :: rest =>
    if b = Byte.quote then skipString rest
    else if b = Byte.minus then skipUnsigned rest
    else if Byte.isDigit b then skipUnsigned (b :: rest)
    else if Word.null.head? = some b then readWord Word.null.tail rest
    else if Word.yes.head? = some b then readWord Word.yes.tail rest
    else if Word.no.head? = some b then readWord Word.no.tail rest
    else .error .expectedValue

/-- What a value stands in. -/
inductive Frame where
  | list
  | object

namespace Frame

def endError : Frame → ReadError
  | list => .endOfList
  | object => .endOfObject

def close : Frame → UInt8
  | list => Byte.rightBracket
  | object => Byte.rightBrace

def expectedEnd : Frame → ReadError
  | list => .expectedListEnd
  | object => .expectedObjectEnd

end Frame

def skipName (bytes : Bytes) : Except ReadError Bytes :=
  match skipBlanks bytes with
  | [] => .error .endOfObject
  | b :: rest =>
    if b = Byte.quote then
      match skipString rest with
      | .error e => .error e
      | .ok rest => skipColon rest
    else .error .keyNotString

/-- Where skipping stands after a value: past everything, or before the next value inside `frames`.
-/
inductive AfterValue where
  | finished (rest : Bytes)
  | value (frames : List Frame) (rest : Bytes)

/-- Closes lists and objects until all are closed or one goes on. -/
def closeFrames : List Frame → Bytes → Except ReadError AfterValue
  | [], bytes => .ok (.finished bytes)
  | frame :: frames, bytes =>
    match skipBlanks bytes with
    | [] => .error frame.endError
    | b :: rest =>
      if b = frame.close then closeFrames frames rest
      else if b = Byte.comma then
        match frame with
        | .list => .ok (.value (frame :: frames) rest)
        | .object => (skipName rest).map (.value (frame :: frames))
      else .error frame.expectedEnd

/-- Goes past a scalar, past an empty list or object, or into one that has items. -/
def skipStep (frames : List Frame) (bytes : Bytes) : Except ReadError AfterValue :=
  match skipBlanks bytes with
  | [] => .error .endOfValue
  | b :: rest =>
    if b = Byte.leftBracket then
      match skipBlanks rest with
      | [] => .error .endOfList
      | c :: more =>
        if c = Byte.rightBracket then closeFrames frames more
        else .ok (.value (.list :: frames) (c :: more))
    else if b = Byte.leftBrace then
      match skipBlanks rest with
      | [] => .error .endOfObject
      | c :: more =>
        if c = Byte.rightBrace then closeFrames frames more
        else (skipName (c :: more)).map (.value (.object :: frames))
    else
      match skipScalar (b :: rest) with
      | .error e => .error e
      | .ok rest => closeFrames frames rest

/-- Goes past a value inside `frames` and past all that follows it up to the end of the outermost
one. Each step takes at least one byte, and `steps` bounds their number. -/
def skipFrames : Nat → List Frame → Bytes → Except ReadError Bytes
  | 0, _, _ => .error .endOfValue
  | steps + 1, frames, bytes =>
    match skipStep frames bytes with
    | .error e => .error e
    | .ok (.finished rest) => .ok rest
    | .ok (.value frames rest) => skipFrames steps frames rest

def skipValue (limit : Nat) (bytes : Bytes) : Except ReadError Bytes :=
  skipFrames limit [] bytes

end DebugAdapter.Json
