import DebugAdapter.Json.Basic
import DebugAdapter.Json.Scan

namespace DebugAdapter.Json

def maxSignificand : Nat := Nat.pow 2 64 - 1

def maxExponent : Nat := Nat.pow 2 31 - 1

def powerOfTen (n : Nat) : Float :=
  Float.ofScientific 1 false n

def signed (negative : Bool) (x : Float) : Float :=
  if negative then -x else x

/-- Divides by `10 ^ 308` until at most `10 ^ 308` is left to divide by, then by that. `rounds` is
how often that can be needed before nothing of the value remains. -/
def shrink : Nat → Float → Nat → Float
  | 0, x, _ => x
  | rounds + 1, x, places =>
    if places ≤ 308 then x / powerOfTen places
    else if x == 0.0 then x
    else shrink rounds (x / powerOfTen 308) (places - 308)

def scaled (negative : Bool) (significand : Nat) (exponent : Int) : Except ReadError Float :=
  let x := significand.toUInt64.toFloat
  if 0 ≤ exponent then
    if exponent ≤ 308 then
      let y := x * powerOfTen exponent.toNat
      if y.isInf then .error .numberOutOfRange else .ok (signed negative y)
    else if significand = 0 then .ok (signed negative x)
    else .error .numberOutOfRange
  else .ok (signed negative (shrink 4 x exponent.natAbs))

/-- Reads the digits of an exponent on from `exponent`. One past the largest makes zero of a
fraction and infinity of anything else. -/
def readExponentDigits (negative : Bool) (significand : Nat) (start : Int) (down : Bool)
    (exponent : Nat) : Bytes → Read Float
  | [] => (scaled negative significand (if down then start - exponent else start + exponent)).map
      (·, [])
  | b :: rest =>
    if Byte.isDigit b then
      if exponent * 10 + Byte.digit b ≤ maxExponent then
        readExponentDigits negative significand start down (exponent * 10 + Byte.digit b) rest
      else if significand ≠ 0 ∧ !down then .error .numberOutOfRange
      else .ok (signed negative 0.0, rest.dropWhile Byte.isDigit)
    else
      (scaled negative significand (if down then start - exponent else start + exponent)).map
        (·, b :: rest)

def readExponent (negative : Bool) (significand : Nat) (start : Int) (bytes : Bytes) :
    Read Float :=
  let digits (down : Bool) : Bytes → Read Float
    | [] => .error .endOfValue
    | b :: rest =>
      if Byte.isDigit b then
        readExponentDigits negative significand start down (Byte.digit b) rest
      else .error .badNumber
  match bytes with
  | [] => .error .endOfValue
  | b :: rest =>
    if b = Byte.plus then digits false rest
    else if b = Byte.minus then digits true rest
    else digits false (b :: rest)

def endFloat (negative : Bool) (significand : Nat) (exponent : Int) (bytes : Bytes) : Read Float :=
  match bytes with
  | [] => (scaled negative significand exponent).map (·, [])
  | b :: rest =>
    if Byte.isExponentMark b then readExponent negative significand exponent rest
    else (scaled negative significand exponent).map (·, b :: rest)

/-- Reads the digits after a point; `places` counts those that the significand took in. From the
first one that it cannot take in, the others are passed over. -/
def readFraction (negative : Bool) (significand : Nat) (exponent : Int) (places : Nat) :
    Bytes → Read Float
  | [] =>
    if places = 0 then .error .endOfValue
    else endFloat negative significand (exponent - places) []
  | b :: rest =>
    if Byte.isDigit b then
      if significand * 10 + Byte.digit b ≤ maxSignificand then
        readFraction negative (significand * 10 + Byte.digit b) exponent (places + 1) rest
      else
        endFloat negative significand (exponent - places) (rest.dropWhile Byte.isDigit)
    else if places = 0 then .error .badNumber
    else endFloat negative significand (exponent - places) (b :: rest)

/-- Goes on after the digits before the point, `exponent` of which the significand did not take in.
-/
def endWhole (negative : Bool) (significand : Nat) (exponent : Nat) (bytes : Bytes) : Read Float :=
  match bytes with
  | b :: rest =>
    if b = Byte.point then readFraction negative significand exponent 0 rest
    else endFloat negative significand exponent (b :: rest)
  | [] => endFloat negative significand exponent []

/-- An integer, unless it is a negative zero or does not fit 64 bits. -/
def wholeNumber (negative : Bool) (significand : Nat) : Number :=
  if !negative then .int significand
  else if significand = 0 ∨ Nat.pow 2 63 < significand then
    .float (-significand.toUInt64.toFloat)
  else .int (-significand)

def readWhole (negative : Bool) (significand : Nat) : Bytes → Read Number
  | [] => .ok (wholeNumber negative significand, [])
  | b :: rest =>
    if Byte.isDigit b then
      if significand * 10 + Byte.digit b ≤ maxSignificand then
        readWhole negative (significand * 10 + Byte.digit b) rest
      else
        let more := rest.takeWhile Byte.isDigit
        (endWhole negative significand (more.length + 1) (rest.dropWhile Byte.isDigit)).map
          fun (x, rest) => (.float x, rest)
    else if b = Byte.point ∨ Byte.isExponentMark b then
      (endWhole negative significand 0 (b :: rest)).map fun (x, rest) => (.float x, rest)
    else .ok (wholeNumber negative significand, b :: rest)

/-- Reads a number after its sign. No digit may follow a leading zero. -/
def readUnsigned (negative : Bool) : Bytes → Read Number
  | [] => .error .endOfValue
  | b :: rest =>
    if b = Byte.zero then
      match rest with
      | [] => readWhole negative 0 []
      | c :: rest => if Byte.isDigit c then .error .badNumber else readWhole negative 0 (c :: rest)
    else if Byte.isDigit b then readWhole negative (Byte.digit b) rest
    else .error .badNumber

def readNumber : Bytes → Read Number
  | [] => .error .endOfValue
  | b :: rest =>
    if b = Byte.minus then readUnsigned true rest else readUnsigned false (b :: rest)

end DebugAdapter.Json
