import DebugAdapter.Bytes

namespace DebugAdapter.Text

/-- A character whose first bytes were read: how many are missing, the range of the next one, and
the bits so far. -/
structure PartialChar where
  missing : Nat
  least : UInt8
  greatest : UInt8
  bits : Nat

def replacement : Char := '\uFFFD'

def startChar (b : UInt8) : Option PartialChar × List Char :=
  let bits := b.toNat
  if b < 0x80 then (none, [Char.ofNat bits])
  else if b < 0xC2 then (none, [replacement])
  else if b < 0xE0 then (some ⟨1, 0x80, 0xBF, bits - 0xC0⟩, [])
  else if b < 0xF0 then
    (some ⟨2, if b = 0xE0 then 0xA0 else 0x80, if b = 0xED then 0x9F else 0xBF, bits - 0xE0⟩, [])
  else if b < 0xF5 then
    (some ⟨3, if b = 0xF0 then 0x90 else 0x80, if b = 0xF4 then 0x8F else 0xBF, bits - 0xF0⟩, [])
  else (none, [replacement])

/-- Takes one more byte: the characters it settles, and the character it leaves open. -/
def stepChar : Option PartialChar → UInt8 → Option PartialChar × List Char
  | none, b => startChar b
  | some p, b =>
    if p.least ≤ b ∧ b ≤ p.greatest then
      let bits := p.bits * 64 + (b.toNat - 0x80)
      if p.missing ≤ 1 then (none, [Char.ofNat bits])
      else (some ⟨p.missing - 1, 0x80, 0xBF, bits⟩, [])
    else
      let (next, chars) := startChar b
      (next, replacement :: chars)

/-- Reads on from an open character; `done` holds the characters so far, last one first. -/
def lossyFrom (state : Option PartialChar) (done : List Char) : Bytes → List Char
  | [] =>
    match state with
    | none => done.reverse
    | some _ => (replacement :: done).reverse
  | b :: bytes =>
    let (next, chars) := stepChar state b
    lossyFrom next (chars.reverse ++ done) bytes

/-- The text of `bytes`, with a replacement character for each longest piece that is no part of one.
-/
def lossy (bytes : Bytes) : String :=
  match bytes.toString? with
  | some text => text
  | none => String.ofList (lossyFrom none [] bytes)

end DebugAdapter.Text
