import DebugAdapter.Bytes

namespace DebugAdapter

/-- A number is an integer of at most 64 bits, or a binary fraction. -/
inductive Number where
  | int (value : Int)
  | float (value : Float)

inductive Json where
  | null
  | bool (value : Bool)
  | number (value : Number)
  | string (value : String)
  | array (items : List Json)
  | record (fields : List (String × Json))

instance : Inhabited Json := ⟨.null⟩

/-- Named values in the order in which they were read or will be written. -/
abbrev Fields := List (String × Json)

namespace Fields

/-- Puts a field at its place, in place of one of the same name. -/
def insert (name : String) (value : Json) : Fields → Fields
  | [] => [(name, value)]
  | (n, v) :: fields =>
    if name < n then (name, value) :: (n, v) :: fields
    else if name = n then (name, value) :: fields
    else (n, v) :: insert name value fields

/-- The same fields in ascending order, the last of each name. -/
def normalize (fields : Fields) : Fields :=
  fields.foldl (fun done field => insert field.1 field.2 done) []

def get? (fields : Fields) (name : String) : Option Json :=
  (fields.find? (·.1 = name)).map (·.2)

end Fields

namespace Json

def object (fields : Fields) : Json :=
  record fields.normalize

def int (value : Int) : Json :=
  number (.int value)

def nat (value : Nat) : Json :=
  int value

/-- The value of a field; nothing but an object has fields. -/
def field? (name : String) : Json → Option Json
  | record fields => Fields.get? fields name
  | _ => none

def string? : Json → Option String
  | string s => some s
  | _ => none

def array? : Json → Option (List Json)
  | array items => some items
  | _ => none

def word? : Json → Option Nat
  | number (.int i) => if 0 ≤ i ∧ i < Nat.pow 2 64 then some i.toNat else none
  | _ => none

def signedWord? : Json → Option Int
  | number (.int i) => if -Nat.pow 2 63 ≤ i ∧ i < Nat.pow 2 63 then some i else none
  | _ => none

def isObject : Json → Bool
  | record _ => true
  | _ => false

end Json
end DebugAdapter
