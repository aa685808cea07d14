import WebTestLint.Decimal.Binary64

/-!
JSON values. An object keeps the order of its members; a repeated key keeps its first place and takes
the last value.
-/

namespace WebTestLint.Json

inductive Number where
  | natural (value : Nat)
  | negative (magnitude : Nat)
  | float (value : Binary64)
deriving DecidableEq, Repr

inductive Value where
  | null
  | boolean (value : Bool)
  | number (value : Number)
  | string (text : String)
  | array (items : List Value)
  | object (members : List (String × Value))
deriving Repr

abbrev Members := List (String × Value)

namespace Members

def set (key : String) (value : Value) : Members → Members
  | [] => [(key, value)]
  | member :: rest =>
    if member.1 = key then (key, value) :: rest else member :: set key value rest

def contains (members : Members) (key : String) : Bool := members.any (·.1 == key)

end Members

end WebTestLint.Json
