/-!
# Documents as values

`Json` is the value of a document: numbers keep apart integers (64-bit, signed or unsigned) and
double-precision numbers, and an object is a list of fields. Objects built here hold each key once
and in the order of the keys (`Fields.set`), which is the order they are written in.
-/

namespace Patchbay

inductive JsonNumber where
  /-- An integer; readers only make integers of the signed or unsigned 64-bit range. -/
  | int (n : Int)
  /-- Any other number. -/
  | double (x : Float)
  deriving DecidableEq

/-- A document or a part of one. -/
inductive Json where
  | null
  | bool (b : Bool)
  | number (n : JsonNumber)
  | string (s : String)
  | array (items : List Json)
  | object (fields : List (String × Json))
  deriving Inhabited

abbrev Fields := List (String × Json)

namespace Fields

def get? (fields : Fields) (key : String) : Option Json := List.lookup key fields

def has (fields : Fields) (key : String) : Bool := (get? fields key).isSome

/-- Sets a field, keeping the fields in the order of their keys. -/
def set (key : String) (value : Json) : Fields → Fields
  | [] => [(key, value)]
  | (k, v) :: rest =>
    if key = k then (key, value) :: rest
    else if key < k then (key, value) :: (k, v) :: rest
    else (k, v) :: set key value rest

/-- The object with the given fields; of a repeated key the last value counts. -/
def ofList (fields : List (String × Json)) : Fields :=
  fields.foldl (fun acc f => set f.1 f.2 acc) []

end Fields

namespace Json

def ofInt (n : Int) : Json := .number (.int n)

def ofNat (n : Nat) : Json := .number (.int n)

/-- A double-precision number; what is not finite has no number and becomes `null`. -/
def ofDouble (x : Float) : Json := if x.isFinite then .number (.double x) else .null

/-- The object with the given fields, put in order. -/
def ofFields (fields : List (String × Json)) : Json := .object (Fields.ofList fields)

/-- The fields, if this is an object. -/
def fields? : Json → Option Fields
  | .object fields => some fields
  | _ => none

/-- A field, if this is an object that has it. -/
def field? (j : Json) (key : String) : Option Json := j.fields?.bind (·.get? key)

def string? : Json → Option String
  | .string s => some s
  | _ => none

/-- The truth value, if this is one. -/
def bool? : Json → Option Bool
  | .bool b => some b
  | _ => none

/-- The items, if this is an array. -/
def items? : Json → Option (List Json)
  | .array items => some items
  | _ => none

/-- The integer, if this is one of at least `low` and below `high`. -/
def intWithin? (low high : Int) : Json → Option Int
  | .number (.int n) => if low ≤ n ∧ n < high then some n else none
  | _ => none

/-- The integer, if this is one of the signed 64-bit range. -/
def int64? (j : Json) : Option Int :=
  j.intWithin? (-Int.ofNat (Nat.pow 2 63)) (Int.ofNat (Nat.pow 2 63))

/-- The number, if this is an integer of `bits` bits without sign. -/
def natBelow? (bits : Nat) (j : Json) : Option Nat :=
  (j.intWithin? 0 (Int.ofNat (Nat.pow 2 bits))).map Int.toNat

end Json

end Patchbay
