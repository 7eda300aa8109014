import AuditTrail.Number.Shortest
import AuditTrail.Table

/-!
JSON values. Numbers are 64-bit integers of either sign or finite binary64 numbers, and `5` and
`5.0` are different values. A normalized value holds its object keys in increasing order, once.
-/

namespace AuditTrail

inductive Number where
  | int (value : Int) (inRange : -9223372036854775808 ≤ value ∧ value < 18446744073709551616)
  | float (value : Binary64)
deriving DecidableEq

namespace Number

def ofUInt64 (n : UInt64) : Number :=
  .int n.toNat ⟨by omega, by have := n.toNat_lt; omega⟩

/-- Counts far below `2 ^ 64`; a larger one keeps its low 64 bits. -/
def ofNat (n : Nat) : Number :=
  ofUInt64 (UInt64.ofNat n)

def same : Number → Number → Bool
  | .int a _, .int b _ => a == b
  | .float a, .float b => a.sameValue b
  | _, _ => false

end Number

def decimalChars (n : Int) : List Char :=
  if n < 0 then '-' :: Nat.toDigits 10 n.natAbs else Nat.toDigits 10 n.natAbs

inductive Json where
  | null
  | bool (value : Bool)
  | number (value : Number)
  | string (value : String)
  | array (items : List Json)
  | object (fields : List (String × Json))

namespace Json

instance : Inhabited Json := ⟨.null⟩

mutual

/-- Sorts the keys of every object; of equal keys the last one stays. -/
def normalize : Json → Json
  | .array items => .array (normalizeItems items)
  | .object fields => .object (Table.ofList (normalizeFields fields))
  | value => value

def normalizeItems : List Json → List Json
  | [] => []
  | item :: rest => item.normalize :: normalizeItems rest

def normalizeFields : List (String × Json) → List (String × Json)
  | [] => []
  | (key, value) :: rest => (key, value.normalize) :: normalizeFields rest

end

mutual

def same : Json → Json → Bool
  | .null, .null => true
  | .bool a, .bool b => a == b
  | .number a, .number b => a.same b
  | .string a, .string b => a == b
  | .array a, .array b => sameItems a b
  | .object a, .object b => sameFields a b
  | _, _ => false

def sameItems : List Json → List Json → Bool
  | [], [] => true
  | a :: as, b :: bs => a.same b && sameItems as bs
  | _, _ => false

def sameFields : List (String × Json) → List (String × Json) → Bool
  | [], [] => true
  | (k, a) :: as, (l, b) :: bs => k == l && a.same b && sameFields as bs
  | _, _ => false

end

def field? (key : String) : Json → Option Json
  | .object fields => Table.find? key fields
  | _ => none

def ofNat (n : Nat) : Json := .number (.ofNat n)

def ofUInt64 (n : UInt64) : Json := .number (.ofUInt64 n)

def ofOption {α : Type} (write : α → Json) : Option α → Json
  | some value => write value
  | none => .null

end Json

end AuditTrail
