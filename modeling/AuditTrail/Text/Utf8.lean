/-!
UTF-8 in both directions. Decoding stops at the first octets that belong to no character and says
where and how many they are.
-/

namespace AuditTrail.Utf8

/-- Octets from `index` on that are no character; no length means that the text ends within one. -/
structure Fault where
  index : Nat
  length : Option Nat
deriving DecidableEq

def Fault.message (fault : Fault) : String :=
  match fault.length with
  | some length => s!"invalid utf-8 sequence of {length} bytes from index {fault.index}"
  | none => s!"incomplete utf-8 byte sequence from index {fault.index}"

def encodeChars (text : List Char) : List UInt8 :=
  text.flatMap String.utf8EncodeChar

def encode (text : String) : List UInt8 :=
  encodeChars text.toList

def width (lead : Nat) : Nat :=
  if lead < 0x80 then 1
  else if 0xC2 ≤ lead ∧ lead ≤ 0xDF then 2
  else if 0xE0 ≤ lead ∧ lead ≤ 0xEF then 3
  else if 0xF0 ≤ lead ∧ lead ≤ 0xF4 then 4
  else 0

def isTail (octet : UInt8) : Bool :=
  0x80 ≤ octet && octet ≤ 0xBF

/-- The second octet also rules out overlong forms, surrogates and numbers above U+10FFFF. -/
def isSecond (lead second : UInt8) : Bool :=
  if lead = 0xE0 then 0xA0 ≤ second && second ≤ 0xBF
  else if lead = 0xED then 0x80 ≤ second && second ≤ 0x9F
  else if lead = 0xF0 then 0x90 ≤ second && second ≤ 0xBF
  else if lead = 0xF4 then 0x80 ≤ second && second ≤ 0x8F
  else isTail second

def tailBits (octet : UInt8) : Nat :=
  octet.toNat % 64

def decodeFrom (index : Nat) : List UInt8 → Except Fault (List Char)
  | [] => .ok []
  | a :: rest =>
    match width a.toNat with
    | 1 => (decodeFrom (index + 1) rest).map (Char.ofNat a.toNat :: ·)
    | 2 =>
      match rest with
      | [] => .error ⟨index, none⟩
      | b :: rest =>
        if isTail b then
          (decodeFrom (index + 2) rest).map (Char.ofNat (a.toNat % 32 * 64 + tailBits b) :: ·)
        else .error ⟨index, some 1⟩
    | 3 =>
      match rest with
      | [] => .error ⟨index, none⟩
      | b :: rest =>
        if isSecond a b then
          match rest with
          | [] => .error ⟨index, none⟩
          | c :: rest =>
            if isTail c then
              (decodeFrom (index + 3) rest).map
                (Char.ofNat (a.toNat % 16 * 4096 + tailBits b * 64 + tailBits c) :: ·)
            else .error ⟨index, some 2⟩
        else .error ⟨index, some 1⟩
    | 4 =>
      match rest with
      | [] => .error ⟨index, none⟩
      | b :: rest =>
        if isSecond a b then
          match rest with
          | [] => .error ⟨index, none⟩
          | c :: rest =>
            if isTail c then
              match rest with
              | [] => .error ⟨index, none⟩
              | d :: rest =>
                if isTail d then
                  (decodeFrom (index + 4) rest).map
                    (Char.ofNat (a.toNat % 8 * 262144 + tailBits b * 4096 + tailBits c * 64 +
                      tailBits d) :: ·)
                else .error ⟨index, some 3⟩
            else .error ⟨index, some 2⟩
        else .error ⟨index, some 1⟩
    | _ => .error ⟨index, some 1⟩

def decode (octets : List UInt8) : Except Fault String :=
  (decodeFrom 0 octets).map String.ofList

end AuditTrail.Utf8
