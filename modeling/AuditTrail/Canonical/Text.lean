import AuditTrail.Json.Printer
import AuditTrail.Text.Utf8

/-!
Canonical text, the one form in which a value is hashed: compact JSON with keys in increasing
order and numbers in positional digits. It does not tell `5` from `5.0`, nor the two zeros.
-/

namespace AuditTrail

def Binary64.canonicalChars (x : Binary64) : List Char :=
  if x.isZero then ['0']
  else (if x.negative then ['-'] else []) ++ (x.shortest .away).positional

def Number.canonicalChars : Number → List Char
  | .int n _ => decimalChars n
  | .float x => x.canonicalChars

def Double.text : Double → String
  | .nan => "NaN"
  | .infinity true => "-inf"
  | .infinity false => "inf"
  | .finite x => String.ofList x.canonicalChars

namespace Json

def canonicalChars (value : Json) : List Char :=
  value.normalize.writeWith Number.canonicalChars

def canonical (value : Json) : String :=
  String.ofList value.canonicalChars

def canonicalBytes (value : Json) : List UInt8 :=
  Utf8.encodeChars value.canonicalChars

end Json

end AuditTrail
