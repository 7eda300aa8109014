import AuditTrail.Digest.Sha256
import AuditTrail.Text.Utf8
import Mathlib.Data.String.Basic

/-!
Texts and digests as bytes. UTF-8 and hexadecimal text can be read back, so neither lets two values
look alike, and the text of a digest always has sixty-four bytes.
-/

namespace AuditTrail

namespace Utf8

theorem toByteArray_encode (text : String) : (encode text).toByteArray = text.toByteArray := by
  rw [← String.utf8Encode_toList]
  rfl

theorem encode_injective : Function.Injective encode := by
  intro first second same
  rw [← String.toByteArray_inj, ← toByteArray_encode, same, toByteArray_encode]

theorem length_encodeChars {text : List Char} (ascii : ∀ c ∈ text, c.utf8Size = 1) :
    (encodeChars text).length = text.length := by
  induction text with
  | nil => rfl
  | cons c rest ih =>
      have first : (String.utf8EncodeChar c).length = 1 := by
        rw [String.length_utf8EncodeChar, ascii c List.mem_cons_self]
      have later := ih fun other member => ascii other (List.mem_cons_of_mem _ member)
      unfold encodeChars at later ⊢
      simp only [List.flatMap_cons, List.length_append, first, later, List.length_cons]
      omega

end Utf8

namespace Hex

theorem digitValue?_digit {n : Nat} (bound : n < 16) : digitValue? (digit n) = some n := by
  revert n
  decide

theorem utf8Size_digit {n : Nat} (bound : n < 16) : (digit n).utf8Size = 1 := by
  revert n
  decide

theorem high_lt (b : UInt8) : b.toNat / 16 < 16 := by
  have bound := b.toNat_lt
  omega

theorem decodeChars_byte (b : UInt8) (rest : List Char) :
    decodeChars (byte b ++ rest) = (decodeChars rest).map (b :: ·) := by
  have high := digitValue?_digit (high_lt b)
  have low := digitValue?_digit (Nat.mod_lt b.toNat (by decide : 0 < 16))
  have whole : UInt8.ofNat (16 * (b.toNat / 16) + b.toNat % 16) = b := by
    rw [Nat.div_add_mod, UInt8.ofNat_toNat]
  simp only [byte, List.cons_append, List.nil_append, decodeChars, high, low,
    Option.bind_eq_bind, Option.bind_some, whole]
  cases decodeChars rest <;> rfl

theorem decode?_encode (bytes : List UInt8) : decode? (encode bytes) = some bytes := by
  simp only [decode?, encode, String.toList_ofList]
  induction bytes with
  | nil => rfl
  | cons b rest ih => simp only [List.flatMap_cons, decodeChars_byte, ih, Option.map_some]

theorem encode_injective : Function.Injective encode := by
  intro first second same
  have read := decode?_encode first
  rw [same, decode?_encode] at read
  exact (Option.some.inj read).symm

theorem length_utf8_encode (bytes : List UInt8) :
    (Utf8.encode (encode bytes)).length = 2 * bytes.length := by
  have ascii : ∀ c ∈ bytes.flatMap byte, c.utf8Size = 1 := by
    intro c member
    obtain ⟨b, _, digits⟩ := List.mem_flatMap.mp member
    rcases List.mem_cons.mp digits with rfl | low
    · exact utf8Size_digit (high_lt b)
    · rw [List.mem_singleton.mp low]
      exact utf8Size_digit (Nat.mod_lt _ (by decide))
  rw [Utf8.encode, encode, String.toList_ofList, Utf8.length_encodeChars ascii]
  induction bytes with
  | nil => rfl
  | cons b rest ih =>
      have later := ih fun c member => ascii c (by simp [member])
      simp only [List.flatMap_cons, List.length_append, later, List.length_cons, byte,
        List.length_nil]
      omega

end Hex

namespace Sha256

theorem length_bigEndian (width n : Nat) : (bigEndian width n).length = width := by
  induction width with
  | zero => rfl
  | succ width ih => simp only [bigEndian, List.length_cons, ih]

theorem length_hash (message : List UInt8) : (hash message).length = 32 := by
  simp only [hash, List.flatMap_cons, List.flatMap_nil, List.length_append, length_bigEndian,
    List.length_nil]

theorem length_utf8_hexDigest (message : List UInt8) :
    (Utf8.encode (hexDigest message)).length = 64 := by
  rw [hexDigest, Hex.length_utf8_encode, length_hash]

theorem hash_eq_of_hexDigest_eq {first second : List UInt8}
    (same : hexDigest first = hexDigest second) : hash first = hash second :=
  Hex.encode_injective same

end Sha256

end AuditTrail
