import AuditTrail.Text.Utf8
import Mathlib.Data.String.Basic

/-!
Decoding undoes encoding and takes nothing but what has been encoded. An octet of the ASCII range
stands for nothing but its own character, so line ends can be looked for in encoded text.
-/

namespace AuditTrail.Utf8

theorem toNat_octet {n : Nat} (bound : n < 256) : (UInt8.ofNat n).toNat = n :=
  UInt8.toNat_ofNat_of_lt' bound

theorem tailBits_tail (n : Nat) : tailBits (UInt8.ofNat (n % 64 + 128)) = n % 64 := by
  rw [tailBits, toNat_octet (by omega)]
  omega

theorem isTail_tail (n : Nat) : isTail (UInt8.ofNat (n % 64 + 128)) = true := by
  simp only [isTail, UInt8.le_iff_toNat_le, toNat_octet (show n % 64 + 128 < 256 by omega)]
  simp
  omega

theorem isSecond_of_three {n : Nat} (low : 2048 ≤ n) (high : n < 65536)
    (scalar : n < 0xD800 ∨ 0xDFFF < n) :
    isSecond (UInt8.ofNat (n / 4096 % 16 + 224)) (UInt8.ofNat (n / 64 % 64 + 128)) = true := by
  simp only [isSecond, isTail, ← UInt8.toNat_inj, UInt8.le_iff_toNat_le,
    toNat_octet (show n / 4096 % 16 + 224 < 256 by omega),
    toNat_octet (show n / 64 % 64 + 128 < 256 by omega)]
  simp
  repeat' split
  all_goals omega

theorem isSecond_of_four {n : Nat} (low : 65536 ≤ n) (high : n < 0x110000) :
    isSecond (UInt8.ofNat (n / 262144 % 8 + 240)) (UInt8.ofNat (n / 4096 % 64 + 128)) = true := by
  simp only [isSecond, isTail, ← UInt8.toNat_inj, UInt8.le_iff_toNat_le,
    toNat_octet (show n / 262144 % 8 + 240 < 256 by omega),
    toNat_octet (show n / 4096 % 64 + 128 < 256 by omega)]
  simp
  repeat' split
  all_goals omega

section

variable (index : Nat) {a b c d : UInt8} {rest : List UInt8}

theorem decodeFrom_one (lead : width a.toNat = 1) :
    decodeFrom index (a :: rest) =
      (decodeFrom (index + 1) rest).map (Char.ofNat a.toNat :: ·) := by
  rw [decodeFrom.eq_def]
  simp only [lead]

theorem decodeFrom_two (lead : width a.toNat = 2) (second : isTail b = true) :
    decodeFrom index (a :: b :: rest) = (decodeFrom (index + 2) rest).map
      (Char.ofNat (a.toNat % 32 * 64 + tailBits b) :: ·) := by
  rw [decodeFrom.eq_def]
  simp only [lead, second, if_true]

theorem decodeFrom_three (lead : width a.toNat = 3) (second : isSecond a b = true)
    (third : isTail c = true) :
    decodeFrom index (a :: b :: c :: rest) = (decodeFrom (index + 3) rest).map
      (Char.ofNat (a.toNat % 16 * 4096 + tailBits b * 64 + tailBits c) :: ·) := by
  rw [decodeFrom.eq_def]
  simp only [lead, second, third, if_true]

theorem decodeFrom_four (lead : width a.toNat = 4) (second : isSecond a b = true)
    (third : isTail c = true) (fourth : isTail d = true) :
    decodeFrom index (a :: b :: c :: d :: rest) = (decodeFrom (index + 4) rest).map
      (Char.ofNat (a.toNat % 8 * 262144 + tailBits b * 4096 + tailBits c * 64 + tailBits d) ::
        ·) := by
  rw [decodeFrom.eq_def]
  simp only [lead, second, third, fourth, if_true]

end

theorem decodeFrom_encodeChar (c : Char) (index : Nat) (rest : List UInt8) :
    ∃ next, decodeFrom index (String.utf8EncodeChar c ++ rest) =
      (decodeFrom next rest).map (c :: ·) := by
  have scalar : c.val.toNat < 0xD800 ∨ 0xDFFF < c.val.toNat ∧ c.val.toNat < 0x110000 := c.valid
  have whole : Char.ofNat c.val.toNat = c := Char.ofNat_toNat c
  unfold String.utf8EncodeChar
  generalize c.val.toNat = n at scalar whole ⊢
  subst c
  dsimp only
  split
  · have lead : (UInt8.ofNat n).toNat = n := toNat_octet (by omega)
    have wide : width n = 1 := if_pos (by omega)
    refine ⟨index + 1, ?_⟩
    rw [List.cons_append, List.nil_append, decodeFrom_one index (by rw [lead, wide]), lead]
  split
  · have lead : (UInt8.ofNat (n / 64 % 32 + 192)).toNat = n / 64 % 32 + 192 :=
      toNat_octet (by omega)
    have wide : width (n / 64 % 32 + 192) = 2 := by
      rw [width, if_neg (by omega), if_pos (by omega)]
    have value : (n / 64 % 32 + 192) % 32 * 64 + n % 64 = n := by omega
    refine ⟨index + 2, ?_⟩
    rw [List.cons_append, List.cons_append, List.nil_append,
      decodeFrom_two index (by rw [lead, wide]) (isTail_tail _), lead, tailBits_tail, value]
  split
  · have lead : (UInt8.ofNat (n / 4096 % 16 + 224)).toNat = n / 4096 % 16 + 224 :=
      toNat_octet (by omega)
    have wide : width (n / 4096 % 16 + 224) = 3 := by
      rw [width, if_neg (by omega), if_neg (by omega), if_pos (by omega)]
    have value : (n / 4096 % 16 + 224) % 16 * 4096 + n / 64 % 64 * 64 + n % 64 = n := by omega
    refine ⟨index + 3, ?_⟩
    rw [List.cons_append, List.cons_append, List.cons_append, List.nil_append,
      decodeFrom_three index (by rw [lead, wide])
        (isSecond_of_three (by omega) (by omega) (by omega)) (isTail_tail _),
      lead, tailBits_tail, tailBits_tail, value]
  · have lead : (UInt8.ofNat (n / 262144 % 8 + 240)).toNat = n / 262144 % 8 + 240 :=
      toNat_octet (by omega)
    have wide : width (n / 262144 % 8 + 240) = 4 := by
      rw [width, if_neg (by omega), if_neg (by omega), if_neg (by omega), if_pos (by omega)]
    have value : (n / 262144 % 8 + 240) % 8 * 262144 + n / 4096 % 64 * 4096 + n / 64 % 64 * 64 +
        n % 64 = n := by omega
    refine ⟨index + 4, ?_⟩
    rw [List.cons_append, List.cons_append, List.cons_append, List.cons_append, List.nil_append,
      decodeFrom_four index (by rw [lead, wide]) (isSecond_of_four (by omega) (by omega))
        (isTail_tail _) (isTail_tail _),
      lead, tailBits_tail, tailBits_tail, tailBits_tail, value]

theorem decodeFrom_encodeChars (text : List Char) (index : Nat) :
    decodeFrom index (encodeChars text) = .ok text := by
  induction text generalizing index with
  | nil => rfl
  | cons c text ih =>
      obtain ⟨next, decoded⟩ := decodeFrom_encodeChar c index (encodeChars text)
      rw [encodeChars, List.flatMap_cons, ← encodeChars, decoded, ih]
      rfl

theorem decode_encode (text : String) : decode (encode text) = .ok text := by
  rw [decode, encode, decodeFrom_encodeChars]
  simp [Except.map]

theorem toNat_eq_of_mem_encodeChar {c : Char} {octet : UInt8}
    (member : octet ∈ String.utf8EncodeChar c) (ascii : octet.toNat < 128) :
    octet.toNat = c.toNat := by
  change octet.toNat = c.val.toNat
  unfold String.utf8EncodeChar at member
  generalize c.val.toNat = n at member ⊢
  dsimp only at member
  -- All octets of a longer sequence are above the range.
  have high {k : Nat} (low : 128 ≤ k) (bound : k < 256) : octet ≠ UInt8.ofNat k := by
    rintro rfl
    rw [toNat_octet bound] at ascii
    omega
  split at member
  · obtain rfl := List.mem_singleton.mp member
    exact toNat_octet (by omega)
  repeat' split at member
  all_goals
    simp only [List.mem_cons, List.not_mem_nil, or_false, high (show 128 ≤ n % 64 + 128 by omega)
      (by omega), high (show 128 ≤ n / 64 % 64 + 128 by omega) (by omega),
      high (show 128 ≤ n / 4096 % 64 + 128 by omega) (by omega),
      high (show 128 ≤ n / 64 % 32 + 192 by omega) (by omega),
      high (show 128 ≤ n / 4096 % 16 + 224 by omega) (by omega),
      high (show 128 ≤ n / 262144 % 8 + 240 by omega) (by omega)] at member

theorem mem_encodeChars_of_ascii {text : List Char} {octet : UInt8}
    (member : octet ∈ encodeChars text) (ascii : octet.toNat < 128) :
    ∃ c ∈ text, c.toNat = octet.toNat := by
  obtain ⟨c, inText, encoded⟩ := List.mem_flatMap.mp member
  exact ⟨c, inText, (toNat_eq_of_mem_encodeChar encoded ascii).symm⟩

theorem val_ofNat {n : Nat} (valid : n.isValidChar) : (Char.ofNat n).val.toNat = n := by
  rw [Char.ofNat, dif_pos valid]
  rfl

theorem tail_bounds {octet : UInt8} (tail : isTail octet = true) :
    128 ≤ octet.toNat ∧ octet.toNat < 192 := by
  simp only [isTail, UInt8.le_iff_toNat_le, Bool.and_eq_true, decide_eq_true_eq] at tail
  change 128 ≤ octet.toNat ∧ octet.toNat ≤ 191 at tail
  omega

theorem second_bounds {lead octet : UInt8} (second : isSecond lead octet = true) :
    128 ≤ octet.toNat ∧ octet.toNat < 192 ∧ (lead.toNat = 0xE0 → 0xA0 ≤ octet.toNat) ∧
      (lead.toNat = 0xED → octet.toNat < 0xA0) ∧ (lead.toNat = 0xF0 → 0x90 ≤ octet.toNat) ∧
      (lead.toNat = 0xF4 → octet.toNat < 0x90) := by
  unfold isSecond at second
  simp only [isTail, UInt8.le_iff_toNat_le, ← UInt8.toNat_inj] at second
  simp at second
  split_ifs at second <;> omega

theorem width_iff (lead : Nat) : (width lead = 1 ↔ lead < 0x80) ∧
    (width lead = 2 ↔ 0xC2 ≤ lead ∧ lead ≤ 0xDF) ∧ (width lead = 3 ↔ 0xE0 ≤ lead ∧ lead ≤ 0xEF) ∧
    (width lead = 4 ↔ 0xF0 ≤ lead ∧ lead ≤ 0xF4) := by
  refine ⟨?_, ?_, ?_, ?_⟩ <;> unfold width <;> split_ifs <;> simp <;> omega

theorem eq_octet {octet : UInt8} {n : Nat} (same : n = octet.toNat) : UInt8.ofNat n = octet := by
  rw [same, UInt8.ofNat_toNat]

section

variable {a b c d : UInt8}

theorem encodeChar_one (lead : width a.toNat = 1) :
    String.utf8EncodeChar (Char.ofNat a.toNat) = [a] := by
  have bounds := width_iff a.toNat
  unfold String.utf8EncodeChar
  rw [val_ofNat (Or.inl (by omega))]
  dsimp only
  rw [if_pos (by omega), UInt8.ofNat_toNat]

theorem encodeChar_two (lead : width a.toNat = 2) (second : isTail b = true) :
    String.utf8EncodeChar (Char.ofNat (a.toNat % 32 * 64 + tailBits b)) = [a, b] := by
  have bounds := width_iff a.toNat
  have secondBounds := tail_bounds second
  unfold String.utf8EncodeChar tailBits
  rw [val_ofNat (Or.inl (by omega))]
  dsimp only
  rw [if_neg (by omega), if_pos (by omega), @eq_octet a _ (by omega), @eq_octet b _ (by omega)]

theorem encodeChar_three (lead : width a.toNat = 3) (second : isSecond a b = true)
    (third : isTail c = true) :
    String.utf8EncodeChar (Char.ofNat (a.toNat % 16 * 4096 + tailBits b * 64 + tailBits c)) =
      [a, b, c] := by
  have bounds := width_iff a.toNat
  have secondBounds := second_bounds second
  have thirdBounds := tail_bounds third
  unfold String.utf8EncodeChar tailBits
  rw [val_ofNat (by unfold Nat.isValidChar; omega)]
  dsimp only
  rw [if_neg (by omega), if_neg (by omega), if_pos (by omega), @eq_octet a _ (by omega),
    @eq_octet b _ (by omega), @eq_octet c _ (by omega)]

theorem encodeChar_four (lead : width a.toNat = 4) (second : isSecond a b = true)
    (third : isTail c = true) (fourth : isTail d = true) :
    String.utf8EncodeChar (Char.ofNat (a.toNat % 8 * 262144 + tailBits b * 4096 + tailBits c * 64 +
      tailBits d)) = [a, b, c, d] := by
  have bounds := width_iff a.toNat
  have secondBounds := second_bounds second
  have thirdBounds := tail_bounds third
  have fourthBounds := tail_bounds fourth
  unfold String.utf8EncodeChar tailBits
  rw [val_ofNat (by unfold Nat.isValidChar; omega)]
  dsimp only
  rw [if_neg (by omega), if_neg (by omega), if_neg (by omega), @eq_octet a _ (by omega),
    @eq_octet b _ (by omega), @eq_octet c _ (by omega), @eq_octet d _ (by omega)]

end

theorem encodeChars_of_map {first rest : List UInt8} {c : Char} {next : Nat} {text : List Char}
    (own : String.utf8EncodeChar c = first)
    (later : ∀ {text}, decodeFrom next rest = .ok text → encodeChars text = rest)
    (decoded : (decodeFrom next rest).map (c :: ·) = .ok text) :
    encodeChars text = first ++ rest := by
  cases found : decodeFrom next rest with
  | error fault =>
      rw [found] at decoded
      cases decoded
  | ok tail =>
      rw [found] at decoded
      obtain rfl := Except.ok.inj decoded
      rw [encodeChars, List.flatMap_cons, own, ← encodeChars, later found]

/-- Octets that can be decoded are those of the text they stand for. -/
theorem encodeChars_of_decodeFrom {index : Nat} {octets : List UInt8} {text : List Char}
    (decoded : decodeFrom index octets = .ok text) : encodeChars text = octets := by
  fun_induction decodeFrom index octets generalizing text with
  | case1 =>
      cases decoded
      rfl
  | case2 index a rest lead ih => exact encodeChars_of_map (encodeChar_one lead) ih decoded
  | case4 index a lead b rest second ih =>
      exact encodeChars_of_map (encodeChar_two lead second) ih decoded
  | case8 index a lead b second c rest third ih =>
      exact encodeChars_of_map (encodeChar_three lead second third) ih decoded
  | case14 index a lead b second c third d rest fourth ih =>
      exact encodeChars_of_map (encodeChar_four lead second third fourth) ih decoded
  | _ => cases decoded

theorem decode_eq_ok_iff {octets : List UInt8} {text : String} :
    decode octets = .ok text ↔ octets = encode text := by
  constructor
  · intro decoded
    unfold decode at decoded
    cases found : decodeFrom 0 octets with
    | error fault =>
        rw [found] at decoded
        cases decoded
    | ok chars =>
        rw [found] at decoded
        obtain rfl := Except.ok.inj decoded
        rw [encode, String.toList_ofList, encodeChars_of_decodeFrom found]
  · rintro rfl
    exact decode_encode text

end AuditTrail.Utf8
