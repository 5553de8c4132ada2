import Mathlib.Data.List.Basic
import Mathlib.Tactic.Common

set_option autoImplicit false

/-!
# UTF-16

Texts as sequences of 16-bit code units. A sequence may hold surrogates that are no part of a pair;
decoding puts the replacement character in their place.
-/
namespace ProxySwitch.Utf16

abbrev CodeUnit := BitVec 16

def isHigh (u : CodeUnit) : Bool := 0xD800 ≤ u.toNat && u.toNat < 0xDC00

def isLow (u : CodeUnit) : Bool := 0xDC00 ≤ u.toNat && u.toNat < 0xE000

def encodeChar (c : Char) : List CodeUnit :=
  if c.toNat < 0x10000 then [BitVec.ofNat 16 c.toNat]
  else
    [BitVec.ofNat 16 (0xD800 + (c.toNat - 0x10000) / 0x400),
      BitVec.ofNat 16 (0xDC00 + (c.toNat - 0x10000) % 0x400)]

def encode (text : List Char) : List CodeUnit := text.flatMap encodeChar

def single (u : CodeUnit) : Char :=
  if isHigh u || isLow u then Char.ofNat 0xFFFD else Char.ofNat u.toNat

def pair (u v : CodeUnit) : Char :=
  Char.ofNat (0x10000 + (u.toNat - 0xD800) * 0x400 + (v.toNat - 0xDC00))

def decode : List CodeUnit → List Char
  | [] => []
  | [u] => [single u]
  | u :: v :: rest =>
    if isHigh u && isLow v then pair u v :: decode rest else single u :: decode (v :: rest)

def wellFormed : List CodeUnit → Bool
  | [] => true
  | [u] => !isHigh u && !isLow u
  | u :: v :: rest =>
    if isHigh u && isLow v then wellFormed rest
    else !isHigh u && !isLow u && wellFormed (v :: rest)

section Codec
variable {c : Char} {u v : CodeUnit} {rest : List CodeUnit}

@[simp] theorem encode_nil : encode [] = [] := rfl

@[simp] theorem encode_cons (c : Char) (text : List Char) :
    encode (c :: text) = encodeChar c ++ encode text := List.flatMap_cons

@[simp] theorem encode_append (text text' : List Char) :
    encode (text ++ text') = encode text ++ encode text' := List.flatMap_append

theorem toNat_valid (c : Char) : c.toNat < 0xD800 ∨ 0xDFFF < c.toNat ∧ c.toNat < 0x110000 := c.valid

theorem toNat_ofNat {n : ℕ} (h : n < 0xD800 ∨ 0xDFFF < n ∧ n < 0x110000) :
    (Char.ofNat n).toNat = n := by
  rw [Char.ofNat, dif_pos h]
  rfl

theorem decode_single (hplain : (isHigh u || isLow u) = false) :
    decode (u :: rest) = Char.ofNat u.toNat :: decode rest := by
  have hsingle : single u = Char.ofNat u.toNat := by
    rw [single, hplain]
    rfl
  obtain ⟨hhigh, -⟩ := Bool.or_eq_false_iff.mp hplain
  cases rest with
  | nil => exact congrArg (· :: []) hsingle
  | cons v rest =>
    rw [decode, hhigh, Bool.false_and, if_neg Bool.false_ne_true, hsingle]

theorem decode_pair (h : (isHigh u && isLow v) = true) :
    decode (u :: v :: rest) = pair u v :: decode rest := by
  rw [decode, if_pos h]

theorem wellFormed_single (hplain : (isHigh u || isLow u) = false) :
    wellFormed (u :: rest) = wellFormed rest := by
  obtain ⟨hhigh, hlow⟩ := Bool.or_eq_false_iff.mp hplain
  cases rest with
  | nil =>
    change (!isHigh u && !isLow u) = true
    rw [hhigh, hlow]
    rfl
  | cons v rest =>
    rw [wellFormed, hhigh, hlow]
    rfl

/-- A character is one unit that is no surrogate, or a pair. -/
theorem encodeChar_cases (c : Char) :
    (∃ u, encodeChar c = [u] ∧ u.toNat = c.toNat ∧ (isHigh u || isLow u) = false) ∨
      ∃ u v, encodeChar c = [u, v] ∧ (isHigh u && isLow v) = true ∧ pair u v = c := by
  have hvalid := toNat_valid c
  unfold encodeChar
  split
  · rename_i hbasic
    have hunit : (BitVec.ofNat 16 c.toNat).toNat = c.toNat := by
      rw [BitVec.toNat_ofNat]
      omega
    refine .inl ⟨_, rfl, hunit, ?_⟩
    simp only [isHigh, isLow, hunit, Bool.or_eq_false_iff, Bool.and_eq_false_iff,
      decide_eq_false_iff_not]
    omega
  · rename_i hbasic
    have hhigh : (BitVec.ofNat 16 (0xD800 + (c.toNat - 0x10000) / 0x400)).toNat =
        0xD800 + (c.toNat - 0x10000) / 0x400 := by
      rw [BitVec.toNat_ofNat]
      omega
    have hlow : (BitVec.ofNat 16 (0xDC00 + (c.toNat - 0x10000) % 0x400)).toNat =
        0xDC00 + (c.toNat - 0x10000) % 0x400 := by
      rw [BitVec.toNat_ofNat]
      omega
    refine .inr ⟨_, _, rfl, ?_, ?_⟩
    · simp only [isHigh, isLow, hhigh, hlow, Bool.and_eq_true, decide_eq_true_eq]
      omega
    · have hcode : 0x10000 + (0xD800 + (c.toNat - 0x10000) / 0x400 - 0xD800) * 0x400 +
          (0xDC00 + (c.toNat - 0x10000) % 0x400 - 0xDC00) = c.toNat := by
        omega
      rw [pair, hhigh, hlow, hcode, Char.ofNat_toNat]

theorem decode_encode (text : List Char) : decode (encode text) = text := by
  induction text with
  | nil => rfl
  | cons c text ih =>
    rw [encode_cons]
    obtain ⟨u, hu, hcode, hplain⟩ | ⟨u, v, huv, hpair, hcode⟩ := encodeChar_cases c
    · rw [hu, List.singleton_append, decode_single hplain, hcode, Char.ofNat_toNat, ih]
    · rw [huv, List.cons_append, List.singleton_append, decode_pair hpair, hcode, ih]

theorem wellFormed_encode (text : List Char) : wellFormed (encode text) = true := by
  induction text with
  | nil => rfl
  | cons c text ih =>
    rw [encode_cons]
    obtain ⟨u, hu, -, hplain⟩ | ⟨u, v, huv, hpair, -⟩ := encodeChar_cases c
    · rw [hu, List.singleton_append, wellFormed_single hplain, ih]
    · rw [huv]
      exact (if_pos hpair).trans ih

theorem encodeChar_single (hplain : (isHigh u || isLow u) = false) :
    encodeChar (Char.ofNat u.toNat) = [u] := by
  have hbound := u.isLt
  have hcode : (Char.ofNat u.toNat).toNat = u.toNat := by
    apply toNat_ofNat
    simp only [isHigh, isLow, Bool.or_eq_false_iff, Bool.and_eq_false_iff,
      decide_eq_false_iff_not] at hplain
    omega
  rw [encodeChar, hcode, if_pos hbound, BitVec.ofNat_toNat, BitVec.setWidth_eq]

theorem encodeChar_pair (hpair : (isHigh u && isLow v) = true) : encodeChar (pair u v) = [u, v] := by
  simp only [isHigh, isLow, Bool.and_eq_true, decide_eq_true_eq] at hpair
  obtain ⟨⟨hu, hu'⟩, hv, hv'⟩ := hpair
  have hcode : (pair u v).toNat =
      0x10000 + (u.toNat - 0xD800) * 0x400 + (v.toNat - 0xDC00) := toNat_ofNat (by omega)
  have hhigh : 0xD800 + ((pair u v).toNat - 0x10000) / 0x400 = u.toNat := by omega
  have hlow : 0xDC00 + ((pair u v).toNat - 0x10000) % 0x400 = v.toNat := by omega
  rw [encodeChar, if_neg (by omega), hhigh, hlow, BitVec.ofNat_toNat, BitVec.ofNat_toNat,
    BitVec.setWidth_eq, BitVec.setWidth_eq]

theorem encode_decode {units : List CodeUnit} (h : wellFormed units = true) :
    encode (decode units) = units := by
  induction units using wellFormed.induct with
  | case1 => rfl
  | case2 u =>
    have hplain : (isHigh u || isLow u) = false := by
      simpa [wellFormed] using h
    rw [decode_single hplain, encode_cons, encodeChar_single hplain]
    rfl
  | case3 u v rest hpair ih =>
    rw [wellFormed, if_pos hpair] at h
    rw [decode_pair hpair, encode_cons, encodeChar_pair hpair, ih h]
    rfl
  | case4 u v rest hpair ih =>
    rw [wellFormed, if_neg hpair, Bool.and_eq_true] at h
    have hplain : (isHigh u || isLow u) = false := by
      simpa using h.1
    rw [decode_single hplain, encode_cons, encodeChar_single hplain, ih h.2]
    rfl

theorem mem_encode_iff (hplain : (isHigh u || isLow u) = false) (text : List Char) :
    u ∈ encode text ↔ Char.ofNat u.toNat ∈ text := by
  have hself := encodeChar_single hplain
  induction text with
  | nil => exact iff_of_false List.not_mem_nil List.not_mem_nil
  | cons c text ih =>
    rw [encode_cons, List.mem_append, List.mem_cons]
    refine or_congr ?_ ih
    obtain ⟨v, hv, hcode, -⟩ | ⟨v, w, hvw, hpair, -⟩ := encodeChar_cases c
    · rw [hv, List.mem_singleton]
      constructor
      · rintro rfl
        rw [hcode, Char.ofNat_toNat]
      · rintro rfl
        rw [hself] at hv
        exact (List.cons.inj hv).1
    · refine iff_of_false (fun hu => ?_) fun hc => ?_
      · obtain ⟨hhigh, hlow⟩ := Bool.and_eq_true_iff.mp hpair
        obtain ⟨hnotHigh, hnotLow⟩ := Bool.or_eq_false_iff.mp hplain
        rw [hvw, List.mem_cons, List.mem_singleton] at hu
        obtain rfl | rfl := hu
        · rw [hhigh] at hnotHigh
          cases hnotHigh
        · rw [hlow] at hnotLow
          cases hnotLow
      · rw [← hc, hself] at hvw
        cases hvw

end Codec

end ProxySwitch.Utf16
