import ProxySwitch.InternetChecksum
import Mathlib.Data.Nat.Bitwise

set_option autoImplicit false

namespace ProxySwitch.PacketChecksums
open InternetChecksum

abbrev Byte := BitVec 8

/-- `m_IBuffer`. -/
abbrev Buffer := ℕ → Byte

/-- `((buff[i] << 8) & 0xFF00) + (buff[i + 1] & 0xFF)`, and so `ntohs` of the field at `i`. -/
def read16 (b : Buffer) (i : ℕ) : BitVec 16 := b i ++ b (i + 1)

/-- The field at `i` becomes `htons(w)`. -/
def write16 (b : Buffer) (i : ℕ) (w : BitVec 16) : Buffer := fun j =>
  if j = i then w.extractLsb' 8 8 else if j = i + 1 then w.extractLsb' 0 8 else b j

/-! ### The IP header, which begins behind the 14 bytes of the Ethernet header -/

def ipHl (b : Buffer) : BitVec 4 := (b 14).extractLsb' 0 4

def ipLen (b : Buffer) : BitVec 16 := read16 b 16

def ipP (b : Buffer) : Byte := b 23

/-- `sizeof(DWORD) * ip_hl`. -/
def ipHeaderLength (b : Buffer) : ℕ := 4 * (ipHl b).toNat

def transportHeader (b : Buffer) : ℕ := 14 + ipHeaderLength b

section Sums
variable (b : Buffer)

/-- The loop over the 16-bit words, `k` of them from `start` on. -/
def addWords (start : ℕ) : ℕ → BitVec 32 → BitVec 32
  | 0, sum => sum
  | k + 1, sum => addWords (start + 2) k (sum + (read16 b start).setWidth 32)

theorem toNat_carries (sum : BitVec 32) :
    ((sum &&& 0xFFFF#32) + (sum >>> 16)).toNat = sum.toNat % 65536 + sum.toNat / 65536 := by
  have hlt := sum.isLt
  have hand : sum.toNat &&& (0xFFFF#32).toNat = sum.toNat % 65536 :=
    Nat.and_two_pow_sub_one_eq_mod sum.toNat 16
  rw [BitVec.toNat_add, BitVec.toNat_and, hand, BitVec.toNat_ushiftRight, Nat.shiftRight_eq_div_pow]
  omega

theorem shiftRight_eq_zero (sum : BitVec 32) : sum >>> 16 = 0 ↔ sum.toNat < 65536 := by
  rw [← BitVec.toNat_inj, BitVec.toNat_ushiftRight, Nat.shiftRight_eq_div_pow]
  change sum.toNat / 65536 = 0 ↔ _
  omega

/-- `while (sum >> 16) sum = (sum & 0xFFFF) + (sum >> 16)`. -/
def foldCarries (sum : BitVec 32) : BitVec 32 :=
  if sum >>> 16 = 0 then sum else foldCarries ((sum &&& 0xFFFF#32) + (sum >>> 16))
termination_by sum.toNat
decreasing_by
  rw [toNat_carries]
  apply carries_lt (by decide)
  have := (shiftRight_eq_zero sum).not.mp ‹_›
  omega

/-- `static_cast<unsigned short>(~sum)` of the folded sum. -/
def complement (sum : BitVec 32) : BitVec 16 := (~~~foldCarries sum).setWidth 16

end Sums

def recalculateIpChecksum (b : Buffer) : Buffer :=
  let b := write16 b 24 0#16
  write16 b 24 (complement (addWords b 14 (ipHeaderLength b / 2) 0#32))

/-- What tells the three other functions apart: the protocol they look for, where its checksum lies
    in its header, and whether the pseudo header counts. Only a receiver reads the length that the
    header may have. -/
structure Transport where
  protocol : Byte
  lengthField : Option ℕ
  checksumField : ℕ
  pseudoHeader : Bool
  aligned : 2 ∣ checksumField
  lengthBefore : ∀ i ∈ lengthField, i + 2 ≤ checksumField

section Transport
variable (t : Transport) (b : Buffer)

/-- `ntohs(ip_len) - ip_hl * 4` as a `DWORD`. -/
def transportLength : BitVec 32 := (ipLen b).setWidth 32 - BitVec.ofNat 32 (ipHeaderLength b)

def addPseudoHeader (length sum : BitVec 32) : BitVec 32 :=
  let sum := sum + (read16 b 26).setWidth 32 + (read16 b 28).setWidth 32
  let sum := sum + (read16 b 30).setWidth 32 + (read16 b 32).setWidth 32
  sum + t.protocol.setWidth 32 + (length.setWidth 16).setWidth 32

def pad : Buffer :=
  let length := transportLength b
  if length / 2 * 2 ≠ length then
    Function.update b (length + BitVec.ofNat 32 (ipHeaderLength b) + 14#32).toNat 0
  else b

/-- `dwLen + padd`. -/
def paddedLength : BitVec 32 :=
  let length := transportLength b
  if length / 2 * 2 ≠ length then length + 1 else length

def recalculateTransportChecksum : Buffer :=
  if ipP b = t.protocol then
    let header := transportHeader b
    let length := transportLength b
    let words := (paddedLength b).toNat / 2
    let b := write16 (pad b) (header + t.checksumField) 0#16
    let sum := addWords b header words 0#32
    let sum := if t.pseudoHeader then addPseudoHeader t b length sum else sum
    write16 b (header + t.checksumField) (complement sum)
  else b

def tcp : Transport := ⟨6, none, 16, true, by decide, by decide⟩

def udp : Transport := ⟨17, some 4, 6, true, by decide, by decide⟩

def icmp : Transport := ⟨1, none, 2, false, by decide, by decide⟩

def recalculateTcpChecksum : Buffer := recalculateTransportChecksum tcp b

def recalculateUdpChecksum : Buffer := recalculateTransportChecksum udp b

def recalculateIcmpChecksum : Buffer := recalculateTransportChecksum icmp b

end Transport

/-! ### What a receiver checks -/

/-- The sum of the 16-bit words among the `n` bytes from `start` on. -/
def sumFrom (b : Buffer) (start n : ℕ) : ℕ := wordSum 256 (fun i => (b (start + i)).toNat) n

def segmentLength (b : Buffer) : ℕ := (ipLen b).toNat - ipHeaderLength b

def HeaderAccepted (b : Buffer) : Prop := fold 65536 (sumFrom b 14 (ipHeaderLength b)) = 65535

/-- The packet is its own segment: no fragment of one, and no longer than the header says. -/
structure Whole (t : Transport) (b : Buffer) : Prop where
  unfragmented : read16 b 20 &&& 0x3FFF#16 = 0#16
  length : ∀ i ∈ t.lengthField, (read16 b (transportHeader b + i)).toNat = segmentLength b

structure SegmentAccepted (t : Transport) (b : Buffer) : Prop where
  whole : Whole t b
  sum : fold 65536 (sumFrom b (transportHeader b) (segmentLength b) +
    if t.pseudoHeader then sumFrom b 26 8 + t.protocol.toNat + segmentLength b else 0) = 65535

structure HasSegment (t : Transport) (b : Buffer) : Prop where
  protocol : ipP b = t.protocol
  ipHl : 5 ≤ (ipHl b).toNat
  field : ipHeaderLength b + t.checksumField + 2 ≤ (ipLen b).toNat

/-- What recalculating may write: the two checksums, and behind a packet of odd length one byte. -/
def Written (t : Transport) (b : Buffer) (j : ℕ) : Prop :=
  j = 24 ∨ j = 25 ∨ j = transportHeader b + t.checksumField ∨ j = transportHeader b + t.checksumField + 1 ∨
    (ipLen b).toNat % 2 = 1 ∧ j = 14 + (ipLen b).toNat

section Fields
variable {b c : Buffer} {w : BitVec 16} {i j k n start : ℕ}

theorem write16_of_ne (hfst : j ≠ i) (hsnd : j ≠ i + 1) : write16 b i w j = b j := by
  rw [write16, if_neg hfst, if_neg hsnd]

theorem write16_write16 {v : BitVec 16} : write16 (write16 b i v) i w = write16 b i w := by
  funext j
  unfold write16
  split_ifs <;> rfl

theorem read16_write16 : read16 (write16 b i w) i = w := by
  rw [read16, write16, write16, if_pos rfl, if_neg (by omega), if_pos rfl]
  exact BitVec.extractLsb'_append_extractLsb'_eq_extractLsb' (by decide) |>.trans (by simp)

theorem read16_congr (hfst : b i = c i) (hsnd : b (i + 1) = c (i + 1)) : read16 b i = read16 c i := by
  rw [read16, read16, hfst, hsnd]

theorem read16_toNat (b : Buffer) (i : ℕ) :
    (read16 b i).toNat = (b i).toNat * 256 + (b (i + 1)).toNat := by
  rw [read16, BitVec.toNat_append, ← Nat.shiftLeft_add_eq_or_of_lt (b (i + 1)).isLt, Nat.shiftLeft_eq]

theorem sumFrom_congr (h : ∀ i < n, b (start + i) = c (start + i)) :
    sumFrom b start n = sumFrom c start n := by
  apply pairSum_congr
  intro i hi
  rw [h i hi]

theorem sumFrom_write16 (hi : i = start + 2 * j) (hj : 2 * j + 1 < n) :
    sumFrom (write16 b i w) start n = sumFrom (write16 b i 0#16) start n + w.toNat := by
  subst hi
  unfold sumFrom
  rw [wordSum_set hj]
  · congr 1
    rw [← Nat.add_assoc, ← read16_toNat, read16_write16]
  · simp [write16]
  · simp [write16, Nat.add_assoc]
  · intro i _ hfst hsnd
    rw [write16_of_ne (by omega) (by omega), write16_of_ne (by omega) (by omega)]

theorem sumFrom_words (b : Buffer) (start k : ℕ) :
    sumFrom b start (2 * k) = ∑ i ∈ Finset.range k, (read16 b (start + 2 * i)).toNat := by
  rw [sumFrom, wordSum_even]
  apply Finset.sum_congr rfl
  intro i _
  rw [read16_toNat, Nat.add_assoc]

theorem sumFrom_le (b : Buffer) (start k : ℕ) : sumFrom b start (2 * k) ≤ k * 65535 :=
  wordSum_le fun i _ => (b (start + i)).isLt

end Fields

section Arithmetic
variable {b : Buffer} {sum : BitVec 32}

theorem foldCarries_toNat (sum : BitVec 32) : (foldCarries sum).toNat = fold 65536 sum.toNat := by
  fun_induction foldCarries sum with
  | case1 sum h => rw [fold_of_lt ((shiftRight_eq_zero sum).mp h)]
  | case2 sum h ih =>
    have hle := (shiftRight_eq_zero sum).not.mp h
    rw [ih, toNat_carries, ← fold_of_le (by omega)]

theorem complement_toNat (sum : BitVec 32) : (complement sum).toNat = 65535 - fold 65536 sum.toNat := by
  have hlt := fold_lt (B := 65536) sum.toNat
  rw [complement, BitVec.toNat_setWidth, BitVec.toNat_not, foldCarries_toNat]
  omega

theorem addWords_toNat (b : Buffer) (start k : ℕ) (sum : BitVec 32) (h : sum.toNat + k * 65535 < 2 ^ 32) :
    (addWords b start k sum).toNat = sum.toNat + sumFrom b start (2 * k) := by
  induction k generalizing start sum with
  | zero => rfl
  | succ k ih =>
    have hword := (read16 b start).isLt
    have hsum : (sum + (read16 b start).setWidth 32).toNat = sum.toNat + (read16 b start).toNat := by
      rw [BitVec.toNat_add, BitVec.toNat_setWidth]
      omega
    have hshift : ∀ i, start + 2 * (i + 1) = start + 2 + 2 * i := by
      intro i
      ring
    rw [addWords, ih (start + 2) _ (by omega), hsum, sumFrom_words, sumFrom_words, Finset.sum_range_succ']
    simp only [hshift, mul_zero, add_zero]
    omega

theorem addWords_congr {c : Buffer} {start k : ℕ} (h : ∀ i < 2 * k, b (start + i) = c (start + i)) :
    addWords b start k sum = addWords c start k sum := by
  induction k generalizing start sum with
  | zero => rfl
  | succ k ih =>
    have hword : read16 b start = read16 c start := read16_congr (h 0 (by omega)) (h 1 (by omega))
    rw [addWords, addWords, hword]
    apply ih
    intro i hi
    rw [Nat.add_assoc]
    exact h (2 + i) (by omega)

/-- A field that takes the complement of a sum over everything but itself completes that sum. -/
theorem accepted_of_complement {start n i j rest : ℕ} (hi : i = start + 2 * j) (hj : 2 * j + 1 < n)
    (hsum : sum.toNat = sumFrom (write16 b i 0#16) start n + rest) :
    fold 65536 (sumFrom (write16 b i (complement sum)) start n + rest) = 65535 := by
  have hcomplement := fold_complement (B := 65536) sum.toNat
  rw [sumFrom_write16 hi hj, complement_toNat, Nat.add_right_comm, ← hsum]
  exact hcomplement

end Arithmetic

/-! ### The IP header -/

section Header
variable {b c : Buffer} {j n : ℕ}

theorem recalculateIpChecksum_of_ne (hfst : j ≠ 24) (hsnd : j ≠ 25) : recalculateIpChecksum b j = b j := by
  unfold recalculateIpChecksum
  rw [write16_of_ne hfst hsnd, write16_of_ne hfst hsnd]

theorem ipHl_congr (h : b 14 = c 14) : ipHl b = ipHl c := by
  rw [ipHl, ipHl, h]

theorem ipHeaderLength_congr (h : b 14 = c 14) : ipHeaderLength b = ipHeaderLength c := by
  rw [ipHeaderLength, ipHeaderLength, ipHl_congr h]

theorem ipHeaderLength_le (b : Buffer) : ipHeaderLength b ≤ 60 := by
  have hlt := (ipHl b).isLt
  unfold ipHeaderLength
  omega

/-- The first twelve bytes suffice, which contain the checksum. -/
theorem recalculateIpChecksum_accepted (h : 3 ≤ (ipHl b).toNat) : HeaderAccepted (recalculateIpChecksum b) := by
  have hlength : ipHeaderLength (recalculateIpChecksum b) = ipHeaderLength b :=
    ipHeaderLength_congr (recalculateIpChecksum_of_ne (by decide) (by decide))
  have hzeroed : ipHeaderLength (write16 b 24 0#16) = ipHeaderLength b :=
    ipHeaderLength_congr (write16_of_ne (by decide) (by decide))
  have hle := ipHeaderLength_le b
  have hlarge : 2 * 5 + 1 < ipHeaderLength b := by
    unfold ipHeaderLength
    omega
  have hwords : 2 * (ipHeaderLength b / 2) = ipHeaderLength b := by
    unfold ipHeaderLength
    omega
  have hsum := addWords_toNat (write16 b 24 0#16) 14 (ipHeaderLength b / 2) 0#32 (by
    rw [BitVec.toNat_zero]
    omega)
  rw [hwords, BitVec.toNat_zero, Nat.zero_add] at hsum
  unfold HeaderAccepted
  rw [hlength, recalculateIpChecksum, hzeroed, write16_write16]
  have haccepted := accepted_of_complement (j := 5) (show 24 = 14 + 2 * 5 from rfl) hlarge
    (hsum.trans (Nat.add_zero _).symm)
  rwa [Nat.add_zero] at haccepted

end Header

/-! ### The transport protocols -/

section Segment
variable {t : Transport} {b c : Buffer} {j n : ℕ}

theorem ipLen_congr (hfst : b 16 = c 16) (hsnd : b 17 = c 17) : ipLen b = ipLen c :=
  read16_congr hfst hsnd

theorem transportLength_toNat (h : ipHeaderLength b ≤ (ipLen b).toNat) :
    (transportLength b).toNat = segmentLength b := by
  have hlen := (ipLen b).isLt
  have hle := ipHeaderLength_le b
  rw [transportLength, segmentLength, BitVec.toNat_sub, BitVec.toNat_setWidth, BitVec.toNat_ofNat]
  omega

theorem isOdd_iff (length : BitVec 32) : length / 2 * 2 ≠ length ↔ length.toNat % 2 = 1 := by
  have hlt := length.isLt
  have hhalf : (length / 2#32).toNat = length.toNat / 2 := BitVec.toNat_udiv
  rw [Ne, ← BitVec.toNat_inj]
  change ¬(length / 2#32 * 2#32).toNat = _ ↔ _
  rw [BitVec.toNat_mul, hhalf, BitVec.toNat_ofNat]
  omega

theorem segmentLength_odd (h : ipHeaderLength b ≤ (ipLen b).toNat) :
    (transportLength b).toNat % 2 = 1 ↔ (ipLen b).toNat % 2 = 1 := by
  rw [transportLength_toNat h, segmentLength]
  unfold ipHeaderLength at h ⊢
  omega

theorem paddedLength_toNat (h : ipHeaderLength b ≤ (ipLen b).toNat) :
    (paddedLength b).toNat = segmentLength b + segmentLength b % 2 := by
  have hlen := (ipLen b).isLt
  have hlength := transportLength_toNat h
  have hlt : segmentLength b < 2 ^ 16 := by
    unfold segmentLength
    omega
  simp only [paddedLength]
  split
  · rename_i hodd
    rw [isOdd_iff, hlength] at hodd
    rw [BitVec.toNat_add, hlength, hodd]
    change (_ + 1) % 2 ^ 32 = _
    omega
  · rename_i heven
    rw [isOdd_iff, hlength] at heven
    rw [hlength]
    omega

theorem pad_eq (h : ipHeaderLength b ≤ (ipLen b).toNat) :
    pad b = if (ipLen b).toNat % 2 = 1 then Function.update b (14 + (ipLen b).toNat) 0 else b := by
  have hlen := (ipLen b).isLt
  have hle := ipHeaderLength_le b
  have hindex : (transportLength b + BitVec.ofNat 32 (ipHeaderLength b) + 14#32).toNat =
      14 + (ipLen b).toNat := by
    rw [BitVec.toNat_add, BitVec.toNat_add, transportLength_toNat h, segmentLength, BitVec.toNat_ofNat,
      BitVec.toNat_ofNat]
    omega
  simp only [pad, isOdd_iff, segmentLength_odd h, hindex]

theorem pad_of_ne (h : ipHeaderLength b ≤ (ipLen b).toNat)
    (hj : ¬((ipLen b).toNat % 2 = 1 ∧ j = 14 + (ipLen b).toNat)) : pad b j = b j := by
  rw [pad_eq h]
  split
  · exact Function.update_of_ne (fun heq => hj ⟨‹_›, heq⟩) _ _
  · rfl

theorem sumFrom_pad (h : ipHeaderLength b ≤ (ipLen b).toNat)
    (hc : (ipLen b).toNat % 2 = 1 → c (14 + (ipLen b).toNat) = 0) :
    sumFrom c (transportHeader b) (2 * ((paddedLength b).toNat / 2)) =
      sumFrom c (transportHeader b) (segmentLength b) := by
  have hwords : 2 * ((paddedLength b).toNat / 2) = segmentLength b + segmentLength b % 2 := by
    rw [paddedLength_toNat h]
    omega
  rw [hwords]
  apply wordSum_pad
  intro i hle hlt
  have hodd := segmentLength_odd h
  rw [transportLength_toNat h] at hodd
  have hi : transportHeader b + i = 14 + (ipLen b).toNat := by
    unfold transportHeader
    unfold segmentLength at hle hlt
    omega
  rw [hi, hc (hodd.mp (by omega))]
  rfl

theorem addPseudoHeader_toNat {length sum : BitVec 32} (hlength : length.toNat < 65536)
    (hsum : sum.toNat ≤ 32768 * 65535) :
    (addPseudoHeader t b length sum).toNat =
      sum.toNat + (sumFrom b 26 8 + t.protocol.toNat + length.toNat) := by
  have hprotocol := t.protocol.isLt
  have h26 := (read16 b 26).isLt
  have h28 := (read16 b 28).isLt
  have h30 := (read16 b 30).isLt
  have h32 := (read16 b 32).isLt
  have haddresses : sumFrom b 26 8 =
      (read16 b 26).toNat + (read16 b 28).toNat + (read16 b 30).toNat + (read16 b 32).toNat := by
    rw [sumFrom_words b 26 4]
    simp [Finset.sum_range_succ]
  simp only [addPseudoHeader, BitVec.toNat_add, BitVec.toNat_setWidth]
  omega

end Segment

section Recalculated
variable {t : Transport} {b c : Buffer} {j n : ℕ}

theorem HasSegment.le (h : HasSegment t b) : ipHeaderLength b ≤ (ipLen b).toNat := by
  have := h.field
  omega

/-- Where the segment lies and whose it is are told by the front of the IP header. -/
theorem lengths_of_front (hbc : ∀ j, 12 ≤ j → j < 24 → c j = b j) :
    ipHeaderLength c = ipHeaderLength b ∧ ipLen c = ipLen b ∧ transportHeader c = transportHeader b := by
  have hhl : ipHeaderLength c = ipHeaderLength b := ipHeaderLength_congr (hbc 14 (by decide) (by decide))
  refine ⟨hhl, ipLen_congr (hbc 16 (by decide) (by decide)) (hbc 17 (by decide) (by decide)), ?_⟩
  rw [transportHeader, hhl, transportHeader]

theorem HasSegment.of_front (h : HasSegment t b) (hbc : ∀ j, 12 ≤ j → j < 24 → c j = b j) :
    HasSegment t c := by
  obtain ⟨hhl, hlen, -⟩ := lengths_of_front hbc
  refine ⟨(hbc 23 (by decide) (by decide)).trans h.protocol, ?_, ?_⟩
  · rw [ipHl_congr (hbc 14 (by decide) (by decide))]
    exact h.ipHl
  · rw [hhl, hlen]
    exact h.field

theorem Whole.of_front (h : Whole t b) (hbc : ∀ j, 12 ≤ j → j < 24 → c j = b j)
    (hlength : ∀ i ∈ t.lengthField, read16 c (transportHeader b + i) = read16 b (transportHeader b + i)) :
    Whole t c := by
  obtain ⟨hhl, hlen, hstart⟩ := lengths_of_front hbc
  have hoff : read16 c 20 = read16 b 20 :=
    read16_congr (hbc 20 (by decide) (by decide)) (hbc 21 (by decide) (by decide))
  refine ⟨by rw [hoff, h.unfragmented], fun i hi => ?_⟩
  rw [hstart, hlength i hi, h.length i hi, segmentLength, segmentLength, hhl, hlen]

def zeroed (t : Transport) (b : Buffer) : Buffer :=
  write16 (pad b) (transportHeader b + t.checksumField) 0#16

def transportSum (t : Transport) (b : Buffer) : BitVec 32 :=
  let words := addWords (zeroed t b) (transportHeader b) ((paddedLength b).toNat / 2) 0#32
  if t.pseudoHeader then addPseudoHeader t (zeroed t b) (transportLength b) words else words

theorem recalculateTransportChecksum_eq (h : ipP b = t.protocol) :
    recalculateTransportChecksum t b =
      write16 (zeroed t b) (transportHeader b + t.checksumField) (complement (transportSum t b)) := by
  rw [recalculateTransportChecksum, if_pos h]
  rfl

theorem zeroed_of_not_written (h : HasSegment t b) (hj : ¬Written t b j) : zeroed t b j = b j := by
  unfold Written at hj
  push Not at hj
  obtain ⟨-, -, hfst, hsnd, hpad⟩ := hj
  rw [zeroed, write16_of_ne hfst hsnd, pad_of_ne h.le fun hodd => hpad hodd.1 hodd.2]

theorem recalculateTransportChecksum_of_not_written (h : HasSegment t b) (hj : ¬Written t b j) :
    recalculateTransportChecksum t b j = b j := by
  rw [← zeroed_of_not_written h hj, recalculateTransportChecksum_eq h.protocol]
  unfold Written at hj
  push Not at hj
  obtain ⟨-, -, hfst, hsnd, -⟩ := hj
  exact write16_of_ne hfst hsnd

theorem recalculateTransportChecksum_eq_pad (h : ipP b = t.protocol) (hfst : j ≠ transportHeader b + t.checksumField)
    (hsnd : j ≠ transportHeader b + t.checksumField + 1) : recalculateTransportChecksum t b j = pad b j := by
  rw [recalculateTransportChecksum_eq h, write16_of_ne hfst hsnd, zeroed, write16_of_ne hfst hsnd]

/-- The bytes of the IP header that the checksums depend on lie before all that is written. -/
theorem not_written_of_header (h : HasSegment t b) (hj : j < 34) (hsum : j ≠ 24 ∧ j ≠ 25) :
    ¬Written t b j := by
  have hipHl := h.ipHl
  have hfield := h.field
  unfold Written transportHeader
  unfold ipHeaderLength at hfield ⊢
  omega

theorem not_written_of_before (h : HasSegment t b) {i : ℕ} (hi : i < t.checksumField) :
    ¬Written t b (transportHeader b + i) := by
  have hipHl := h.ipHl
  have hfield := h.field
  unfold Written transportHeader
  unfold ipHeaderLength at hfield ⊢
  omega

theorem Whole.recalculated (hwhole : Whole t b) (h : HasSegment t b) :
    Whole t (recalculateTransportChecksum t b) := by
  refine hwhole.of_front (fun j hle hlt => ?_) fun i hi => ?_
  · exact recalculateTransportChecksum_of_not_written h (not_written_of_header h (by omega) (by omega))
  · have hbefore := t.lengthBefore i hi
    apply read16_congr
    · exact recalculateTransportChecksum_of_not_written h (not_written_of_before h (i := i) (by omega))
    · exact recalculateTransportChecksum_of_not_written h (not_written_of_before h (i := i + 1) (by omega))

theorem zeroed_padding (h : HasSegment t b) (hodd : (ipLen b).toNat % 2 = 1) :
    zeroed t b (14 + (ipLen b).toNat) = 0 := by
  have hfield := h.field
  rw [zeroed, write16_of_ne, pad_eq h.le, if_pos hodd, Function.update_self]
  · unfold transportHeader
    omega
  · unfold transportHeader
    omega

theorem paddedWords_le (h : ipHeaderLength b ≤ (ipLen b).toNat) : (paddedLength b).toNat / 2 ≤ 32768 := by
  have hlen := (ipLen b).isLt
  rw [paddedLength_toNat h, segmentLength]
  omega

/-- No sum over a segment overflows. -/
theorem addWords_zeroed (h : HasSegment t b) :
    (addWords (zeroed t b) (transportHeader b) ((paddedLength b).toNat / 2) 0#32).toNat =
      sumFrom (zeroed t b) (transportHeader b) (2 * ((paddedLength b).toNat / 2)) := by
  have hwords := paddedWords_le h.le
  rw [addWords_toNat _ _ _ _ (by rw [BitVec.toNat_zero]; omega), BitVec.toNat_zero, Nat.zero_add]

theorem transportSum_toNat (h : HasSegment t b) :
    (transportSum t b).toNat = sumFrom (zeroed t b) (transportHeader b) (segmentLength b) +
      if t.pseudoHeader then sumFrom b 26 8 + t.protocol.toNat + segmentLength b else 0 := by
  have hshort : segmentLength b < 65536 := by
    have := (ipLen b).isLt
    unfold segmentLength
    omega
  have hzeroed : sumFrom (zeroed t b) 26 8 = sumFrom b 26 8 :=
    sumFrom_congr fun i hi => zeroed_of_not_written h (not_written_of_header h (by omega) (by omega))
  have hwords := addWords_zeroed h
  have hbound : (addWords (zeroed t b) (transportHeader b) ((paddedLength b).toNat / 2) 0#32).toNat ≤
      32768 * 65535 := by
    rw [hwords]
    exact (sumFrom_le _ _ _).trans (Nat.mul_le_mul_right _ (paddedWords_le h.le))
  rw [sumFrom_pad h.le (zeroed_padding h)] at hwords
  simp only [transportSum]
  split
  · rw [addPseudoHeader_toNat (by rwa [transportLength_toNat h.le]) hbound, hwords, hzeroed,
      transportLength_toNat h.le]
  · rw [hwords, Nat.add_zero]

theorem recalculateTransportChecksum_accepted (h : HasSegment t b) (hwhole : Whole t b) :
    SegmentAccepted t (recalculateTransportChecksum t b) := by
  refine ⟨hwhole.recalculated h, ?_⟩
  have hheader : ∀ j, j < 34 → j ≠ 24 ∧ j ≠ 25 → recalculateTransportChecksum t b j = b j :=
    fun j hj hsum => recalculateTransportChecksum_of_not_written h (not_written_of_header h hj hsum)
  have hhl : ipHeaderLength (recalculateTransportChecksum t b) = ipHeaderLength b :=
    ipHeaderLength_congr (hheader 14 (by decide) (by decide))
  have hlen : ipLen (recalculateTransportChecksum t b) = ipLen b :=
    ipLen_congr (hheader 16 (by decide) (by decide)) (hheader 17 (by decide) (by decide))
  have hsegment : segmentLength (recalculateTransportChecksum t b) = segmentLength b := by
    rw [segmentLength, hhl, hlen, segmentLength]
  have hstart : transportHeader (recalculateTransportChecksum t b) = transportHeader b := by
    rw [transportHeader, hhl, transportHeader]
  have haddresses : sumFrom (recalculateTransportChecksum t b) 26 8 = sumFrom b 26 8 :=
    sumFrom_congr fun i hi => hheader (26 + i) (by omega) (by omega)
  have hsum := transportSum_toNat h
  rw [hsegment, hstart, haddresses, recalculateTransportChecksum_eq h.protocol, zeroed, write16_write16]
  obtain ⟨k, hk⟩ := t.aligned
  have hfield := h.field
  refine accepted_of_complement (j := k) (by rw [hk]) ?_ hsum
  unfold segmentLength
  omega

section Congr
variable (h : HasSegment t b) (hn : 14 + (ipLen b).toNat + (ipLen b).toNat % 2 ≤ n) (hbc : ∀ j < n, b j = c j)
include h hn hbc

theorem header_congr (hj : j < 34) : b j = c j := by
  have hfield := h.field
  have hipHl := h.ipHl
  unfold ipHeaderLength at hfield
  exact hbc j (by omega)

theorem front_congr (j : ℕ) (_ : 12 ≤ j) (hj : j < 24) : c j = b j :=
  (header_congr h hn hbc (by omega)).symm

theorem starts_congr : transportHeader c = transportHeader b ∧ transportLength c = transportLength b ∧
    paddedLength c = paddedLength b := by
  obtain ⟨hhl, hlen, hstart⟩ := lengths_of_front (front_congr h hn hbc)
  have hlength : transportLength c = transportLength b := by
    rw [transportLength, hhl, hlen, transportLength]
  refine ⟨hstart, hlength, ?_⟩
  rw [paddedLength, hlength, paddedLength]

theorem zeroed_congr (hj : j < n) : zeroed t b j = zeroed t c j := by
  have hc := h.of_front (front_congr h hn hbc)
  have hpad : pad b j = pad c j := by
    rw [pad_eq h.le, pad_eq hc.le, (lengths_of_front (front_congr h hn hbc)).2.1]
    split
    · rw [Function.update_apply, Function.update_apply, hbc j hj]
    · exact hbc j hj
  rw [zeroed, zeroed, (starts_congr h hn hbc).1]
  unfold write16
  rw [hpad]

theorem transportSum_congr : transportSum t b = transportSum t c := by
  obtain ⟨hstart, hlength, hpadded⟩ := starts_congr h hn hbc
  have hwords : addWords (zeroed t b) (transportHeader b) ((paddedLength b).toNat / 2) 0#32 =
      addWords (zeroed t c) (transportHeader b) ((paddedLength b).toNat / 2) 0#32 := by
    apply addWords_congr
    intro i hi
    apply zeroed_congr h hn hbc
    have hle := h.le
    rw [paddedLength_toNat hle, segmentLength] at hi
    unfold transportHeader
    unfold ipHeaderLength at hi hle ⊢
    omega
  have haddresses : ∀ i, i + 1 < 34 → read16 (zeroed t b) i = read16 (zeroed t c) i := by
    intro i hi
    have hfield := h.field
    have hipHl := h.ipHl
    unfold ipHeaderLength at hfield
    exact read16_congr (zeroed_congr h hn hbc (by omega)) (zeroed_congr h hn hbc (by omega))
  simp only [transportSum, addPseudoHeader, hstart, hlength, hpadded, hwords, haddresses 26 (by decide),
    haddresses 28 (by decide), haddresses 30 (by decide), haddresses 32 (by decide)]

/-- Neither what is read nor what is written lies behind the padded packet. -/
theorem recalculateTransportChecksum_congr (hj : j < n) :
    recalculateTransportChecksum t b j = recalculateTransportChecksum t c j := by
  have hc := h.of_front (front_congr h hn hbc)
  rw [recalculateTransportChecksum_eq h.protocol, recalculateTransportChecksum_eq hc.protocol,
    (starts_congr h hn hbc).1, transportSum_congr h hn hbc]
  unfold write16
  rw [zeroed_congr h hn hbc hj]

end Congr

end Recalculated

/-! ### Both checksums -/

/-- Both checksums are right, that of the segment if the packet is all of it; otherwise the bytes are
    those of `b`, and neither is read nor written behind the padded packet. -/
structure Repaired (t : Transport) (b : Buffer) (recalculate : Buffer → Buffer) : Prop where
  header : HeaderAccepted (recalculate b)
  segment : Whole t b → SegmentAccepted t (recalculate b)
  frame : ∀ j, ¬Written t b j → recalculate b j = b j
  inPacket : ∀ c n, 14 + (ipLen b).toNat + (ipLen b).toNat % 2 ≤ n → (∀ j < n, b j = c j) →
    ∀ j < n, recalculate b j = recalculate c j

section Repaired
variable {t : Transport} {b c : Buffer} {j n : ℕ}

theorem SegmentAccepted.recalculateIpChecksum (h : SegmentAccepted t b) (hipHl : 5 ≤ (ipHl b).toNat) :
    SegmentAccepted t (recalculateIpChecksum b) := by
  have hkeep : ∀ j, j < 24 ∨ 25 < j → PacketChecksums.recalculateIpChecksum b j = b j :=
    fun j hj => recalculateIpChecksum_of_ne (by omega) (by omega)
  have hlarge : 25 < transportHeader b := by
    unfold transportHeader ipHeaderLength
    omega
  obtain ⟨hhl, hlen, hstart⟩ := lengths_of_front fun j _ hlt => hkeep j (.inl hlt)
  have haddresses : sumFrom (PacketChecksums.recalculateIpChecksum b) 26 8 = sumFrom b 26 8 :=
    sumFrom_congr fun i _ => hkeep (26 + i) (by omega)
  have hsegment : sumFrom (PacketChecksums.recalculateIpChecksum b) (transportHeader b) (segmentLength b) =
      sumFrom b (transportHeader b) (segmentLength b) := by
    apply sumFrom_congr
    intro i _
    exact hkeep _ (by omega)
  have hlength : segmentLength (PacketChecksums.recalculateIpChecksum b) = segmentLength b := by
    rw [segmentLength, hhl, hlen, segmentLength]
  refine ⟨h.whole.of_front (fun j _ hlt => hkeep j (.inl hlt)) fun i _ => ?_, ?_⟩
  · exact read16_congr (hkeep _ (by omega)) (hkeep _ (by omega))
  · rw [hlength, hstart, haddresses, hsegment]
    exact h.sum

theorem recalculateIpChecksum_congr (hn : 14 + ipHeaderLength b ≤ n) (hipHl : 5 ≤ (ipHl b).toNat)
    (hbc : ∀ j < n, b j = c j) (hj : j < n) : recalculateIpChecksum b j = recalculateIpChecksum c j := by
  have hlarge : 34 ≤ n := by
    unfold ipHeaderLength at hn
    omega
  have hzeroed : ∀ j < n, write16 b 24 0#16 j = write16 c 24 0#16 j := by
    intro j hj
    unfold write16
    rw [hbc j hj]
  have hhl : ∀ d, ipHeaderLength (write16 d 24 0#16) = ipHeaderLength d := fun d =>
    ipHeaderLength_congr (write16_of_ne (by decide) (by decide))
  have hsame : ipHeaderLength c = ipHeaderLength b := ipHeaderLength_congr (hbc 14 (by omega)).symm
  have hsum : addWords (write16 b 24 0#16) 14 (ipHeaderLength b / 2) 0#32 =
      addWords (write16 c 24 0#16) 14 (ipHeaderLength b / 2) 0#32 := by
    apply addWords_congr
    intro i hi
    exact hzeroed (14 + i) (by omega)
  unfold recalculateIpChecksum
  rw [hhl, hhl, hsame, hsum]
  unfold write16
  rw [hbc j hj]

theorem repaired (h : HasSegment t b) :
    Repaired t b fun b => recalculateIpChecksum (recalculateTransportChecksum t b) := by
  have hhl : ipHl (recalculateTransportChecksum t b) = ipHl b :=
    ipHl_congr (recalculateTransportChecksum_of_not_written h (not_written_of_header h (by decide) (by decide)))
  have hipHl := h.ipHl
  refine ⟨?_, fun hwhole => ?_, fun j hj => ?_, fun c n hn hbc j hj => ?_⟩
  · apply recalculateIpChecksum_accepted
    rw [hhl]
    omega
  · exact (recalculateTransportChecksum_accepted h hwhole).recalculateIpChecksum (by rw [hhl]; exact hipHl)
  · have hsum := hj
    unfold Written at hsum
    rw [recalculateIpChecksum_of_ne (by omega) (by omega), recalculateTransportChecksum_of_not_written h hj]
  · have hle := h.le
    refine recalculateIpChecksum_congr ?_ (by rw [hhl]; exact hipHl) ?_ hj
    · unfold ipHeaderLength at hle ⊢
      rw [hhl]
      omega
    · exact fun j hj => recalculateTransportChecksum_congr h hn hbc hj

/-- The three functions, each followed by that for the IP header. -/
theorem checksums_repaired (b : Buffer) :
    (HasSegment tcp b → Repaired tcp b fun b => recalculateIpChecksum (recalculateTcpChecksum b)) ∧
    (HasSegment udp b → Repaired udp b fun b => recalculateIpChecksum (recalculateUdpChecksum b)) ∧
    (HasSegment icmp b → Repaired icmp b fun b => recalculateIpChecksum (recalculateIcmpChecksum b)) :=
  ⟨repaired, repaired, repaired⟩

def packetFrame (protocol : Byte) (segment : List Byte) : Buffer := fun i =>
  ([0, 0, 0, 0, 0, 2, 0, 0, 0, 0, 0, 1, 8, 0, 0x45, 0, 0, BitVec.ofNat 8 (20 + segment.length), 0, 0, 0x40, 0,
    64, protocol, 0, 0, 10, 0, 0, 1, 10, 0, 0, 2] ++ segment)[i]?.getD 0

def syn : Buffer := packetFrame 6 [0x13, 0x88, 0, 80, 0, 0, 0, 1, 0, 0, 0, 0, 0x50, 2, 0xFF, 0xFF, 0, 0, 0, 0]

def query : Buffer := packetFrame 17 [0x13, 0x88, 0, 53, 0, 9, 0, 0, 7]

def ping : Buffer := packetFrame 1 [8, 0, 0, 0, 0, 1, 0, 1]

theorem checksums_repaired_packets :
    (Whole tcp syn ∧ Repaired tcp syn fun b => recalculateIpChecksum (recalculateTcpChecksum b)) ∧
    (Whole udp query ∧ Repaired udp query fun b => recalculateIpChecksum (recalculateUdpChecksum b)) ∧
    Whole icmp ping ∧ Repaired icmp ping fun b => recalculateIpChecksum (recalculateIcmpChecksum b) :=
  ⟨⟨⟨by decide, by decide⟩, (checksums_repaired syn).1 ⟨by decide, by decide, by decide⟩⟩,
    ⟨⟨by decide, by decide⟩, (checksums_repaired query).2.1 ⟨by decide, by decide, by decide⟩⟩,
    ⟨by decide, by decide⟩, (checksums_repaired ping).2.2 ⟨by decide, by decide, by decide⟩⟩

end Repaired

end ProxySwitch.PacketChecksums
