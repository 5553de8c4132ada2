import ProxySwitch.PacketChecksums

set_option autoImplicit false

/-!
# The IPv6 helper

`find_transport_header`, and the checksum that `ipv6_helper` takes over 32-bit words in the byte order of
the machine, with a 64-bit sum. It is the one over 16-bit words in network byte order.
-/
namespace ProxySwitch.Ipv6Checksums
open InternetChecksum PacketChecksums

section Headers
variable (b : Buffer) (packetSize : ℕ)

def ipprotoHopopts : Byte := 0
def ipprotoRouting : Byte := 43
def ipprotoFragment : Byte := 44
def ipprotoDstopts : Byte := 60
def ipprotoUdp : Byte := 17

def sizeofIpv6ext : ℕ := 4

end Headers

section Sums
variable (b : Buffer)

end Sums

/-! ### The folds -/

section Folds

end Folds

/-! ### The sums -/

section Partial
variable {b : Buffer} {p n k : ℕ} {sum : BitVec 64}

/-- `sum` has become `sum'`, by the sum of the 16-bit words up to multiples of `65535`, of which there are
    none where that sum is zero. -/
def Adds (words : ℕ) (sum sum' : BitVec 64) : Prop :=
  ∃ e ≤ words, sum'.toNat = sum.toNat + words + 65535 * e

theorem Adds.trans {x y : ℕ} {sum sum' sum'' : BitVec 64} (h : Adds x sum sum') (h' : Adds y sum' sum'') :
    Adds (x + y) sum sum'' := by
  obtain ⟨e, he, hsum⟩ := h
  obtain ⟨e', he', hsum'⟩ := h'
  exact ⟨e + e', by omega, by omega⟩

end Partial

/-! ### The checksum of a packet -/

/-- The addresses, which follow each other at 22, `htonl(len)`, three zeros and the protocol. -/
def pseudoHeader (b : Buffer) (protocol : Byte) (len : BitVec 32) : Buffer := fun i =>
  if i < 32 then b (22 + i)
  else if i = 39 then protocol
  else if 36 ≤ i then 0
  else len.extractLsb' (8 * (35 - i)) 8

def checksumField (protocol : Byte) : Option ℕ :=
  if protocol = 6 then some 16 else if protocol = 17 then some 6 else if protocol = 58 then some 2 else none

def segmentSum (b : Buffer) (protocol : Byte) (header len : ℕ) : ℕ :=
  sumFrom b (14 + header) len + (sumFrom b 22 32 + len / 65536 + len % 65536 + protocol.toNat)

section Recalculated
variable {b : Buffer} {protocol : Byte} {len mLength : BitVec 32} {i payload : ℕ} {w : BitVec 16}

/-- What the sums add beyond the 16-bit words is lost when the carries are folded. -/
theorem Adds.fold_eq {words : ℕ} {sum : BitVec 64} (h : Adds words 0#64 sum) :
    fold 65536 sum.toNat = fold 65536 words := by
  obtain ⟨e, he, hsum⟩ := h
  rw [BitVec.toNat_zero, Nat.zero_add] at hsum
  rw [hsum]
  apply fold_congr
  · exact Nat.add_mul_mod_self_left _ _ _
  · omega

end Recalculated

/-! ### The chain of headers -/

section Chain
variable (b : Buffer) (packetSize : ℕ)

def Skipped (nextProto : Byte) : Prop :=
  nextProto = ipprotoHopopts ∨ nextProto = ipprotoRouting ∨ nextProto = ipprotoDstopts

/-- From the header at one place headers that begin within the packet lead to that at another. -/
inductive Leads : ℕ → Byte → ℕ → Byte → Prop
  | here (header : ℕ) (nextProto : Byte) : Leads header nextProto header nextProto
  | skip {header last : ℕ} {nextProto lastProto : Byte} (inPacket : header + sizeofIpv6ext ≤ packetSize)
      (skipped : Skipped nextProto)
      (rest : Leads (header + 8 + (b (14 + header + 1)).toNat * 8) (b (14 + header)) last lastProto) :
      Leads header nextProto last lastProto

def fragmentOffset (header : ℕ) : ℕ := (read16 b (14 + header + 2)).toNat / 8

/-- The transport header behind the header that the chain ends with: that of a fragment belongs to the
    segment only if the offset is zero, but offsets below 128 are taken for that. -/
def EndsAt (last : ℕ) (lastProto : Byte) (found : ℕ) (protocol : Byte) : Prop :=
  lastProto = ipprotoFragment ∧ fragmentOffset b last < 128 ∧ found = last + 8 ∧ protocol = b (14 + last) ∨
    lastProto ≠ ipprotoFragment ∧ ¬Skipped lastProto ∧ found = last ∧ protocol = lastProto

variable {b packetSize} {header found : ℕ} {nextProto protocol : Byte}

theorem Leads.eq_here {last : ℕ} {lastProto : Byte} (h : Leads b packetSize header nextProto last lastProto)
    (hend : ¬Skipped nextProto) : last = header ∧ lastProto = nextProto := by
  cases h with
  | here => exact ⟨rfl, rfl⟩
  | skip _ hskipped _ => exact absurd hskipped hend

theorem fragment_not_skipped : ¬Skipped ipprotoFragment := by
  unfold Skipped
  decide

theorem Leads.le {last : ℕ} {lastProto : Byte} (h : Leads b packetSize header nextProto last lastProto) :
    header ≤ last := by
  induction h with
  | here => exact Nat.le_refl _
  | skip _ _ _ ih => omega

theorem Leads.congr {c : Buffer} {last : ℕ} {lastProto : Byte}
    (h : Leads b packetSize header nextProto last lastProto) (hbc : ∀ j < 14 + last, c j = b j) :
    Leads c packetSize header nextProto last lastProto := by
  induction h with
  | here => exact .here _ _
  | @skip header last _ _ hin hskipped hrest ih =>
    have hle := hrest.le
    refine .skip hin hskipped ?_
    rw [hbc (14 + header + 1) (by omega), hbc (14 + header) (by omega)]
    exact ih hbc

theorem Leads.to_end {between last : ℕ} {betweenProto lastProto : Byte}
    (h : Leads b packetSize header nextProto between betweenProto)
    (hlast : Leads b packetSize header nextProto last lastProto) (hend : ¬Skipped lastProto) :
    Leads b packetSize between betweenProto last lastProto := by
  induction h with
  | here => exact hlast
  | skip _ hskipped _ ih =>
    cases hlast with
    | here => exact absurd hskipped hend
    | skip _ _ hrest => exact ih hrest

/-- The frame holds all of the segment and no more, and the address in the IP header is that of its receiver. -/
structure Whole (b : Buffer) (mLength : ℕ) (protocol : Byte) (header : ℕ) : Prop where
  length : mLength = 54 + (read16 b 18).toNat
  unfragmented : ∀ last, Leads b (mLength - 14) 40 (b 20) last ipprotoFragment →
    read16 b (14 + last + 2) &&& 0xFFF9#16 = 0#16
  unrouted : ∀ last, ¬Leads b (mLength - 14) 40 (b 20) last ipprotoRouting
  udpLength : protocol = ipprotoUdp → (read16 b (14 + header + 4)).toNat = mLength - (14 + header)

structure SegmentAccepted (b : Buffer) (mLength : ℕ) (protocol : Byte) (header : ℕ) : Prop where
  whole : Whole b mLength protocol header
  sum : fold 65536 (segmentSum b protocol header (mLength - (14 + header))) = 65535
  checksum : protocol = ipprotoUdp → read16 b (14 + header + 6) ≠ 0#16

theorem EndsAt.not_skipped {last : ℕ} {lastProto : Byte} (h : EndsAt b last lastProto found protocol) :
    ¬Skipped lastProto := by
  obtain ⟨rfl, -⟩ | ⟨-, hother, -⟩ := h
  · exact fragment_not_skipped
  · exact hother

theorem EndsAt.le {last : ℕ} {lastProto : Byte} (h : EndsAt b last lastProto found protocol) : last ≤ found := by
  obtain ⟨-, -, rfl, -⟩ | ⟨-, -, rfl, -⟩ := h
  · omega
  · exact Nat.le_refl _

theorem Whole.write16 {mLength field last : ℕ} {lastProto : Byte} {w : BitVec 16}
    (h : Whole b mLength protocol found) (hleads : Leads b (mLength - 14) 40 (b 20) last lastProto)
    (hends : EndsAt b last lastProto found protocol) (hfield : checksumField protocol = some field) :
    Whole (write16 b (14 + found + field) w) mLength protocol found := by
  have hlast := hleads.le
  have hle := hends.le
  have hsmall : 2 ≤ field := by
    unfold checksumField at hfield
    split_ifs at hfield <;> cases hfield <;> decide
  generalize hc : PacketChecksums.write16 b (14 + found + field) w = c
  have hkeep : ∀ j < 14 + found + 2, c j = b j := fun j hj => by
    rw [← hc, write16_of_ne (by omega) (by omega)]
  have hfirst : c 20 = b 20 := hkeep 20 (by omega)
  have hcleads : Leads c (mLength - 14) 40 (b 20) last lastProto := hleads.congr fun j hj => hkeep j (by omega)
  have hback : ∀ {between : ℕ} {betweenProto : Byte}, Leads c (mLength - 14) 40 (b 20) between betweenProto →
      Leads b (mLength - 14) 40 (b 20) between betweenProto := by
    intro between betweenProto hbetween
    have hbefore := (hbetween.to_end hcleads hends.not_skipped).le
    exact hbetween.congr fun j hj => (hkeep j (by omega)).symm
  refine ⟨?_, fun between hbetween => ?_, fun between hbetween => ?_, fun hudp => ?_⟩
  · rw [read16_congr (hkeep 18 (by omega)) (hkeep 19 (by omega))]
    exact h.length
  · rw [hfirst] at hbetween
    obtain ⟨rfl, rfl⟩ := (hbetween.to_end hcleads hends.not_skipped).eq_here fragment_not_skipped
    obtain ⟨-, -, rfl, -⟩ | ⟨hother, -⟩ := hends
    · rw [read16_congr (hkeep _ (by omega)) (hkeep _ (by omega))]
      exact h.unfragmented last (hback hbetween)
    · exact absurd rfl hother
  · rw [hfirst] at hbetween
    exact h.unrouted between (hback hbetween)
  · subst hudp
    obtain rfl : 6 = field := Option.some.inj hfield
    have hport : read16 c (14 + found + 4) = read16 b (14 + found + 4) := by
      rw [← hc]
      exact read16_congr (write16_of_ne (by omega) (by omega)) (write16_of_ne (by omega) (by omega))
    rw [hport]
    exact h.udpLength rfl

end Chain

end ProxySwitch.Ipv6Checksums
