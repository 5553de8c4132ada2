import ProxySwitch.PacketChecksums
import ProxySwitch.DestinationRules
import ProxySwitch.TcpLocalRedirect

set_option autoImplicit false

namespace ProxySwitch.EthernetFrames
open DestinationRules (InAddr)
open PacketChecksums
open TcpLocalRedirect (MacAddress)

def hProto (b : Buffer) : BitVec 16 := read16 b 12

/-- `ntohs(h_proto)` of a frame with an IPv4 packet. -/
def ethPIp : BitVec 16 := 0x0800

def macAddress (b : Buffer) (i : ℕ) : MacAddress :=
  b i ++ b (i + 1) ++ b (i + 2) ++ b (i + 3) ++ b (i + 4) ++ b (i + 5)

def ipAddress (b : Buffer) (i : ℕ) : InAddr := b i ++ b (i + 1) ++ b (i + 2) ++ b (i + 3)

def hDest (b : Buffer) : MacAddress := macAddress b 0

def hSource (b : Buffer) : MacAddress := macAddress b 6

def ipSrc (b : Buffer) : InAddr := ipAddress b 26

def ipDst (b : Buffer) : InAddr := ipAddress b 30

/-- `std::swap` of the `n` bytes at `i` and the `n` bytes at `j`. -/
def swap (b : Buffer) (i j n : ℕ) : Buffer := fun k =>
  if i ≤ k ∧ k < i + n then b (j + (k - i)) else if j ≤ k ∧ k < j + n then b (i + (k - j)) else b k

def swapAddresses (b : Buffer) : Buffer := swap (swap b 0 6 6) 26 30 4

section Lemmas
variable {b c : Buffer} {i j k n : ℕ} {w : BitVec 16}

theorem swap_outside (h : ¬(i ≤ k ∧ k < i + n)) (h' : ¬(j ≤ k ∧ k < j + n)) : swap b i j n k = b k := by
  rw [swap, if_neg h, if_neg h']

def OffAddresses (j : ℕ) : Prop := 12 ≤ j ∧ ¬(26 ≤ j ∧ j < 34)

theorem swapAddresses_of_off (h : OffAddresses j) : swapAddresses b j = b j := by
  unfold OffAddresses at h
  rw [swapAddresses, swap_outside (by omega) (by omega), swap_outside (by omega) (by omega)]

theorem macAddress_congr (h : ∀ j, i ≤ j → j < i + 6 → b j = c j) : macAddress b i = macAddress c i := by
  unfold macAddress
  rw [h i (by omega) (by omega), h (i + 1) (by omega) (by omega), h (i + 2) (by omega) (by omega),
    h (i + 3) (by omega) (by omega), h (i + 4) (by omega) (by omega), h (i + 5) (by omega) (by omega)]

theorem ipAddress_congr (h : ∀ j, i ≤ j → j < i + 4 → b j = c j) : ipAddress b i = ipAddress c i := by
  unfold ipAddress
  rw [h i (by omega) (by omega), h (i + 1) (by omega) (by omega), h (i + 2) (by omega) (by omega),
    h (i + 3) (by omega) (by omega)]

@[simp] theorem hDest_swapAddresses : hDest (swapAddresses b) = hSource b := by
  simp [hDest, hSource, macAddress, swapAddresses, swap]

@[simp] theorem hSource_swapAddresses : hSource (swapAddresses b) = hDest b := by
  simp [hDest, hSource, macAddress, swapAddresses, swap]

@[simp] theorem ipSrc_swapAddresses : ipSrc (swapAddresses b) = ipDst b := by
  simp [ipSrc, ipDst, ipAddress, swapAddresses, swap]

@[simp] theorem ipDst_swapAddresses : ipDst (swapAddresses b) = ipSrc b := by
  simp [ipSrc, ipDst, ipAddress, swapAddresses, swap]

theorem hDest_write16 (h : 12 ≤ i) : hDest (write16 b i w) = hDest b :=
  macAddress_congr fun _ _ _ => write16_of_ne (by omega) (by omega)

theorem hSource_write16 (h : 12 ≤ i) : hSource (write16 b i w) = hSource b :=
  macAddress_congr fun _ _ _ => write16_of_ne (by omega) (by omega)

theorem read16_swapAddresses (h : 34 ≤ i) : read16 (swapAddresses b) i = read16 b i := by
  apply read16_congr
  · exact swapAddresses_of_off ⟨by omega, by omega⟩
  · exact swapAddresses_of_off ⟨by omega, by omega⟩

theorem read16_write16_of_apart (h : j + 1 < i ∨ i + 1 < j) : read16 (write16 b i w) j = read16 b j := by
  apply read16_congr
  · exact write16_of_ne (by omega) (by omega)
  · exact write16_of_ne (by omega) (by omega)

end Lemmas

end ProxySwitch.EthernetFrames
