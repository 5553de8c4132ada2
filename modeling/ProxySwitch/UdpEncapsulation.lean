import ProxySwitch.ByteMoves
import ProxySwitch.UdpRedirection

set_option autoImplicit false

namespace ProxySwitch.UdpEncapsulation
open ByteMoves PacketPath
open DestinationRules (InAddr)
open RouterPidRoutes (ProcessTimes)
open TcpLocalRedirect (MacAddress Port)

abbrev Byte := BitVec 8

/-- The capacity of `m_IBuffer`. -/
def maxEtherFrame : ℕ := 1514

/-- A UDP packet in an intermediate buffer. `memory` is `m_IBuffer` from the end of the UDP
    header on; the addresses and ports are read in network byte order. -/
structure UdpFrame extends UdpPacket where
  hSource : MacAddress
  ipHl : BitVec 4
  ipLen : BitVec 16
  length : BitVec 16
  mLength : BitVec 32
  memory : ℕ → Byte

namespace UdpFrame
variable (f : UdpFrame)

def ipHeaderLength : ℕ := 4 * f.ipHl.toNat

/-- `sizeof(ether_header) + sizeof(DWORD) * ip_hl + sizeof(udphdr)`. -/
def headersLength : ℕ := 14 + f.ipHeaderLength + 8

def payloadSize : ℕ := f.length.toNat - 8

def swapAddresses : UdpFrame :=
  { f with hDest := f.hSource, hSource := f.hDest, ipSrc := f.ipDst, ipDst := f.ipSrc }

def echo : UdpFrame := { f.swapAddresses with thSport := f.thDport, thDport := f.thSport }

/-- `RecalculateUDPChecksum` pads a datagram of odd length by a zero. -/
def recalculateUdpChecksum : UdpFrame :=
  let udpLen := f.ipLen.setWidth 32 - BitVec.ofNat 32 f.ipHeaderLength
  { f with
    memory := if udpLen.getLsbD 0 then Function.update f.memory (udpLen.toNat - 8) 0 else f.memory }

end UdpFrame

/-- `reserved`, `fragment`, `address_type`, `dest_address` and `dest_port`. -/
def socks5UdpHeader (destAddress : InAddr) (destPort : Port) : List Byte :=
  [0, 0, 0, 1, destAddress.extractLsb' 24 8, destAddress.extractLsb' 16 8,
    destAddress.extractLsb' 8 8, destAddress.extractLsb' 0 8,
    destPort.extractLsb' 8 8, destPort.extractLsb' 0 8]

def destAddress (memory : ℕ → Byte) : InAddr := memory 4 ++ memory 5 ++ memory 6 ++ memory 7

def destPort (memory : ℕ → Byte) : Port := memory 8 ++ memory 9

/-- `sizeof(socks5_udp_header)`. -/
def headerSize : ℕ := 10

section ClientToServer
variable (f : UdpFrame)

def udpPayloadSize : BitVec 16 :=
  (f.mLength.setWidth 64 - BitVec.ofNat 64 f.headersLength).setWidth 16

def udpMaxPayloadSize : BitVec 16 :=
  (BitVec.ofNat 64 maxEtherFrame - BitVec.ofNat 64 f.headersLength).setWidth 16

def attachHeader : UdpFrame :=
  let size := min (udpPayloadSize f).toNat (udpMaxPayloadSize f).toNat
  { f with
    memory := store (move f.memory headerSize 0 size) (socks5UdpHeader f.ipDst f.thDport)
    mLength := f.mLength + BitVec.ofNat 32 headerSize
    ipLen := f.ipLen + BitVec.ofNat 16 headerSize
    length := f.length + BitVec.ofNat 16 headerSize }

def encapsulate (port : Port) : UdpFrame :=
  UdpFrame.recalculateUdpChecksum { (attachHeader f).swapAddresses with thDport := port }

def processClientToServerPacket (endpoints : Port → Option ℕ) (now : ℕ) (port : Port) :
    Option UdpFrame × (Port → Option ℕ) :=
  let result := udpClientToServer endpoints now f.toUdpPacket
  (if result.1 then some (encapsulate f port) else none, result.2)

def clientToServerSubtractions (port : Port) : List (ℕ × ℕ) :=
  [(f.mLength.toNat, f.headersLength), (maxEtherFrame, f.headersLength),
    ((encapsulate f port).ipLen.toNat, f.ipHeaderLength)]

end ClientToServer

section ServerToClient
variable (f : UdpFrame)

def udpReplySize : BitVec 16 := (f.length.setWidth 64 - BitVec.ofNat 64 8).setWidth 16

def removeHeader : UdpFrame :=
  let size := ((udpReplySize f).setWidth 64 - BitVec.ofNat 64 headerSize).toNat
  { f with
    memory := move f.memory 0 headerSize size
    mLength := f.mLength - BitVec.ofNat 32 headerSize
    ipLen := f.ipLen - BitVec.ofNat 16 headerSize
    length := f.length - BitVec.ofNat 16 headerSize }

def decapsulate : UdpFrame :=
  UdpFrame.recalculateUdpChecksum
    { (removeHeader f).swapAddresses with
      ipSrc := destAddress f.memory
      thSport := destPort f.memory }

def processServerToClientPacket (endpoints : Port → Option ℕ) (now : ℕ) :
    Option UdpFrame × (Port → Option ℕ) :=
  let result := udpServerToClient endpoints now f.toUdpPacket
  (if result.1 then some (decapsulate f) else none, result.2)

def serverToClientSubtractions : List (ℕ × ℕ) :=
  [(f.length.toNat, 8), ((udpReplySize f).toNat, headerSize), (f.mLength.toNat, headerSize),
    (f.ipLen.toNat, headerSize), (f.length.toNat, headerSize),
    ((decapsulate f).ipLen.toNat, f.ipHeaderLength)]

end ServerToClient

structure IsUdp (f : UdpFrame) : Prop where
  ipHl : 5 ≤ f.ipHl.toNat
  headers : f.ipHeaderLength + 8 ≤ f.ipLen.toNat
  inDatagram : f.ipHeaderLength + f.length.toNat ≤ f.ipLen.toNat
  inFrame : 14 + f.ipLen.toNat ≤ f.mLength.toNat
  inBuffer : f.mLength.toNat ≤ maxEtherFrame

structure InBounds (before after : UdpFrame) (subtractions : List (ℕ × ℕ)) : Prop where
  before : before.mLength.toNat ≤ maxEtherFrame
  after : after.mLength.toNat ≤ maxEtherFrame
  noUnderflow : ∀ d ∈ subtractions, d.2 ≤ d.1

structure Restored (f g : UdpFrame) : Prop where
  payload : ∀ i < f.payloadSize, g.memory i = f.memory i
  ipLen : g.ipLen = f.ipLen
  length : g.length = f.length
  source : (g.hSource, g.ipSrc, g.thSport) = (f.hDest, f.ipDst, f.thDport)
  destination : (g.hDest, g.ipDst, g.thDport) = (f.hSource, f.ipSrc, f.thSport)

/-- The router `r` sends the packet to the proxy at `port`, and `r'`, the router after it, takes
    the echo. -/
def RoundTrips (r r' : LocalRouter) (later : ℕ) (f : UdpFrame) (port : Port) : Prop :=
  ∃ sent restored,
    (processClientToServerPacket f (isNewEndpoint r.udpEndpoints r.now f.toUdpPacket).2 r.now
      port).1 = some sent ∧
    (processServerToClientPacket sent.echo r'.udpEndpoints later).1 = some restored ∧
    Restored f restored ∧ InBounds f sent (clientToServerSubtractions f port) ∧
    InBounds sent.echo restored (serverToClientSubtractions sent.echo)

section Lengths
variable {f : UdpFrame}

theorem headersLength_le (h : IsUdp f) : f.headersLength ≤ f.mLength.toNat := by
  have hheaders := h.headers
  have hframe := h.inFrame
  unfold UdpFrame.headersLength
  omega

theorem headersLength_lt (f : UdpFrame) : f.headersLength < 83 := by
  have hipHl := f.ipHl.isLt
  unfold UdpFrame.headersLength UdpFrame.ipHeaderLength
  omega

theorem udpPayloadSize_toNat (h : IsUdp f) :
    (udpPayloadSize f).toNat = f.mLength.toNat - f.headersLength := by
  have hle := headersLength_le h
  have hlt := headersLength_lt f
  have hbuffer := h.inBuffer
  simp only [udpPayloadSize, maxEtherFrame, BitVec.toNat_setWidth, BitVec.toNat_sub,
    BitVec.toNat_ofNat] at hbuffer ⊢
  omega

theorem udpMaxPayloadSize_toNat (f : UdpFrame) :
    (udpMaxPayloadSize f).toNat = maxEtherFrame - f.headersLength := by
  have hlt := headersLength_lt f
  simp only [udpMaxPayloadSize, maxEtherFrame, BitVec.toNat_setWidth, BitVec.toNat_sub,
    BitVec.toNat_ofNat]
  omega

theorem toNat_setWidth_sub {w n : ℕ} (x : BitVec w) (hw : w ≤ 64) (hn : n ≤ x.toNat) :
    (x.setWidth 64 - BitVec.ofNat 64 n).toNat = x.toNat - n := by
  have hx : x.toNat < 2 ^ 64 := x.isLt.trans_le (Nat.pow_le_pow_right Nat.two_pos hw)
  simp only [BitVec.toNat_setWidth, BitVec.toNat_sub, BitVec.toNat_ofNat]
  omega

theorem toNat_add_ofNat {w n : ℕ} (x : BitVec w) (h : x.toNat + n < 2 ^ w) :
    (x + BitVec.ofNat w n).toNat = x.toNat + n := by
  have hn : n < 2 ^ w := Nat.lt_of_le_of_lt (Nat.le_add_left _ _) h
  rw [BitVec.toNat_add, BitVec.toNat_ofNat, Nat.mod_eq_of_lt hn, Nat.mod_eq_of_lt h]

theorem toNat_sub_ofNat {w n : ℕ} (x : BitVec w) (h : n ≤ x.toNat) :
    (x - BitVec.ofNat w n).toNat = x.toNat - n := by
  have hn : (BitVec.ofNat w n).toNat = n := by
    rw [BitVec.toNat_ofNat]
    exact Nat.mod_eq_of_lt (h.trans_lt x.isLt)
  rw [BitVec.toNat_sub_of_le, hn]
  rwa [BitVec.le_def, hn]

end Lengths

section Translations
variable {f : UdpFrame} {port : Port}

theorem recalculateUdpChecksum_memory {i : ℕ} (h : f.ipHeaderLength + 8 + i < f.ipLen.toNat) :
    f.recalculateUdpChecksum.memory i = f.memory i := by
  have hlt := f.ipLen.isLt
  simp only [UdpFrame.recalculateUdpChecksum]
  split
  · apply Function.update_of_ne
    simp only [BitVec.toNat_setWidth, BitVec.toNat_sub, BitVec.toNat_ofNat]
    omega
  · rfl

theorem encapsulate_mLength (h : IsUdp f) (port : Port) :
    (encapsulate f port).mLength.toNat = f.mLength.toNat + headerSize := by
  have hbuffer := h.inBuffer
  apply toNat_add_ofNat f.mLength
  unfold maxEtherFrame at hbuffer
  unfold headerSize
  omega

theorem encapsulate_ipLen (h : IsUdp f) (port : Port) :
    (encapsulate f port).ipLen.toNat = f.ipLen.toNat + headerSize := by
  have hbuffer := h.inBuffer
  have hframe := h.inFrame
  apply toNat_add_ofNat f.ipLen
  unfold maxEtherFrame at hbuffer
  unfold headerSize
  omega

theorem encapsulate_length (h : IsUdp f) (port : Port) :
    (encapsulate f port).length.toNat = f.length.toNat + headerSize := by
  have hbuffer := h.inBuffer
  have hframe := h.inFrame
  have hdatagram := h.inDatagram
  apply toNat_add_ofNat f.length
  unfold maxEtherFrame at hbuffer
  unfold headerSize
  omega

theorem encapsulate_header (h : IsUdp f) {i : ℕ} (hi : i < headerSize) :
    (socks5UdpHeader f.ipDst f.thDport)[i]? = some ((encapsulate f port).memory i) := by
  have hheaders := h.headers
  have hlength := encapsulate_ipLen h port
  have hpadding : (encapsulate f port).memory i = (attachHeader f).memory i := by
    apply recalculateUdpChecksum_memory
    change f.ipHeaderLength + 8 + i < (encapsulate f port).ipLen.toNat
    omega
  have hstored : (attachHeader f).memory i = (socks5UdpHeader f.ipDst f.thDport).get ⟨i, hi⟩ :=
    store_inside hi
  rw [hpadding, hstored]
  exact List.getElem?_eq_getElem hi

theorem encapsulate_payload (h : IsUdp f) {i : ℕ} (hi : i < f.payloadSize) :
    (encapsulate f port).memory (headerSize + i) = f.memory i := by
  have hdatagram := h.inDatagram
  have hframe := h.inFrame
  have hbuffer := h.inBuffer
  have hlength := encapsulate_ipLen h port
  unfold UdpFrame.payloadSize at hi
  refine (recalculateUdpChecksum_memory ?_).trans (store_move_behind ?_)
  · change f.ipHeaderLength + 8 + (headerSize + i) < (encapsulate f port).ipLen.toNat
    omega
  · rw [udpPayloadSize_toNat h, udpMaxPayloadSize_toNat]
    unfold UdpFrame.headersLength
    omega

theorem destAddress_eq {memory : ℕ → Byte} {address : InAddr} {port : Port}
    (h : ∀ i < headerSize, (socks5UdpHeader address port)[i]? = some (memory i)) :
    destAddress memory = address := by
  have h4 : address.extractLsb' 24 8 = memory 4 := Option.some.inj (h 4 (by decide))
  have h5 : address.extractLsb' 16 8 = memory 5 := Option.some.inj (h 5 (by decide))
  have h6 : address.extractLsb' 8 8 = memory 6 := Option.some.inj (h 6 (by decide))
  have h7 : address.extractLsb' 0 8 = memory 7 := Option.some.inj (h 7 (by decide))
  rw [destAddress, ← h4, ← h5, ← h6, ← h7]
  rw [BitVec.extractLsb'_append_extractLsb'_eq_extractLsb' (show 24 = 16 + 8 from rfl),
    BitVec.extractLsb'_append_extractLsb'_eq_extractLsb' (show 16 = 8 + 8 from rfl),
    BitVec.extractLsb'_append_extractLsb'_eq_extractLsb' (show 8 = 0 + 8 from rfl)]
  exact BitVec.extractLsb'_eq_self

theorem destPort_eq {memory : ℕ → Byte} {address : InAddr} {port : Port}
    (h : ∀ i < headerSize, (socks5UdpHeader address port)[i]? = some (memory i)) :
    destPort memory = port := by
  have h8 : port.extractLsb' 8 8 = memory 8 := Option.some.inj (h 8 (by decide))
  have h9 : port.extractLsb' 0 8 = memory 9 := Option.some.inj (h 9 (by decide))
  rw [destPort, ← h8, ← h9]
  rw [BitVec.extractLsb'_append_extractLsb'_eq_extractLsb' (show 8 = 0 + 8 from rfl)]
  exact BitVec.extractLsb'_eq_self

theorem udpReplySize_toNat (h : 8 ≤ f.length.toNat) :
    (udpReplySize f).toNat = f.length.toNat - 8 := by
  have hlt := f.length.isLt
  rw [udpReplySize, BitVec.toNat_setWidth, toNat_setWidth_sub f.length (by decide) h]
  exact Nat.mod_eq_of_lt (by omega)

theorem decapsulate_payload (h : IsUdp f) {i : ℕ} (hi : headerSize + i < f.payloadSize) :
    (decapsulate f).memory i = f.memory (headerSize + i) := by
  have hdatagram := h.inDatagram
  unfold UdpFrame.payloadSize at hi
  have hsize : (udpReplySize f).toNat = f.length.toNat - 8 := udpReplySize_toNat (by omega)
  refine (recalculateUdpChecksum_memory ?_).trans (move_front ?_)
  · change f.ipHeaderLength + 8 + i < (f.ipLen - BitVec.ofNat 16 headerSize).toNat
    rw [toNat_sub_ofNat f.ipLen (by omega)]
    omega
  · rw [toNat_setWidth_sub (udpReplySize f) (by decide) (by omega), hsize]
    omega

theorem isUdp_echo (h : IsUdp f) (hroom : f.mLength.toNat + headerSize ≤ maxEtherFrame) :
    IsUdp (encapsulate f port).echo where
  ipHl := h.ipHl
  headers := (encapsulate_ipLen h port).symm ▸ Nat.le_add_right_of_le h.headers
  inDatagram := by
    have hdatagram := h.inDatagram
    change f.ipHeaderLength + (encapsulate f port).length.toNat ≤ (encapsulate f port).ipLen.toNat
    rw [encapsulate_length h, encapsulate_ipLen h]
    omega
  inFrame := by
    have hframe := h.inFrame
    change 14 + (encapsulate f port).ipLen.toNat ≤ (encapsulate f port).mLength.toNat
    rw [encapsulate_ipLen h, encapsulate_mLength h]
    omega
  inBuffer := (encapsulate_mLength h port).trans_le hroom

theorem restored_of_room (h : IsUdp f) (hroom : f.mLength.toNat + headerSize ≤ maxEtherFrame)
    (port : Port) : Restored f (decapsulate (encapsulate f port).echo) := by
  have hecho : IsUdp (encapsulate f port).echo := isUdp_echo h hroom
  have hheader : ∀ i < headerSize, (socks5UdpHeader f.ipDst f.thDport)[i]? =
      some ((encapsulate f port).echo.memory i) := fun i hi => encapsulate_header h hi
  constructor
  · intro i hi
    rw [decapsulate_payload hecho]
    · exact encapsulate_payload h hi
    · have hlength := encapsulate_length h port
      change headerSize + i < (encapsulate f port).length.toNat - 8
      unfold UdpFrame.payloadSize at hi
      omega
  · exact BitVec.add_sub_cancel _ _
  · exact BitVec.add_sub_cancel _ _
  · have haddress := destAddress_eq hheader
    have hport := destPort_eq hheader
    change (_, destAddress _, destPort _) = _
    rw [haddress, hport]
    rfl
  · rfl

/-- A reply is processed without an underflow precisely when it holds both headers. -/
theorem serverToClient_noUnderflow (h : IsUdp f) :
    (∀ d ∈ serverToClientSubtractions f, d.2 ≤ d.1) ↔ 8 + headerSize ≤ f.length.toNat := by
  have hdatagram := h.inDatagram
  have hframe := h.inFrame
  have hlength : (decapsulate f).ipLen = f.ipLen - BitVec.ofNat 16 headerSize := rfl
  simp only [serverToClientSubtractions, List.forall_mem_cons, hlength]
  constructor
  · rintro ⟨hudp, hsocks, -⟩
    rw [udpReplySize_toNat hudp] at hsocks
    omega
  · intro hheader
    have hsize : (udpReplySize f).toNat = f.length.toNat - 8 := udpReplySize_toNat (by omega)
    rw [hsize, toNat_sub_ofNat f.ipLen (by omega)]
    unfold headerSize at hheader ⊢
    exact ⟨by omega, by omega, by omega, by omega, by omega, by omega, List.forall_mem_nil _⟩

theorem decapsulate_mLength (h : IsUdp f) :
    (decapsulate f).mLength.toNat = f.mLength.toNat - headerSize := by
  have hheaders := h.headers
  have hframe := h.inFrame
  apply toNat_sub_ofNat f.mLength
  unfold headerSize
  omega

theorem inBounds_reply (h : IsUdp f) :
    InBounds f (decapsulate f) (serverToClientSubtractions f) ↔
      8 + headerSize ≤ f.length.toNat := by
  rw [← serverToClient_noUnderflow h]
  constructor
  · exact fun hbounds => hbounds.noUnderflow
  · intro hunderflow
    refine ⟨h.inBuffer, ?_, hunderflow⟩
    rw [decapsulate_mLength h]
    exact (Nat.sub_le _ _).trans h.inBuffer

theorem inBounds_request (h : IsUdp f) (port : Port) :
    InBounds f (encapsulate f port) (clientToServerSubtractions f port) ↔
      f.mLength.toNat + headerSize ≤ maxEtherFrame := by
  constructor
  · exact fun hbounds => encapsulate_mLength h port ▸ hbounds.after
  · intro hroom
    have hheaders := h.headers
    have hlt := headersLength_lt f
    refine ⟨h.inBuffer, (encapsulate_mLength h port).trans_le hroom, ?_⟩
    simp only [clientToServerSubtractions, List.forall_mem_cons, encapsulate_ipLen h]
    refine ⟨headersLength_le h, hlt.le.trans (by decide), ?_, List.forall_mem_nil _⟩
    omega

end Translations

section Router
variable {cfg : Config} {r : LocalRouter} {postponed : Bool} {times : ProcessTimes} {f q : UdpFrame}
  {port : Port}

theorem admitted {p : UdpPacket} (h : (filterUdpPacket cfg r postponed times p).1 = .toProxy port) :
    p.isFragment = false ∧
    (udpClientToServer (isNewEndpoint r.udpEndpoints r.now p).2 r.now p).1 = true ∧
    ((filterUdpPacket cfg r postponed times p).2.udpEndpoints p.thSport).isSome = true := by
  have hway := filterUdpPacket_way cfg r postponed times p
  generalize filterUdpPacket cfg r postponed times p = result at hway h ⊢
  cases hway with
  | routed _ ref process port' =>
    obtain ⟨hdirect, hwhole, -⟩ := UdpRedirection.routeUdp_toProxy.mp h
    have hknown := UdpRedirection.isNewEndpoint_isNone r.udpEndpoints r.now p
    refine ⟨hwhole, ?_, ?_⟩
    · simp [udpClientToServer, redirectDatagram, hwhole, hknown]
    · simp [routeUdp, hdirect, udpClientToServer, redirectDatagram, hwhole, hknown]
  | _ => cases h

/-- An admitted packet comes back from the echo precisely when its frame has room for the header
    and its UDP length counts the UDP header. -/
theorem roundTrips_iff (hf : IsUdp f)
    (hadmits : (filterUdpPacket cfg r postponed times f.toUdpPacket).1 = .toProxy port)
    (later : ℕ) :
    RoundTrips r (filterUdpPacket cfg r postponed times f.toUdpPacket).2 later f port ↔
      f.mLength.toNat + headerSize ≤ maxEtherFrame ∧ 8 ≤ f.length.toNat := by
  obtain ⟨hwhole, htaken, hknown⟩ := admitted hadmits
  have hlength := encapsulate_length hf port
  have hsent : (processClientToServerPacket f (isNewEndpoint r.udpEndpoints r.now f.toUdpPacket).2
      r.now port).1 = some (encapsulate f port) := by
    simp only [processClientToServerPacket, htaken, if_true]
  have hreturned : (processServerToClientPacket (encapsulate f port).echo
      (filterUdpPacket cfg r postponed times f.toUdpPacket).2.udpEndpoints later).1 =
        some (decapsulate (encapsulate f port).echo) := by
    have hkey : (encapsulate f port).echo.toUdpPacket.thDport = f.toUdpPacket.thSport := rfl
    have hfragment : (encapsulate f port).echo.toUdpPacket.isFragment = false := hwhole
    have hisNone := Option.isNone_eq_false_iff.mpr hknown
    simp only [processServerToClientPacket, udpServerToClient, redirectDatagram, hkey, hfragment,
      hisNone, Bool.or_self, Bool.false_eq_true, if_false, if_true]
  constructor
  · rintro ⟨sent, restored, hsent', hreturned', -, hrequest, hreply⟩
    obtain rfl := Option.some.inj (hsent.symm.trans hsent')
    obtain rfl := Option.some.inj (hreturned.symm.trans hreturned')
    have hroom := (inBounds_request hf port).mp hrequest
    have hheaders : 8 + headerSize ≤ (encapsulate f port).length.toNat :=
      (inBounds_reply (isUdp_echo hf hroom)).mp hreply
    exact ⟨hroom, by omega⟩
  · rintro ⟨hroom, hheader⟩
    refine ⟨_, _, hsent, hreturned, restored_of_room hf hroom port,
      (inBounds_request hf port).mpr hroom, (inBounds_reply (isUdp_echo hf hroom)).mpr ?_⟩
    change 8 + headerSize ≤ (encapsulate f port).length.toNat
    omega

/-- An admitted packet and a reply that the redirect takes meet the promise precisely when the
    frame leaves room for the header, and the reply holds one. -/
theorem encapsulation_iff (hf : IsUdp f) (hq : IsUdp q)
    (hadmits : (filterUdpPacket cfg r postponed times f.toUdpPacket).1 = .toProxy port)
    (endpoints : Port → Option ℕ) (later : ℕ) {reply : UdpFrame}
    (htaken : (processServerToClientPacket q endpoints later).1 = some reply) :
    RoundTrips r (filterUdpPacket cfg r postponed times f.toUdpPacket).2 later f port ∧
      InBounds q reply (serverToClientSubtractions q) ↔
    (f.mLength.toNat + headerSize ≤ maxEtherFrame ∧ 8 ≤ f.length.toNat) ∧
      8 + headerSize ≤ q.length.toNat := by
  have hreply : reply = decapsulate q := by
    simp only [processServerToClientPacket] at htaken
    split at htaken
    · exact (Option.some.inj htaken).symm
    · cases htaken
  rw [roundTrips_iff hf hadmits, hreply, inBounds_reply hq]

end Router

/-- A datagram of `size` zeros without IP options. -/
def plainFrame (thSport thDport : Port) (size : ℕ) : UdpFrame where
  hDest := 0x001122334455
  ipSrc := 0x0A000002
  ipDst := 0x08080808
  ipOff := 0x4000
  thSport := thSport
  thDport := thDport
  hSource := 0x0066778899AA
  ipHl := 5
  ipLen := BitVec.ofNat 16 (28 + size)
  length := BitVec.ofNat 16 (8 + size)
  mLength := BitVec.ofNat 32 (42 + size)
  memory _ := 0

theorem isUdp_plainFrame (thSport thDport : Port) {size : ℕ} (h : size ≤ 1472) :
    IsUdp (plainFrame thSport thDport size) := by
  constructor <;> simp [plainFrame, UdpFrame.ipHeaderLength, maxEtherFrame] <;> omega

def proxyAll : Config where
  currentProcessId := 1
  excludedList := []
  proxyToNames := [(0, [])]
  destinationDirectRules := []

theorem encapsulation_iff_plainFrame :
    RoundTrips (start [⟨none, some 1080⟩])
        (filterUdpPacket proxyAll (start [⟨none, some 1080⟩]) true (fun _ => none)
          (plainFrame 5000 443 100).toUdpPacket).2 0 (plainFrame 5000 443 100) 1080 ∧
      InBounds (plainFrame 1080 5000 20) (decapsulate (plainFrame 1080 5000 20))
        (serverToClientSubtractions (plainFrame 1080 5000 20)) :=
  (encapsulation_iff (isUdp_plainFrame 5000 443 (by decide)) (isUdp_plainFrame 1080 5000 (by decide))
    (by decide) (fun _ => some 0) 0 rfl).mpr (by decide)

/-- A datagram that fills its frame: the header makes 1524 bytes of its 1514. -/
theorem full_frame_overflows :
    ¬ ∀ (cfg : Config) (r : LocalRouter) (postponed : Bool) (times : ProcessTimes)
      (f q : UdpFrame) (port : Port) (endpoints : Port → Option ℕ) (later : ℕ) (reply : UdpFrame),
      IsUdp f → IsUdp q →
      (filterUdpPacket cfg r postponed times f.toUdpPacket).1 = .toProxy port →
      (processServerToClientPacket q endpoints later).1 = some reply →
      RoundTrips r (filterUdpPacket cfg r postponed times f.toUdpPacket).2 later f port ∧
        InBounds q reply (serverToClientSubtractions q) := by
  intro h
  have hfull := isUdp_plainFrame 5000 443 (le_refl 1472)
  have hadmits : (filterUdpPacket proxyAll (start [⟨none, some 1080⟩]) true (fun _ => none)
      (plainFrame 5000 443 1472).toUdpPacket).1 = .toProxy 1080 := by decide
  have hroundTrips := (h proxyAll _ true _ (plainFrame 5000 443 1472) (plainFrame 1080 5000 20) 1080
    (fun _ => some 0) 0 _ hfull (isUdp_plainFrame 1080 5000 (by decide)) hadmits rfl).1
  have hroom := ((roundTrips_iff hfull hadmits 0).mp hroundTrips).1
  exact absurd hroom (by decide)

end ProxySwitch.UdpEncapsulation
