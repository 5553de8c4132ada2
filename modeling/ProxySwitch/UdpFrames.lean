import ProxySwitch.EthernetFrames
import ProxySwitch.UdpEncapsulation

set_option autoImplicit false

namespace ProxySwitch.UdpFrames
open ByteMoves EthernetFrames PacketChecksums
open PacketPath (UdpPacket isNewEndpoint)
open TcpLocalRedirect (Port)
open UdpEncapsulation (UdpFrame IsUdp Restored headerSize headersLength_lt maxEtherFrame socks5UdpHeader)

structure IntermediateBuffer where
  mLength : BitVec 32
  mIBuffer : Buffer

def udpPayload (b : Buffer) : ℕ := transportHeader b + 8

/-- The frame as `UdpEncapsulation` has it. -/
def frame (p : IntermediateBuffer) : UdpFrame where
  hDest := hDest p.mIBuffer
  hSource := hSource p.mIBuffer
  ipSrc := ipSrc p.mIBuffer
  ipDst := ipDst p.mIBuffer
  ipOff := read16 p.mIBuffer 20
  ipHl := ipHl p.mIBuffer
  ipLen := ipLen p.mIBuffer
  thSport := read16 p.mIBuffer (transportHeader p.mIBuffer)
  thDport := read16 p.mIBuffer (transportHeader p.mIBuffer + 2)
  length := read16 p.mIBuffer (transportHeader p.mIBuffer + 4)
  mLength := p.mLength
  memory := fun i => p.mIBuffer (udpPayload p.mIBuffer + i)

def storeAt (b : Buffer) (start : ℕ) (bytes : List Byte) : Buffer := fun j =>
  if start ≤ j then bytes[j - start]?.getD (b j) else b j

def recalculateChecksums (b : Buffer) : Buffer := recalculateIpChecksum (recalculateUdpChecksum b)

section Translations
variable (p : IntermediateBuffer)

def withHeader (port : Port) : Buffer :=
  let header := transportHeader p.mIBuffer
  let payload := header + 8
  let size := min (UdpEncapsulation.udpPayloadSize (frame p)).toNat
    (UdpEncapsulation.udpMaxPayloadSize (frame p)).toNat
  let b := move p.mIBuffer (payload + headerSize) payload size
  let b := write16 b 16 (ipLen b + BitVec.ofNat 16 headerSize)
  let b := write16 b (header + 4) (read16 b (header + 4) + BitVec.ofNat 16 headerSize)
  let b := storeAt b payload (socks5UdpHeader (ipDst b) (read16 b (header + 2)))
  write16 (swapAddresses b) (header + 2) port

def encapsulated (port : Port) : IntermediateBuffer :=
  ⟨p.mLength + BitVec.ofNat 32 headerSize, recalculateChecksums (withHeader p port)⟩

def withoutHeader : Buffer :=
  let header := transportHeader p.mIBuffer
  let payload := header + 8
  let b := swapAddresses p.mIBuffer
  let b := storeAt b 26 [b (payload + 4), b (payload + 5), b (payload + 6), b (payload + 7)]
  let b := write16 b header (read16 b (payload + 8))
  let size := ((UdpEncapsulation.udpReplySize (frame p)).setWidth 64 - BitVec.ofNat 64 headerSize).toNat
  let b := move b payload (payload + headerSize) size
  let b := write16 b 16 (ipLen b - BitVec.ofNat 16 headerSize)
  write16 b (header + 4) (read16 b (header + 4) - BitVec.ofNat 16 headerSize)

def decapsulated : IntermediateBuffer :=
  ⟨p.mLength - BitVec.ofNat 32 headerSize, recalculateChecksums (withoutHeader p)⟩

variable (endpoints : Port → Option ℕ) (now : ℕ)

/-- `(ntohs(ip_off) & ~IP_DF) != 0`. -/
def isFragment (b : Buffer) : Prop := read16 b 20 &&& ~~~0x4000#16 ≠ 0

instance (b : Buffer) : Decidable (isFragment b) := inferInstanceAs (Decidable (_ ≠ _))

def processClientToServerPacket (proxyPort port : Port) :
    Option IntermediateBuffer × (Port → Option ℕ) :=
  let b := p.mIBuffer
  let port := if port = 0 then proxyPort else port
  if hProto b ≠ ethPIp then (none, endpoints)
  else if ipP b ≠ udp.protocol then (none, endpoints)
  else if isFragment b then (none, endpoints)
  else
    let key := read16 b (transportHeader b)
    match endpoints key with
    | none => (none, endpoints)
    | some _ => (some (encapsulated p port), Function.update endpoints key (some now))

def processServerToClientPacket : Option IntermediateBuffer × (Port → Option ℕ) :=
  let b := p.mIBuffer
  if hProto b ≠ ethPIp then (none, endpoints)
  else if ipP b ≠ udp.protocol then (none, endpoints)
  else if isFragment b then (none, endpoints)
  else
    let key := read16 b (transportHeader b + 2)
    match endpoints key with
    | none => (none, endpoints)
    | some _ => (some (decapsulated p), Function.update endpoints key (some now))

end Translations

/-! ### Where the writes lie -/

section Writes
variable {b c : Buffer} {p : IntermediateBuffer} {port : Port} {j dst src n start : ℕ} {bytes : List Byte}

theorem move_of_outside (h : j < dst ∨ dst + n ≤ j) : move b dst src n j = b j := by
  rw [move, if_neg (by omega)]

theorem storeAt_of_outside (h : j < start ∨ start + bytes.length ≤ j) : storeAt b start bytes j = b j := by
  unfold storeAt
  split
  · rw [List.getElem?_eq_none (by omega), Option.getD_none]
  · rfl

def Rewritten (b : Buffer) (j : ℕ) : Prop :=
  j < 12 ∨ j = 16 ∨ j = 17 ∨ 26 ≤ j ∧ j < 34 ∨ transportHeader b ≤ j

theorem withHeader_of_not_rewritten (_ : 34 ≤ transportHeader p.mIBuffer) (h : ¬Rewritten p.mIBuffer j) :
    withHeader p port j = p.mIBuffer j := by
  unfold Rewritten at h
  unfold withHeader
  rw [write16_of_ne (by omega) (by omega), swapAddresses_of_off ⟨by omega, by omega⟩,
    storeAt_of_outside (by omega), write16_of_ne (by omega) (by omega), write16_of_ne (by omega) (by omega),
    move_of_outside (by omega)]

theorem withoutHeader_of_not_rewritten (_ : 34 ≤ transportHeader p.mIBuffer) (h : ¬Rewritten p.mIBuffer j) :
    withoutHeader p j = p.mIBuffer j := by
  unfold Rewritten at h
  unfold withoutHeader
  rw [write16_of_ne (by omega) (by omega), write16_of_ne (by omega) (by omega), move_of_outside (by omega),
    write16_of_ne (by omega) (by omega), storeAt_of_outside (by simp; omega),
    swapAddresses_of_off ⟨by omega, by omega⟩]

end Writes

/-! ### What the writes do to the frame -/

/-- The bytes `b` hold the frame `f`, with the UDP header at `header`. -/
structure Holds (b : Buffer) (header : ℕ) (f : UdpFrame) : Prop where
  large : 34 ≤ header
  start : transportHeader b = header
  fields : frame ⟨f.mLength, b⟩ = f

section Holds
variable {b c : Buffer} {header : ℕ} {f : UdpFrame} {w : BitVec 16}

theorem transportHeader_congr (h : c 14 = b 14) : transportHeader c = transportHeader b := by
  rw [transportHeader, ipHeaderLength_congr h, transportHeader]

namespace Holds
variable (h : Holds b header f)
include h

theorem sport : read16 b header = f.thSport := by
  rw [← h.fields, ← h.start]
  rfl

theorem dport : read16 b (header + 2) = f.thDport := by
  rw [← h.fields, ← h.start]
  rfl

theorem length : read16 b (header + 4) = f.length := by
  rw [← h.fields, ← h.start]
  rfl

theorem ipLen : ipLen b = f.ipLen := by
  rw [← h.fields]
  rfl

theorem ipDst : ipDst b = f.ipDst := by
  rw [← h.fields]
  rfl

theorem memory (i : ℕ) : b (header + 8 + i) = f.memory i := by
  rw [← h.fields, ← h.start]
  rfl

theorem withLength (m : BitVec 32) : Holds b header { f with mLength := m } where
  large := h.large
  start := h.start
  fields := congrArg (fun g : UdpFrame => { g with mLength := m }) h.fields

theorem behind (hc : ∀ j < 34, c j = b j) :
    Holds c header
      { f with
        thSport := read16 c header
        thDport := read16 c (header + 2)
        length := read16 c (header + 4)
        memory := fun i => c (header + 8 + i) } := by
  have hstart : transportHeader c = header := (transportHeader_congr (hc 14 (by decide))).trans h.start
  have hdest : hDest c = hDest b := macAddress_congr fun j _ _ => hc j (by omega)
  have hsource : hSource c = hSource b := macAddress_congr fun j _ _ => hc j (by omega)
  have hsrc : ipSrc c = ipSrc b := ipAddress_congr fun j _ _ => hc j (by omega)
  have hdst : EthernetFrames.ipDst c = EthernetFrames.ipDst b := ipAddress_congr fun j _ _ => hc j (by omega)
  have hoff : read16 c 20 = read16 b 20 := read16_congr (hc 20 (by decide)) (hc 21 (by decide))
  have hlen : PacketChecksums.ipLen c = PacketChecksums.ipLen b :=
    ipLen_congr (hc 16 (by decide)) (hc 17 (by decide))
  have hhl : ipHl c = ipHl b := ipHl_congr (hc 14 (by decide))
  refine ⟨h.large, hstart, ?_⟩
  rw [← h.fields]
  simp only [frame, udpPayload, hstart, hdest, hsource, hsrc, hdst, hoff, hlen, hhl]

theorem write_sport : Holds (write16 b header w) header { f with thSport := w } := by
  have hlarge := h.large
  have hwrite := h.behind fun j _ => write16_of_ne (i := header) (w := w) (by omega) (by omega)
  have hmemory : ∀ i, write16 b header w (header + 8 + i) = f.memory i := fun i =>
    (write16_of_ne (by omega) (by omega)).trans (h.memory i)
  rwa [read16_write16, read16_write16_of_apart (by omega), read16_write16_of_apart (by omega), h.dport,
    h.length, funext hmemory] at hwrite

theorem write_dport : Holds (write16 b (header + 2) w) header { f with thDport := w } := by
  have hlarge := h.large
  have hwrite := h.behind fun j _ => write16_of_ne (i := header + 2) (w := w) (by omega) (by omega)
  have hmemory : ∀ i, write16 b (header + 2) w (header + 8 + i) = f.memory i := fun i =>
    (write16_of_ne (by omega) (by omega)).trans (h.memory i)
  rwa [read16_write16, read16_write16_of_apart (by omega), read16_write16_of_apart (by omega), h.sport,
    h.length, funext hmemory] at hwrite

theorem write_length : Holds (write16 b (header + 4) w) header { f with length := w } := by
  have hlarge := h.large
  have hwrite := h.behind fun j _ => write16_of_ne (i := header + 4) (w := w) (by omega) (by omega)
  have hmemory : ∀ i, write16 b (header + 4) w (header + 8 + i) = f.memory i := fun i =>
    (write16_of_ne (by omega) (by omega)).trans (h.memory i)
  rwa [read16_write16, read16_write16_of_apart (by omega), read16_write16_of_apart (by omega), h.sport,
    h.dport, funext hmemory] at hwrite

theorem payload {memory : ℕ → Byte} (hbefore : ∀ j < header + 8, c j = b j)
    (hmemory : ∀ i, c (header + 8 + i) = memory i) : Holds c header { f with memory } := by
  have hlarge := h.large
  have hkeep : ∀ i < 7, read16 c (header + i) = read16 b (header + i) := fun i hi =>
    read16_congr (hbefore _ (by omega)) (hbefore _ (by omega))
  have hsport : read16 c header = read16 b header := hkeep 0 (by decide)
  have hbehind := h.behind fun j hj => hbefore j (by omega)
  rwa [hsport, hkeep 2 (by decide), hkeep 4 (by decide), h.sport, h.dport, h.length, funext hmemory] at hbehind

theorem write_ipLen : Holds (write16 b 16 w) header { f with ipLen := w } := by
  have hlarge := h.large
  have hhl : ipHl (write16 b 16 w) = ipHl b := ipHl_congr (write16_of_ne (by decide) (by decide))
  have hstart : transportHeader (write16 b 16 w) = transportHeader b :=
    transportHeader_congr (write16_of_ne (by decide) (by decide))
  have hsrc : ipSrc (write16 b 16 w) = ipSrc b := ipAddress_congr fun j _ _ => write16_of_ne (by omega) (by omega)
  have hdst : EthernetFrames.ipDst (write16 b 16 w) = EthernetFrames.ipDst b :=
    ipAddress_congr fun j _ _ => write16_of_ne (by omega) (by omega)
  have hread : ∀ i, 18 ≤ i → read16 (write16 b 16 w) i = read16 b i := fun i hi =>
    read16_write16_of_apart (by omega)
  have hmemory : ∀ i, write16 b 16 w (header + 8 + i) = b (header + 8 + i) := fun i =>
    write16_of_ne (by omega) (by omega)
  refine ⟨hlarge, hstart.trans h.start, ?_⟩
  rw [← h.fields]
  simp only [frame, udpPayload, hstart, h.start, hhl, hsrc, hdst, hmemory, PacketChecksums.ipLen, read16_write16,
    hDest_write16 (show 12 ≤ 16 by decide), hSource_write16 (show 12 ≤ 16 by decide), hread 20 (by decide),
    hread header (by omega), hread (header + 2) (by omega), hread (header + 4) (by omega)]

theorem swapAddresses : Holds (swapAddresses b) header f.swapAddresses := by
  have hlarge := h.large
  have hkeep : ∀ j, OffAddresses j → EthernetFrames.swapAddresses b j = b j := fun j hj =>
    swapAddresses_of_off hj
  have hhl : ipHl (EthernetFrames.swapAddresses b) = ipHl b := ipHl_congr (hkeep 14 ⟨by decide, by decide⟩)
  have hstart : transportHeader (EthernetFrames.swapAddresses b) = transportHeader b :=
    transportHeader_congr (hkeep 14 ⟨by decide, by decide⟩)
  have hlen : PacketChecksums.ipLen (EthernetFrames.swapAddresses b) = PacketChecksums.ipLen b :=
    ipLen_congr (hkeep 16 ⟨by decide, by decide⟩) (hkeep 17 ⟨by decide, by decide⟩)
  have hoff : read16 (EthernetFrames.swapAddresses b) 20 = read16 b 20 :=
    read16_congr (hkeep 20 ⟨by decide, by decide⟩) (hkeep 21 ⟨by decide, by decide⟩)
  have hmemory : ∀ i, EthernetFrames.swapAddresses b (header + 8 + i) = b (header + 8 + i) :=
    fun i => hkeep _ ⟨by omega, by omega⟩
  refine ⟨hlarge, hstart.trans h.start, ?_⟩
  rw [← h.fields]
  simp only [frame, udpPayload, hstart, h.start, hhl, hlen, hoff, hmemory, hDest_swapAddresses,
    hSource_swapAddresses, ipSrc_swapAddresses, ipDst_swapAddresses, read16_swapAddresses hlarge,
    read16_swapAddresses (show 34 ≤ header + 2 by omega), read16_swapAddresses (show 34 ≤ header + 4 by omega),
    UdpFrame.swapAddresses]

theorem move (dst src n : ℕ) :
    Holds (move b (header + 8 + dst) (header + 8 + src) n) header
      { f with memory := ByteMoves.move f.memory dst src n } := by
  apply h.payload
  · exact fun j hj => move_of_outside (by omega)
  · intro i
    simp only [ByteMoves.move, ← h.memory]
    by_cases hi : dst ≤ i ∧ i < dst + n
    · rw [if_pos (by omega), if_pos hi]
      congr 1
      omega
    · rw [if_neg (by omega), if_neg hi]

theorem move_back (dst n : ℕ) :
    Holds (ByteMoves.move b (header + 8 + dst) (header + 8) n) header
      { f with memory := ByteMoves.move f.memory dst 0 n } := h.move dst 0 n

theorem move_front (src n : ℕ) :
    Holds (ByteMoves.move b (header + 8) (header + 8 + src) n) header
      { f with memory := ByteMoves.move f.memory 0 src n } := h.move 0 src n

theorem store (bytes : List Byte) :
    Holds (storeAt b (header + 8) bytes) header { f with memory := ByteMoves.store f.memory bytes } := by
  apply h.payload
  · exact fun j hj => storeAt_of_outside (by omega)
  · intro i
    rw [storeAt, if_pos (by omega), ByteMoves.store, Nat.add_sub_cancel_left, h.memory]

theorem store_ipSrc :
    Holds (storeAt b 26 [b (header + 8 + 4), b (header + 8 + 5), b (header + 8 + 6), b (header + 8 + 7)]) header
      { f with ipSrc := UdpEncapsulation.destAddress f.memory } := by
  have hlarge := h.large
  generalize hc : storeAt b 26 _ = c
  have hkeep : ∀ j, j < 26 ∨ 30 ≤ j → c j = b j := by
    intro j hj
    rw [← hc, storeAt_of_outside (by simp only [List.length_cons, List.length_nil]; omega)]
  have hsrc : ipSrc c = UdpEncapsulation.destAddress f.memory := by
    rw [UdpEncapsulation.destAddress, ← h.memory, ← h.memory, ← h.memory, ← h.memory, ← hc]
    rfl
  have hstart : transportHeader c = transportHeader b := transportHeader_congr (hkeep 14 (by omega))
  have hdest : hDest c = hDest b := macAddress_congr fun j _ _ => hkeep j (by omega)
  have hsource : hSource c = hSource b := macAddress_congr fun j _ _ => hkeep j (by omega)
  have hdst : EthernetFrames.ipDst c = EthernetFrames.ipDst b := ipAddress_congr fun j _ _ => hkeep j (by omega)
  have hlen : PacketChecksums.ipLen c = PacketChecksums.ipLen b :=
    ipLen_congr (hkeep 16 (by omega)) (hkeep 17 (by omega))
  have hhl : ipHl c = ipHl b := ipHl_congr (hkeep 14 (by omega))
  have hread : ∀ j, j < 25 ∨ 30 ≤ j → read16 c j = read16 b j := fun j hj =>
    read16_congr (hkeep j (by omega)) (hkeep (j + 1) (by omega))
  have hmemory : ∀ i, c (header + 8 + i) = b (header + 8 + i) := fun i => hkeep _ (by omega)
  refine ⟨hlarge, hstart.trans h.start, ?_⟩
  rw [← hsrc]
  conv_rhs => rw [← h.fields]
  simp only [frame, udpPayload, hstart, h.start, hdest, hsource, hdst, hlen, hhl, hmemory, hread 20 (by omega),
    hread header (by omega), hread (header + 2) (by omega), hread (header + 4) (by omega)]

end Holds

end Holds

section Translated
variable {p : IntermediateBuffer} {port : Port} {b : Buffer} {header : ℕ} {f : UdpFrame}

theorem holds_frame (hlarge : 34 ≤ transportHeader p.mIBuffer) :
    Holds p.mIBuffer (transportHeader p.mIBuffer) (frame p) := ⟨hlarge, rfl, rfl⟩

theorem holds_withHeader (port : Port) (hlarge : 34 ≤ transportHeader p.mIBuffer) :
    Holds (withHeader p port) (transportHeader p.mIBuffer)
      { (UdpEncapsulation.attachHeader (frame p)).swapAddresses with
        mLength := p.mLength, thDport := port } := by
  have hmove := (holds_frame hlarge).move_back headerSize
    (min (UdpEncapsulation.udpPayloadSize (frame p)).toNat
      (UdpEncapsulation.udpMaxPayloadSize (frame p)).toNat)
  have hipLen := hmove.write_ipLen (w := (frame p).ipLen + BitVec.ofNat 16 headerSize)
  have hlength := hipLen.write_length (w := (frame p).length + BitVec.ofNat 16 headerSize)
  have hstore := hlength.store (socks5UdpHeader (frame p).ipDst (frame p).thDport)
  have hdport := hstore.swapAddresses.write_dport (w := port)
  unfold withHeader
  simp only [hmove.ipLen, hipLen.length, hlength.ipDst, hlength.dport]
  exact hdport

theorem holds_withoutHeader (hlarge : 34 ≤ transportHeader p.mIBuffer) :
    Holds (withoutHeader p) (transportHeader p.mIBuffer)
      { (UdpEncapsulation.removeHeader (frame p)).swapAddresses with
        mLength := p.mLength
        ipSrc := UdpEncapsulation.destAddress (frame p).memory
        thSport := UdpEncapsulation.destPort (frame p).memory } := by
  have hsrc := (holds_frame hlarge).swapAddresses.store_ipSrc
  have hport := congrArg₂ (fun x y : Byte => x ++ y) (hsrc.memory 8) (hsrc.memory 9)
  have hsport := hsrc.write_sport (w := UdpEncapsulation.destPort (frame p).memory)
  have hmove := hsport.move_front headerSize
    ((UdpEncapsulation.udpReplySize (frame p)).setWidth 64 - BitVec.ofNat 64 headerSize).toNat
  have hipLen := hmove.write_ipLen (w := (frame p).swapAddresses.ipLen - BitVec.ofNat 16 headerSize)
  have hlength := hipLen.write_length (w := (frame p).swapAddresses.length - BitVec.ofNat 16 headerSize)
  have hread : read16 _ (transportHeader p.mIBuffer + 8 + 8) = UdpEncapsulation.destPort (frame p).memory := hport
  unfold withoutHeader
  simp only [hread, hmove.ipLen, hipLen.length]
  exact hlength

theorem padded_memory (hseg : HasSegment udp b) (h : Holds b header f) (i : ℕ) :
    recalculateChecksums b (header + 8 + i) = f.recalculateUdpChecksum.memory i := by
  have hlarge := h.large
  have hfield := hseg.field
  have hlength := transportLength_toNat hseg.le
  have hodd := segmentLength_odd hseg.le
  rw [hlength] at hodd
  have hudpLen : f.ipLen.setWidth 32 - BitVec.ofNat 32 f.ipHeaderLength = transportLength b := by
    rw [← h.fields]
    rfl
  have hstart : header = 14 + ipHeaderLength b := h.start.symm
  have hbit : (transportLength b).getLsbD 0 = decide ((transportLength b).toNat % 2 = 1) := Nat.testBit_zero _
  have hudp : ipHeaderLength b + 8 ≤ (ipLen b).toNat := hfield
  rw [recalculateChecksums, recalculateIpChecksum_of_ne (by omega) (by omega), recalculateUdpChecksum,
    recalculateTransportChecksum_eq_pad hseg.protocol, pad_eq hseg.le]
  · simp only [UdpFrame.recalculateUdpChecksum, hudpLen, hbit, hlength, hodd, decide_eq_true_eq]
    split
    · rw [Function.update_apply, Function.update_apply, h.memory, segmentLength]
      congr 1
      simp only [eq_iff_iff]
      omega
    · exact h.memory i
  · rw [h.start]
    exact Nat.ne_of_gt (by simp only [udp]; omega)
  · rw [h.start]
    exact Nat.ne_of_gt (by simp only [udp]; omega)

theorem holds_recalculateChecksums (hseg : HasSegment udp b) (h : Holds b header f) :
    Holds (recalculateChecksums b) header f.recalculateUdpChecksum := by
  have hmemory := padded_memory hseg h
  obtain ⟨hlarge, rfl, hfields⟩ := h
  have hfield : ipHeaderLength b + 8 ≤ (ipLen b).toNat := hseg.field
  have hend : transportHeader b = 14 + ipHeaderLength b := rfl
  have hkeep : ∀ j, j < 24 ∨ 25 < j ∧ j < transportHeader b + 6 → recalculateChecksums b j = b j := by
    intro j hj
    apply (repaired hseg).frame
    unfold Written udp
    simp only
    omega
  have hstart : transportHeader (recalculateChecksums b) = transportHeader b :=
    transportHeader_congr (hkeep 14 (by omega))
  have hdest : hDest (recalculateChecksums b) = hDest b := macAddress_congr fun j _ _ => hkeep j (by omega)
  have hsource : hSource (recalculateChecksums b) = hSource b := macAddress_congr fun j _ _ => hkeep j (by omega)
  have hsrc : ipSrc (recalculateChecksums b) = ipSrc b := ipAddress_congr fun j _ _ => hkeep j (by omega)
  have hdst : ipDst (recalculateChecksums b) = ipDst b := ipAddress_congr fun j _ _ => hkeep j (by omega)
  have hlen : ipLen (recalculateChecksums b) = ipLen b := ipLen_congr (hkeep 16 (by omega)) (hkeep 17 (by omega))
  have hhl : ipHl (recalculateChecksums b) = ipHl b := ipHl_congr (hkeep 14 (by omega))
  have hread : ∀ j, j < 23 ∨ 25 < j ∧ j < transportHeader b + 5 →
      read16 (recalculateChecksums b) j = read16 b j :=
    fun j hj => read16_congr (hkeep j (by omega)) (hkeep (j + 1) (by omega))
  refine ⟨hlarge, hstart, ?_⟩
  simp only [frame, udpPayload, hstart, hdest, hsource, hsrc, hdst, hlen, hhl, hmemory,
    hread 20 (by omega), hread (transportHeader b) (by omega), hread (transportHeader b + 2) (by omega),
    hread (transportHeader b + 4) (by omega)]
  exact congrArg (fun g : UdpFrame => { g with memory := f.recalculateUdpChecksum.memory }) hfields

end Translated

/-! ### What is handed on -/

structure IsDatagram (p : IntermediateBuffer) : Prop where
  proto : hProto p.mIBuffer = ethPIp
  protocol : ipP p.mIBuffer = udp.protocol
  lengths : IsUdp (frame p)

/-- The bytes of `q` hold the frame `f`, its receiver accepts them if `p` is a whole datagram, and the
    rest of the IP header is that of `p`. -/
structure Translates (p q : IntermediateBuffer) (f : UdpFrame) : Prop where
  fields : frame q = f
  header : HeaderAccepted q.mIBuffer
  segment : Whole udp p.mIBuffer → SegmentAccepted udp q.mIBuffer
  kept : ∀ j, ¬Rewritten p.mIBuffer j → j ≠ 24 → j ≠ 25 → q.mIBuffer j = p.mIBuffer j

section Delivery
variable {p q : IntermediateBuffer} {port : Port} {f : UdpFrame} {c : Buffer}

theorem IsDatagram.large (h : IsDatagram p) : 34 ≤ transportHeader p.mIBuffer := by
  have hipHl : 5 ≤ (ipHl p.mIBuffer).toNat := h.lengths.ipHl
  unfold transportHeader ipHeaderLength
  omega

/-- The headers fit the length of the new frame, so recalculating completes the translation. -/
theorem translates_recalculated (hp : IsDatagram p) (hc : Holds c (transportHeader p.mIBuffer) f)
    (hkept : ∀ j, ¬Rewritten p.mIBuffer j → c j = p.mIBuffer j)
    (hlength : (frame p).ipHeaderLength + 8 ≤ f.ipLen.toNat)
    (hlengths : Whole udp p.mIBuffer → f.length.toNat = f.ipLen.toNat - (frame p).ipHeaderLength) :
    Translates p ⟨f.mLength, recalculateChecksums c⟩ f.recalculateUdpChecksum := by
  have hlarge := hp.large
  have hfront : ∀ j, 12 ≤ j → j < 24 → j ≠ 16 → j ≠ 17 → c j = p.mIBuffer j := by
    intro j hle hlt h16 h17
    apply hkept
    unfold Rewritten
    omega
  have hhl : ipHl c = ipHl p.mIBuffer :=
    ipHl_congr (hfront 14 (by decide) (by decide) (by decide) (by decide))
  have hseg : HasSegment udp c := by
    refine ⟨(hfront 23 (by decide) (by decide) (by decide) (by decide)).trans hp.protocol, ?_, ?_⟩
    · rw [hhl]
      exact hp.lengths.ipHl
    · rw [hc.ipLen, ipHeaderLength, hhl]
      exact hlength
  have hrepaired := repaired hseg
  have hwhole (h : Whole udp p.mIBuffer) : Whole udp c := by
    have hoff : read16 c 20 = read16 p.mIBuffer 20 := read16_congr
      (hfront 20 (by decide) (by decide) (by decide) (by decide))
      (hfront 21 (by decide) (by decide) (by decide) (by decide))
    refine ⟨by rw [hoff, h.unfragmented], fun i hi => ?_⟩
    obtain rfl : 4 = i := Option.some.inj hi
    rw [hc.start, hc.length, hlengths h, segmentLength, hc.ipLen, ipHeaderLength, hhl]
    rfl
  refine ⟨(holds_recalculateChecksums hseg hc).fields, hrepaired.header, fun h => hrepaired.segment (hwhole h), ?_⟩
  intro j hj h24 h25
  have hwritten : ¬Written udp c j := by
    have hfield := hseg.field
    have hend := hc.start
    unfold Rewritten at hj
    unfold Written
    unfold transportHeader at hj hend ⊢
    omega
  exact (hrepaired.frame j hwritten).trans (hkept j hj)

theorem translates_encapsulated (h : IsDatagram p) (port : Port) :
    Translates p (encapsulated p port) (UdpEncapsulation.encapsulate (frame p) port) := by
  have hipLen := UdpEncapsulation.encapsulate_ipLen h.lengths port
  have hheaders := h.lengths.headers
  have hholds := (holds_withHeader port h.large).withLength (p.mLength + BitVec.ofNat 32 headerSize)
  refine translates_recalculated h hholds (fun j hj => withHeader_of_not_rewritten h.large hj) ?_ fun hwhole => ?_
  · exact (hheaders.trans (Nat.le_add_right _ headerSize)).trans_eq hipLen.symm
  · have hsame : (frame p).length.toNat = (frame p).ipLen.toNat - (frame p).ipHeaderLength := hwhole.length 4 rfl
    have hlength := UdpEncapsulation.encapsulate_length h.lengths port
    change (UdpEncapsulation.encapsulate (frame p) port).length.toNat =
      (UdpEncapsulation.encapsulate (frame p) port).ipLen.toNat - (frame p).ipHeaderLength
    omega

theorem translates_decapsulated (h : IsDatagram p) (hlength : 8 + headerSize ≤ (frame p).length.toNat) :
    Translates p (decapsulated p) (UdpEncapsulation.decapsulate (frame p)) := by
  have hdatagram := h.lengths.inDatagram
  have hholds := (holds_withoutHeader h.large).withLength (p.mLength - BitVec.ofNat 32 headerSize)
  have hipLen : ((frame p).ipLen - BitVec.ofNat 16 headerSize).toNat = (frame p).ipLen.toNat - headerSize :=
    UdpEncapsulation.toNat_sub_ofNat _ (by omega)
  refine translates_recalculated h hholds (fun j hj => withoutHeader_of_not_rewritten h.large hj) ?_ fun hwhole => ?_
  · change _ ≤ ((frame p).ipLen - BitVec.ofNat 16 headerSize).toNat
    omega
  · have hsame : (frame p).length.toNat = (frame p).ipLen.toNat - (frame p).ipHeaderLength := hwhole.length 4 rfl
    have hshorter : ((frame p).length - BitVec.ofNat 16 headerSize).toNat = (frame p).length.toNat - headerSize :=
      UdpEncapsulation.toNat_sub_ofNat _ (by omega)
    change ((frame p).length - BitVec.ofNat 16 headerSize).toNat =
      ((frame p).ipLen - BitVec.ofNat 16 headerSize).toNat - (frame p).ipHeaderLength
    omega

end Delivery

/-! ### The two translations -/

/-- The call with the bytes does to the table what the call with the fields does, and hands on a frame
    when that does, which it translates. -/
structure Refines (p : IntermediateBuffer) (bytes : Option IntermediateBuffer × (Port → Option ℕ))
    (fields : Option UdpFrame × (Port → Option ℕ)) : Prop where
  endpoints : bytes.2 = fields.2
  verdict : bytes.1 = none ↔ fields.1 = none
  translated : ∀ q f, bytes.1 = some q → fields.1 = some f → Translates p q f

/-- With one verdict for both, what is handed on has to be translated. -/
theorem refines_of_verdict {p q : IntermediateBuffer} {f : UdpFrame} (h : Translates p q f) (verdict : Bool)
    (endpoints : Port → Option ℕ) :
    Refines p (if verdict then some q else none, endpoints) (if verdict then some f else none, endpoints) := by
  cases verdict with
  | false => exact ⟨rfl, iff_of_true rfl rfl, fun _ _ hq => by cases hq⟩
  | true =>
    refine ⟨rfl, by simp only [if_true, reduceCtorEq], ?_⟩
    intro q' f' hq hf
    obtain rfl := Option.some.inj hq
    obtain rfl := Option.some.inj hf
    exact h

section Calls
variable {p reply : IntermediateBuffer} {endpoints : Port → Option ℕ} {now : ℕ} {proxyPort port : Port}

/-- The checks in front of the table. -/
theorem clientToServer_of_isDatagram (h : IsDatagram p) :
    processClientToServerPacket p endpoints now proxyPort port =
      (if (PacketPath.udpClientToServer endpoints now (frame p).toUdpPacket).1 then
          some (encapsulated p (if port = 0 then proxyPort else port)) else none,
        (PacketPath.udpClientToServer endpoints now (frame p).toUdpPacket).2) := by
  unfold processClientToServerPacket PacketPath.udpClientToServer PacketPath.redirectDatagram
  rw [if_neg (not_not.mpr h.proto), if_neg (not_not.mpr h.protocol)]
  by_cases hfragment : isFragment p.mIBuffer
  · have hwhole : (frame p).toUdpPacket.isFragment = true := decide_eq_true hfragment
    rw [if_pos hfragment, hwhole]
    rfl
  · have hwhole : (frame p).toUdpPacket.isFragment = false := decide_eq_false hfragment
    have hkey : read16 p.mIBuffer (transportHeader p.mIBuffer) = (frame p).toUdpPacket.thSport := rfl
    rw [if_neg hfragment, hwhole, hkey]
    cases hentry : endpoints (frame p).toUdpPacket.thSport <;> simp [hentry]

theorem serverToClient_of_isDatagram (h : IsDatagram p) :
    processServerToClientPacket p endpoints now =
      (if (PacketPath.udpServerToClient endpoints now (frame p).toUdpPacket).1 then
          some (decapsulated p) else none,
        (PacketPath.udpServerToClient endpoints now (frame p).toUdpPacket).2) := by
  unfold processServerToClientPacket PacketPath.udpServerToClient PacketPath.redirectDatagram
  rw [if_neg (not_not.mpr h.proto), if_neg (not_not.mpr h.protocol)]
  by_cases hfragment : isFragment p.mIBuffer
  · have hwhole : (frame p).toUdpPacket.isFragment = true := decide_eq_true hfragment
    rw [if_pos hfragment, hwhole]
    rfl
  · have hwhole : (frame p).toUdpPacket.isFragment = false := decide_eq_false hfragment
    have hkey : read16 p.mIBuffer (transportHeader p.mIBuffer + 2) = (frame p).toUdpPacket.thDport := rfl
    rw [if_neg hfragment, hwhole, hkey]
    cases hentry : endpoints (frame p).toUdpPacket.thDport <;> simp [hentry]

theorem clientToServer_refines (h : IsDatagram p) :
    Refines p (processClientToServerPacket p endpoints now proxyPort port)
      (UdpEncapsulation.processClientToServerPacket (frame p) endpoints now
        (if port = 0 then proxyPort else port)) := by
  rw [clientToServer_of_isDatagram h]
  exact refines_of_verdict (translates_encapsulated h _) _ _

theorem serverToClient_refines (h : IsDatagram p) (hlength : 8 + headerSize ≤ (frame p).length.toNat) :
    Refines p (processServerToClientPacket p endpoints now)
      (UdpEncapsulation.processServerToClientPacket (frame p) endpoints now) := by
  rw [serverToClient_of_isDatagram h]
  exact refines_of_verdict (translates_decapsulated h hlength) _ _

/-- A datagram that leaves room for the header comes back from an echo as it was. -/
theorem restored_echo (h : IsDatagram p) (hroom : p.mLength.toNat + headerSize ≤ maxEtherFrame)
    (hreply : IsDatagram reply) (hheader : 8 ≤ (frame p).length.toNat)
    (hecho : frame reply = (frame (encapsulated p port)).echo) :
    Restored (frame p) (frame (decapsulated reply)) := by
  have hsent := (translates_encapsulated h port).fields
  rw [hsent] at hecho
  have hlength : 8 + headerSize ≤ (frame reply).length.toNat := by
    have hgrown := UdpEncapsulation.encapsulate_length h.lengths port
    rw [hecho]
    change _ ≤ (UdpEncapsulation.encapsulate (frame p) port).length.toNat
    omega
  rw [(translates_decapsulated hreply hlength).fields, hecho]
  exact UdpEncapsulation.restored_of_room h.lengths hroom port

/-- Both calls at once, and the echo: what the redirect hands on is in every byte what the fields say,
    and is accepted. -/
theorem datagram_frames (h : IsDatagram p) (endpoints : Port → Option ℕ) (now : ℕ) (proxyPort port : Port) :
    Refines p (processClientToServerPacket p endpoints now proxyPort port)
        (UdpEncapsulation.processClientToServerPacket (frame p) endpoints now
          (if port = 0 then proxyPort else port)) ∧
      (8 + headerSize ≤ (frame p).length.toNat →
        Refines p (processServerToClientPacket p endpoints now)
          (UdpEncapsulation.processServerToClientPacket (frame p) endpoints now)) ∧
      ∀ reply, p.mLength.toNat + headerSize ≤ maxEtherFrame → 8 ≤ (frame p).length.toNat →
        IsDatagram reply → frame reply = (frame (encapsulated p port)).echo →
          Restored (frame p) (frame (decapsulated reply)) :=
  ⟨clientToServer_refines h, serverToClient_refines h,
    fun _ hroom hheader hreply hecho => restored_echo h hroom hreply hheader hecho⟩

def echoed (p : IntermediateBuffer) : IntermediateBuffer :=
  let header := transportHeader p.mIBuffer
  let b := write16 (swapAddresses p.mIBuffer) header (read16 p.mIBuffer (header + 2))
  ⟨p.mLength, write16 b (header + 2) (read16 p.mIBuffer header)⟩

theorem frame_echoed (hlarge : 34 ≤ transportHeader p.mIBuffer) : frame (echoed p) = (frame p).echo :=
  (holds_frame hlarge).swapAddresses.write_sport.write_dport.fields

theorem echoed_of_front (hlarge : 34 ≤ transportHeader p.mIBuffer) {j : ℕ} (hle : 12 ≤ j) (hlt : j < 24) :
    (echoed p).mIBuffer j = p.mIBuffer j := by
  simp only [echoed]
  rw [write16_of_ne (by omega) (by omega), write16_of_ne (by omega) (by omega),
    swapAddresses_of_off ⟨by omega, by omega⟩]

theorem isDatagram_echoed (h : IsDatagram p) (hroom : p.mLength.toNat + headerSize ≤ maxEtherFrame) :
    IsDatagram (echoed (encapsulated p port)) := by
  have hsent := translates_encapsulated h port
  have hlarge := h.large
  have hfront : ∀ j, 12 ≤ j → j < 24 → j ≠ 16 → j ≠ 17 →
      (encapsulated p port).mIBuffer j = p.mIBuffer j := by
    intro j hle hlt h16 h17
    refine hsent.kept j ?_ (by omega) (by omega)
    unfold Rewritten
    omega
  have hstart : transportHeader (encapsulated p port).mIBuffer = transportHeader p.mIBuffer :=
    transportHeader_congr (hfront 14 (by decide) (by decide) (by decide) (by decide))
  have hlarge' : 34 ≤ transportHeader (encapsulated p port).mIBuffer := hstart.symm ▸ hlarge
  have hkeep : ∀ j, 12 ≤ j → j < 24 → j ≠ 16 → j ≠ 17 →
      (echoed (encapsulated p port)).mIBuffer j = p.mIBuffer j := fun j hle hlt h16 h17 =>
    (echoed_of_front hlarge' hle hlt).trans (hfront j hle hlt h16 h17)
  refine ⟨?_, ?_, ?_⟩
  · exact (read16_congr (hkeep 12 (by decide) (by decide) (by decide) (by decide))
      (hkeep 13 (by decide) (by decide) (by decide) (by decide))).trans h.proto
  · exact (hkeep 23 (by decide) (by decide) (by decide) (by decide)).trans h.protocol
  · rw [frame_echoed hlarge', hsent.fields]
    exact UdpEncapsulation.isUdp_echo h.lengths hroom

def datagram : IntermediateBuffer where
  mLength := 44
  mIBuffer := fun i =>
    [0, 0, 0, 0, 0, 2, 0, 0, 0, 0, 0, 1, 8, 0, 0x45, 0, 0, 30, 0, 0, 0, 0, 64, 17, 0, 0, 10, 0, 0, 1,
      10, 0, 0, 2, 0x13, 0x88, 0, 53, 0, 10, 0, 0, 7, 9][i]?.getD 0

theorem isDatagram_datagram : IsDatagram datagram :=
  ⟨by decide, by decide, ⟨by decide, by decide, by decide, by decide, by decide⟩⟩

theorem datagram_frames_datagram :
    Whole udp datagram.mIBuffer ∧
    Refines datagram (processClientToServerPacket datagram (fun _ => some 0) 1 0 8080)
      (UdpEncapsulation.processClientToServerPacket (frame datagram) (fun _ => some 0) 1 8080) ∧
    Refines (echoed (encapsulated datagram 8080))
      (processServerToClientPacket (echoed (encapsulated datagram 8080)) (fun _ => some 0) 1)
      (UdpEncapsulation.processServerToClientPacket (frame (echoed (encapsulated datagram 8080)))
        (fun _ => some 0) 1) ∧
    Restored (frame datagram) (frame (decapsulated (echoed (encapsulated datagram 8080)))) := by
  have hreply : IsDatagram (echoed (encapsulated datagram 8080)) :=
    isDatagram_echoed isDatagram_datagram (by decide)
  have hecho : frame (echoed (encapsulated datagram 8080)) = (frame (encapsulated datagram 8080)).echo :=
    frame_echoed (by decide +kernel)
  have hlength : (frame (encapsulated datagram 8080)).length.toNat = 20 :=
    (congrArg (fun f : UdpFrame => f.length.toNat)
      (translates_encapsulated isDatagram_datagram 8080).fields).trans
      (UdpEncapsulation.encapsulate_length isDatagram_datagram.lengths 8080)
  refine ⟨⟨by decide, by decide⟩, ?_, ?_, ?_⟩
  · exact (datagram_frames isDatagram_datagram (fun _ => some 0) 1 0 8080).1
  · refine (datagram_frames hreply (fun _ => some 0) 1 0 8080).2.1 ?_
    rw [hecho]
    exact (show 8 + headerSize ≤ 20 by decide).trans_eq hlength.symm
  · exact (datagram_frames isDatagram_datagram (fun _ => some 0) 1 0 8080).2.2 _ (by decide) (by decide)
      hreply hecho

end Calls

end ProxySwitch.UdpFrames
