import ProxySwitch.EthernetFrames
import ProxySwitch.TcpTranslation

set_option autoImplicit false

namespace ProxySwitch.TcpFrames
open DestinationRules (InAddr)
open EthernetFrames PacketChecksums TcpLocalRedirect TransitionRuns
open TcpTranslation (Answers Connection World)

section Translations
variable (r : Redirect InAddr) (now : ℕ) (b : Buffer)

def thSport : Port := read16 b (transportHeader b)

def thDport : Port := read16 b (transportHeader b + 2)

def thFlags : Byte := b (transportHeader b + 13)

def thFin : Byte := 0x01
def thSyn : Byte := 0x02
def thRst : Byte := 0x04
def thAck : Byte := 0x10

def recalculateChecksums : Buffer := recalculateIpChecksum (recalculateTcpChecksum b)

def redirected (port : Port) : Buffer :=
  recalculateChecksums (write16 (swapAddresses b) (transportHeader b + 2) port)

def restored (port : Port) : Buffer :=
  recalculateChecksums (swapAddresses (write16 b (transportHeader b) port))

def afterSegment (e : TimestampEndpoint) : Option TimestampEndpoint :=
  if thFlags b &&& thRst ≠ 0 ∨ thFlags b &&& thFin ≠ 0 then none else some { e with lastActivity := now }

def processClientToServerPacket (port : Port) : Option Buffer × Redirect InAddr :=
  let port := if port = 0 then r.proxyPort else port
  if hProto b ≠ ethPIp then (none, r)
  else if ipP b ≠ tcp.protocol then (none, r)
  else
    let key : IpEndpoint InAddr := ⟨ipDst b, thSport b⟩
    if thFlags b &&& (thSyn ||| thAck) = thSyn then
      match r.redirectedConnections key with
      | some _ => (none, r)
      | none => (some (redirected b port), r.set key (some ⟨thDport b, now⟩))
    else
      match r.redirectedConnections key with
      | none => (none, r)
      | some e => (some (redirected b port), r.set key (afterSegment now b e))

def processServerToClientPacket : Option Buffer × Redirect InAddr :=
  if hProto b ≠ ethPIp then (none, r)
  else if ipP b ≠ tcp.protocol then (none, r)
  else
    let key : IpEndpoint InAddr := ⟨ipDst b, thDport b⟩
    match r.redirectedConnections key with
    | none => (none, r)
    | some e => (some (restored b e.port), r.set key (afterSegment now b e))

end Translations

/-! ### The fields that the redirect goes by -/

def packet (b : Buffer) : TcpPacket InAddr where
  hDest := hDest b
  hSource := hSource b
  ipSrc := ipSrc b
  ipDst := ipDst b
  thSport := thSport b
  thDport := thDport b
  syn := thFlags b &&& thSyn ≠ 0
  ack := thFlags b &&& thAck ≠ 0
  fin := thFlags b &&& thFin ≠ 0
  rst := thFlags b &&& thRst ≠ 0

def isTcp (b : Buffer) : Prop := hProto b = ethPIp ∧ ipP b = tcp.protocol

instance (b : Buffer) : Decidable (isTcp b) := inferInstanceAs (Decidable (_ ∧ _))

section Fields
variable {r : Redirect InAddr} {now : ℕ} {b : Buffer} {port : Port}

end Fields

/-! ### What is handed on -/

def OnPorts (b : Buffer) (j : ℕ) : Prop := transportHeader b ≤ j ∧ j < transportHeader b + 4

/-- The receiver accepts `b'`, which differs from `b` in addresses, ports and checksums only. -/
structure Delivered (b b' : Buffer) : Prop where
  header : HeaderAccepted b'
  segment : SegmentAccepted tcp b'
  kept : ∀ j, OffAddresses j → ¬OnPorts b j → ¬Written tcp b j → b' j = b j

section Delivery
variable {b c : Buffer} {port : Port}

def Readdressed (b c : Buffer) : Prop := ∀ j, OffAddresses j → ¬OnPorts b j → c j = b j

theorem Readdressed.front (h : Readdressed b c) (hseg : HasSegment tcp b) (j : ℕ) (hle : 12 ≤ j) (hlt : j < 24) :
    c j = b j := by
  have hipHl := hseg.ipHl
  apply h
  · unfold OffAddresses
    omega
  · unfold OnPorts transportHeader ipHeaderLength
    omega

theorem written_congr (hlen : ipLen c = ipLen b) (hstart : transportHeader c = transportHeader b) {j : ℕ} :
    Written tcp c j ↔ Written tcp b j := by
  rw [Written, Written, hlen, hstart]

theorem Readdressed.delivered (h : Readdressed b c) (hseg : HasSegment tcp b) (hwhole : Whole tcp b) :
    Delivered b (recalculateChecksums c) := by
  obtain ⟨-, hlen, hstart⟩ := lengths_of_front (h.front hseg)
  have hrepaired := repaired (hseg.of_front (h.front hseg))
  have hlength : ∀ i ∈ tcp.lengthField, read16 c (transportHeader b + i) = read16 b (transportHeader b + i) :=
    fun i hi => by cases hi
  refine ⟨hrepaired.header, hrepaired.segment (hwhole.of_front (h.front hseg) hlength),
    fun j haddress hport hwritten => ?_⟩
  have hc : recalculateChecksums c j = c j := hrepaired.frame j ((written_congr hlen hstart).not.mpr hwritten)
  rw [hc, h j haddress hport]

end Delivery

/-! ### Runs over frames -/

inductive Event
  | clientToServer (b : Buffer) (port : Port)
  | serverToClient (b : Buffer)
  | cleanup
  | tick (elapsed : ℕ)

/-- The connections are recorded as they are for `TcpTranslation`, the table comes of the frames. -/
def step (w : World InAddr) : Event → Option (World InAddr)
  | .clientToServer b port =>
    let redirect := (processClientToServerPacket w.redirect w.now b port).2
    if isTcp b then
      (TcpTranslation.step w (.clientToServer (packet b) port)).map fun w' => { w' with redirect }
    else some { w with redirect }
  | .serverToClient b =>
    let redirect := (processServerToClientPacket w.redirect w.now b).2
    if isTcp b then
      (TcpTranslation.step w (.serverToClient (packet b))).map fun w' => { w' with redirect }
    else some { w with redirect }
  | .cleanup => TcpTranslation.step w .cleanup
  | .tick elapsed => TcpTranslation.step w (.tick elapsed)

/-- What a call with a frame is for `TcpTranslation`; frames without a TCP segment are nothing. -/
def calls : Event → List (TcpTranslation.Event InAddr)
  | .clientToServer b port => if isTcp b then [.clientToServer (packet b) port] else []
  | .serverToClient b => if isTcp b then [.serverToClient (packet b)] else []
  | .cleanup => [.cleanup]
  | .tick elapsed => [.tick elapsed]

structure IsSegment (b : Buffer) : Prop where
  proto : hProto b = ethPIp
  segment : HasSegment tcp b
  whole : Whole tcp b

theorem IsSegment.isTcp {b : Buffer} (h : IsSegment b) : isTcp b := ⟨h.proto, h.segment.protocol⟩

section Runs
variable {w w' : World InAddr} {e : Event} {b : Buffer} {port : Port} {c : Connection InAddr}

end Runs

end ProxySwitch.TcpFrames
