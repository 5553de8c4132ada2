import ProxySwitch.DeferredPackets
import ProxySwitch.PacketStreams

set_option autoImplicit false

/-!
# The router behind the packet filter

`socks_local_router` gives the queued filter a handler for outgoing packets and none for incoming
ones. The resolver thread, the proxies and the client of the PID routes change the tables that the
handler looks into, between its calls and between the lookups of one.
-/
namespace ProxySwitch.RouterFilter
open DeferredPackets (Frame)
open DestinationRules (InAddr)
open PacketPath PacketQueues PacketStages RouterPidRoutes TcpLocalRedirect TransitionRuns

structure UdpTranslation where
  toProxy : UdpPacket → Port → UdpPacket
  toClient : UdpPacket → UdpPacket

section Handler
variable (cfg : Config) (udp : UdpTranslation)

/-- A packet whose process is not known is handed to `enqueue_for_deferred_resolve`, which drops
    the original. -/
def tcpVerdict (p : TcpPacket InAddr) : TcpDecision → ActionType × Frame
  | .queued => (.drop, .tcp p)
  | .pass _ => (.pass, .tcp p)
  | .toClient translated => (.revert, .tcp translated)
  | .toProxy translated => (.revert, .tcp translated)

def udpVerdict (p : UdpPacket) : UdpDecision → ActionType × Frame
  | .queued => (.drop, .udp p)
  | .pass _ => (.pass, .udp p)
  | .toClient () => (.revert, .udp (udp.toClient p))
  | .toProxy port => (.revert, .udp (udp.toProxy p port))

def verdict (seen : Seen) : Frame → ActionType × Frame
  | .tcp p => tcpVerdict p (tcpDecision cfg seen false p)
  | .udp p => udpVerdict udp p (filterUdpDecision cfg seen p)
  | .other => (.pass, .other)

/-- The handler that the router's constructor gives to the filter; it names no other adapter. -/
def filterOutgoingPacket : Handler Seen Frame := fun seen _ buffer =>
  let result := verdict cfg udp seen buffer.frame
  (⟨result.1, none⟩, { buffer with frame := result.2 }, seen)

def setup (uninitialized : ℕ → IntermediateBuffer Frame) : Setup Seen Seen Frame where
  filterIncomingPacket := none
  filterOutgoingPacket := some (filterOutgoingPacket cfg udp)
  change _ seen := seen
  uninitialized := uninitialized

theorem verdict_action (seen : Seen) (frame : Frame) :
    (verdict cfg udp seen frame).1 =
        match DeferredPackets.filterPacket cfg seen .onSend frame with
        | some .pass => .pass
        | some .revert => .revert
        | _ => .drop := by
  cases frame with
  | tcp p =>
    simp only [verdict, DeferredPackets.filterPacket]
    cases tcpDecision cfg seen false p <;> rfl
  | udp p =>
    simp only [verdict, DeferredPackets.filterPacket]
    cases filterUdpDecision cfg seen p <;> rfl
  | other => rfl

end Handler

inductive TranslationOf (udp : UdpTranslation) : Frame → Frame → Prop
  | tcpToProxy (redirect : Redirect InAddr) (now : ℕ) (port : Port) (p translated : TcpPacket InAddr)
      (h : (processClientToServerPacket redirect now p port).1 = some translated) :
      TranslationOf udp (.tcp p) (.tcp translated)
  | tcpToClient (redirect : Redirect InAddr) (now : ℕ) (p translated : TcpPacket InAddr)
      (h : (processServerToClientPacket redirect now p).1 = some translated) :
      TranslationOf udp (.tcp p) (.tcp translated)
  | udpToProxy (p : UdpPacket) (port : Port) : TranslationOf udp (.udp p) (.udp (udp.toProxy p port))
  | udpToClient (p : UdpPacket) : TranslationOf udp (.udp p) (.udp (udp.toClient p))

section Path
variable {cfg : Config} {udp : UdpTranslation} {uninitialized : ℕ → IntermediateBuffer Frame}

theorem filterPacket_onSend (seen : Seen) {buffer : IntermediateBuffer Frame}
    (h : buffer.mDwDeviceFlags = packetFlagOnSend) :
    filterPacket (setup cfg udp uninitialized) seen buffer =
      ((verdict cfg udp seen buffer.frame).1,
        { buffer with frame := (verdict cfg udp seen buffer.frame).2 }, seen) := by
  simp only [filterPacket, callHandler, setup, if_pos h, filterOutgoingPacket]

theorem filterPacket_other (seen : Seen) {buffer : IntermediateBuffer Frame}
    (h : buffer.mDwDeviceFlags ≠ packetFlagOnSend) :
    filterPacket (setup cfg udp uninitialized) seen buffer = (.pass, buffer, seen) := by
  simp only [filterPacket, callHandler, setup, if_neg h]

theorem verdict_pass {seen : Seen} {frame : Frame} (h : (verdict cfg udp seen frame).1 = .pass) :
    (verdict cfg udp seen frame).2 = frame := by
  cases frame with
  | tcp p =>
    simp only [verdict] at h ⊢
    cases hd : tcpDecision cfg seen false p <;> rw [hd] at h <;> first | rfl | cases h
  | udp p =>
    simp only [verdict] at h ⊢
    cases hd : filterUdpDecision cfg seen p <;> rw [hd] at h <;> first | rfl | cases h
  | other => rfl

def Translates (udp : UdpTranslation) (p : TcpPacket InAddr) : TcpDecision → Prop
  | .toClient translated | .toProxy translated => TranslationOf udp (.tcp p) (.tcp translated)
  | _ => True

theorem translates_redirectTcp (udp : UdpTranslation) (r : LocalRouter) (p : TcpPacket InAddr)
    (port : Port) : Translates udp p (redirectTcp r p port).1 := by
  simp only [redirectTcp]
  split
  · rename_i translated hsome
    exact .tcpToProxy r.tcpRedirect r.now port p translated hsome
  · trivial

theorem translates_routeTcp (r : LocalRouter) (p : TcpPacket InAddr)
    (process : ProcessTables.NetworkProcess) (port : Port) :
    Translates udp p (routeTcp cfg r p process port).1 := by
  unfold routeTcp
  split
  · split
    · trivial
    · exact translates_redirectTcp udp _ p port
  · exact translates_redirectTcp udp r p port

variable (cfg udp) in
theorem translates_tcpDecision (seen : Seen) (p : TcpPacket InAddr) :
    Translates udp p (tcpDecision cfg seen false p) := by
  unfold tcpDecision
  split
  · rename_i translated _ hsome
    exact .tcpToClient seen.replies.tcpRedirect seen.replies.now p translated hsome
  · unfold outgoingTcp
    split
    · trivial
    · dsimp only
      split
      · trivial
      · split
        · trivial
        · split
          · exact translates_routeTcp seen.redirect p _ _
          · trivial

theorem verdict_revert {seen : Seen} {frame : Frame} (h : (verdict cfg udp seen frame).1 = .revert) :
    TranslationOf udp frame (verdict cfg udp seen frame).2 := by
  cases frame with
  | tcp p =>
    have htranslates := translates_tcpDecision cfg udp seen p
    simp only [verdict] at h ⊢
    generalize tcpDecision cfg seen false p = decision at h htranslates
    cases decision with
    | toClient | toProxy => exact htranslates
    | queued | pass => cases h
  | udp p =>
    simp only [verdict] at h ⊢
    cases hd : filterUdpDecision cfg seen p with
    | toClient => exact .udpToClient p
    | toProxy port => exact .udpToProxy p port
    | queued | pass =>
      rw [hd] at h
      cases h
  | other => cases h

/-- Only outgoing packets go to the adapter, and only as they are. -/
theorem adapter_one (seen : Seen) (buffer : IntermediateBuffer Frame) :
    (goes .adapter ((wayOf (filterPacket (setup cfg udp uninitialized) seen buffer).2.1
      (filterPacket (setup cfg udp uninitialized) seen buffer).1).toList.map fun way =>
        (way, (filterPacket (setup cfg udp uninitialized) seen buffer).2.1))).Sublist [buffer] := by
  by_cases h : buffer.mDwDeviceFlags = packetFlagOnSend
  · rw [filterPacket_onSend seen h]
    cases ha : (verdict cfg udp seen buffer.frame).1 with
    | pass =>
      rw [verdict_pass ha]
      simp only [wayOf, if_pos h]
      exact List.Sublist.refl _
    | drop => simp [wayOf, goes]
    | revert => simp [wayOf, h, goes, packetFlagOnSend, packetFlagOnReceive]
  · rw [filterPacket_other seen h]
    simp [wayOf, h, goes]

theorem adapter_sublist (seen : Seen) (turns : List (Turn Seen Frame)) :
    (goes .adapter (sequential (setup cfg udp uninitialized) seen turns).2).Sublist (calls turns) := by
  induction turns generalizing seen with
  | nil => exact List.Sublist.refl []
  | cons turn turns ih =>
    cases turn with
    | event e => exact ih _
    | call buffer =>
      rw [sequential, goes_append]
      exact (adapter_one seen buffer).append (ih _)

/-- `b` is the incoming packet that was read, or what a redirect made of the outgoing one. -/
def Returned (udp : UdpTranslation) (buffer b : IntermediateBuffer Frame) : Prop :=
  b = buffer ∧ buffer.mDwDeviceFlags ≠ packetFlagOnSend ∨
    buffer.mDwDeviceFlags = packetFlagOnSend ∧
      ∃ frame, TranslationOf udp buffer.frame frame ∧ b = { buffer with frame := frame }

variable (cfg udp uninitialized) in
theorem mstcp_one (seen : Seen) (buffer : IntermediateBuffer Frame) :
    goes .mstcp ((wayOf (filterPacket (setup cfg udp uninitialized) seen buffer).2.1
      (filterPacket (setup cfg udp uninitialized) seen buffer).1).toList.map fun way =>
        (way, (filterPacket (setup cfg udp uninitialized) seen buffer).2.1)) = [] ∨
    ∃ b, goes .mstcp ((wayOf (filterPacket (setup cfg udp uninitialized) seen buffer).2.1
      (filterPacket (setup cfg udp uninitialized) seen buffer).1).toList.map fun way =>
        (way, (filterPacket (setup cfg udp uninitialized) seen buffer).2.1)) = [b] ∧
      Returned udp buffer b := by
  by_cases hflags : buffer.mDwDeviceFlags = packetFlagOnSend
  · rw [filterPacket_onSend seen hflags]
    cases ha : (verdict cfg udp seen buffer.frame).1 with
    | pass => exact .inl (by simp [wayOf, hflags, goes])
    | drop => exact .inl (by simp [wayOf, goes])
    | revert =>
      have hback : ¬ buffer.mDwDeviceFlags = packetFlagOnReceive := by
        rw [hflags]
        decide
      exact .inr ⟨_, by simp [wayOf, hback, goes], .inr ⟨hflags, _, verdict_revert ha, rfl⟩⟩
  · rw [filterPacket_other seen hflags]
    exact .inr ⟨buffer, by simp [wayOf, hflags, goes], .inl ⟨rfl, hflags⟩⟩

variable (cfg udp uninitialized) in
/-- What is given to the protocol stack are packets that were read, in that order, each of them
    returned as it came or translated. -/
theorem mstcp_returned (seen : Seen) (turns : List (Turn Seen Frame)) :
    ∃ read, read.Sublist (calls turns) ∧
      List.Forall₂ (Returned udp) read
        (goes .mstcp (sequential (setup cfg udp uninitialized) seen turns).2) := by
  induction turns generalizing seen with
  | nil => exact ⟨[], List.Sublist.refl _, .nil⟩
  | cons turn turns ih =>
    cases turn with
    | event e => exact ih _
    | call buffer =>
      rw [sequential, goes_append]
      obtain ⟨read, hread, hreturned⟩ :=
        ih (filterPacket (setup cfg udp uninitialized) seen buffer).2.2
      obtain hnone | ⟨b, hone, hb⟩ := mstcp_one cfg udp uninitialized seen buffer
      · rw [hnone]
        exact ⟨read, hread.cons buffer, hreturned⟩
      · rw [hone]
        exact ⟨buffer :: read, hread.cons_cons buffer, .cons hb hreturned⟩

end Path

/-- What the router's handler keeps to, whatever the other threads do to its tables: packets leave
    for the network unchanged and in the order they were read, and go to the protocol stack in that
    order, incoming ones as they came and outgoing ones translated. -/
structure KeepsToPackets (udp : UdpTranslation) (s : PacketFilter Seen Seen Frame) : Prop where
  inOrder : calls s.trace <+: s.delivered
  untouched : s.toAdapter.Sublist s.delivered
  returned : ∃ read, read.Sublist s.delivered ∧ List.Forall₂ (Returned udp) read s.toMstcp

theorem always_keepsToPackets (cfg : Config) (udp : UdpTranslation)
    (uninitialized : ℕ → IntermediateBuffer Frame) (seen : Seen) (labels : List (Label Seen Frame)) :
    Always (PacketQueues.step (setup cfg udp uninitialized)) (KeepsToPackets udp) (initial seen)
      labels := by
  refine always_mono (fun s h => ?_) (always_invariant (setup cfg udp uninitialized) seen labels)
  obtain ⟨-, hshown, hsent⟩ := h.asIfSequential
  obtain ⟨read, hread, hreturned⟩ := mstcp_returned cfg udp uninitialized s.origin s.trace
  refine ⟨hshown, ?_, read.take s.toMstcp.length, ?_, ?_⟩
  · exact ((hsent .adapter).sublist.trans (adapter_sublist s.origin s.trace)).trans hshown.sublist
  · exact ((List.take_sublist _ _).trans hread).trans hshown.sublist
  · have hgiven : s.toMstcp = List.take s.toMstcp.length
        (goes .mstcp (sequential (setup cfg udp uninitialized) s.origin s.trace).2) :=
      List.prefix_iff_eq_take.mp (hsent .mstcp)
    have htaken := List.forall₂_take s.toMstcp.length hreturned
    rwa [← hgiven] at htaken

end ProxySwitch.RouterFilter
