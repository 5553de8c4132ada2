import ProxySwitch.RelayStream

set_option autoImplicit false

namespace ProxySwitch.OrderlyClose
open TransitionRuns TcpRelay RelayStream

def Delivered (d : Direction) : Prop := d.handed = d.received ++ d.inbound

instance (d : Direction) : Decidable (Delivered d) :=
  inferInstanceAs (Decidable (_ = _))

/-- Once an endpoint's end of data was handled, nothing of either endpoint is undelivered:
    not what came before, nor what the other one still sends. -/
def LosesNothing (r : Relay) : Prop := r.ended = true → ∀ isLocal, Delivered (r.relayFrom isLocal)

/-- The bytes between the send pointer and the receive pointer of a ring that is not empty. -/
def buffered (d : Direction) : ℕ :=
  if d.sendBuf.buf < d.recvBuf.buf then d.recvBuf.buf - d.sendBuf.buf
  else sendReceiveBufferSize - (d.sendBuf.buf - d.recvBuf.buf)

/-- Nothing waits in the socket, and the send in progress, if there is one, has been read to
    the end of what the ring holds. -/
def Drained (d : Direction) : Prop :=
  d.inbound = [] ∧ (d.sendBuf.len = 0 ∨ ∃ op ∈ d.sends, op.taken.length = buffered d)

instance (d : Direction) : Decidable (Drained d) :=
  inferInstanceAs (Decidable (_ ∧ _))

/-- An end of data is handled in an established session only when both directions are
    drained, and no endpoint sends afterwards. -/
def EndsDrained (r : Relay) : Event → Prop
  | .receiveComplete _ _ numBytes => numBytes = 0 → r.connectionStatus = .clientEstablished →
      Drained (r.relayFrom true) ∧ Drained (r.relayFrom false)
  | .endpointSend _ bytes => r.ended = true → bytes = []
  | _ => True

instance (r : Relay) : (e : Event) → Decidable (EndsDrained r e)
  | .receiveComplete _ _ numBytes =>
    inferInstanceAs (Decidable (numBytes = 0 → _ → _ ∧ _))
  | .endpointSend _ bytes => inferInstanceAs (Decidable (_ → bytes = []))
  | .startDataRelay _ | .endpointFinish _ | .kernelWrite .. | .kernelRead .. | .sendComplete ..
  | .receiveFailed .. | .sendFailed .. | .idleCleanup => isTrue trivial

def SameStream (d d' : Direction) : Prop :=
  d'.handed = d.handed ∧ d'.received ++ d'.inbound = d.received ++ d.inbound

theorem delivered_congr {d d' : Direction} (h : SameStream d d') : Delivered d' ↔ Delivered d := by
  unfold Delivered
  rw [h.1, h.2]

theorem buffered_eq {d : Direction} {head count : ℕ} {taken : List UInt8}
    (h : Streams d head count) (hsending : Sending d head count taken) : buffered d = count := by
  have hlen := hsending.len_pos
  have hle := hsending.len_le
  have hfree := h.recv_free
  have hhead := h.head_lt
  have hwrap := RingWindows.wrap_cases sendReceiveBufferSize (head + count)
  unfold buffered
  rw [h.recv_buf, hsending.buf_eq]
  split <;> omega

theorem delivered_iff_drained {d : Direction} (h : Carries d) : Delivered d ↔ Drained d := by
  rcases h with h | ⟨-, head, count, h⟩
  · unfold Delivered Drained
    rw [h.handed, h.received, h.sendBuf]
    simp [eq_comm]
  · have hreceived := h.received_eq
    rcases h.sends with ⟨hcount, hidle⟩ | ⟨taken, hsending⟩
    · subst hcount
      unfold Delivered Drained
      rw [hidle.handed_eq, hreceived, hidle.len_eq]
      simp [unsent]
    · have hlength : ((unsent d head count).map d.memory).length = count := by simp [unsent]
      have hprefix : taken <+: (unsent d head count).map d.memory :=
        hsending.taken_eq ▸ List.take_prefix _ _
      unfold Delivered Drained
      rw [hsending.handed_eq, hreceived, hsending.sends_eq, buffered_eq h hsending,
        List.append_assoc, List.append_right_inj]
      constructor
      · intro heq
        have hlen := congrArg List.length heq
        have hle := hprefix.length_le
        rw [List.length_append] at hlen
        exact ⟨List.length_eq_zero_iff.mp (by omega), .inr ⟨_, List.mem_singleton_self _, by
          simp only
          omega⟩⟩
      · rintro ⟨hinbound, hsent | ⟨op, hop, hcount⟩⟩
        · exact absurd hsent (Nat.ne_of_gt hsending.len_pos)
        · obtain rfl := List.mem_singleton.mp hop
          rw [hinbound, List.append_nil]
          exact hprefix.eq_of_length (by rw [hlength]; exact hcount)

/-! ## What leaves the streams as they are -/

def Frame (r r' : Relay) : Prop :=
  r'.ended = r.ended ∧ ∀ isLocal, SameStream (r.relayFrom isLocal) (r'.relayFrom isLocal)

theorem Frame.trans {r s t : Relay} (h : Frame r s) (h' : Frame s t) : Frame r t :=
  ⟨h'.1.trans h.1, fun isLocal =>
    ⟨(h'.2 isLocal).1.trans (h.2 isLocal).1, (h'.2 isLocal).2.trans (h.2 isLocal).2⟩⟩

theorem frame_update {r : Relay} {isLocal : Bool} {f : Direction → Direction}
    (h : SameStream (r.relayFrom isLocal) (f (r.relayFrom isLocal))) :
    Frame r (r.update isLocal f) := by
  refine ⟨rfl, fun other => ?_⟩
  by_cases hother : other = isLocal
  · rw [hother, update_self]
    exact h
  · rw [update_of_ne _ _ _ hother]
    exact ⟨rfl, rfl⟩

theorem frame_closeClient (r : Relay) (isReceive isLocal : Bool) :
    Frame r (closeClient r isReceive isLocal) := by
  have hreset : ∀ r : Relay, Frame r (if isReceive then
      r.update isLocal fun d => { d with recvBuf := ⟨0, d.recvBuf.buf⟩ }
      else r.update (!isLocal) fun d => { d with sendBuf := ⟨0, d.sendBuf.buf⟩ }) := by
    intro r
    split
    · exact frame_update ⟨rfl, rfl⟩
    · exact frame_update ⟨rfl, rfl⟩
  unfold closeClient
  split
  · exact hreset _
  · exact hreset _

theorem delivered_takeIn (d : Direction) (op : WSABUF) (n : ℕ) : SameStream d (d.takeIn op n) := by
  refine ⟨rfl, ?_⟩
  change (d.received ++ d.inbound.take n) ++ d.inbound.drop n = _
  rw [List.append_assoc, List.take_append_drop]

section Closed
variable {r : Relay} (h : Closed r)
include h

theorem frame_processReceive (ioSize : ℕ) (isLocal : Bool) :
    Frame r (processReceiveBufferComplete r ioSize isLocal) := by
  unfold processReceiveBufferComplete
  rw [h.status]
  exact frame_update ⟨rfl, rfl⟩

theorem frame_processSend (ioSize : ℕ) (isLocal : Bool) :
    Frame r (processSendBufferComplete r ioSize isLocal) := by
  have hadvance : Frame r (r.update (!isLocal) fun d => d.advanceSend ioSize) :=
    frame_update ⟨rfl, rfl⟩
  have hremaining : Frame r ((r.update (!isLocal) fun d => d.advanceSend ioSize).update (!isLocal)
      Direction.remainingSend) := hadvance.trans (frame_update ⟨rfl, rfl⟩)
  simp only [processSendBufferComplete, h.status, ne_eq, not_true, false_and, if_false,
    update_connectionStatus, if_true]
  split
  · exact (hadvance.trans (frame_closeClient ..)).trans (frame_update ⟨rfl, rfl⟩)
  · split
    · rw [wsaSend, if_neg (by simp [h.closed])]
      exact hremaining.trans (frame_closeClient ..)
    · exact hremaining

/-- After the sockets are closed only an endpoint's sending changes what was sent or delivered. -/
theorem frame_step {r' : Relay} {e : Event} (hstep : step r e = some r')
    (he : ∀ isLocal bytes, e ≠ .endpointSend isLocal bytes) : Frame r r' := by
  cases closedStep_of_step h hstep with
  | startDataRelay isLocal => exact (frame_update ⟨rfl, rfl⟩).trans (frame_closeClient ..)
  | endpointSend isLocal bytes => exact absurd rfl (he isLocal bytes)
  | endpointFinish isLocal => exact frame_update ⟨rfl, rfl⟩
  | kernelWrite isLocal index offset byte op => exact frame_update ⟨rfl, rfl⟩
  | receiveComplete isLocal index numBytes op =>
    unfold receiveComplete
    split
    · have hended : (r.ended || decide (r.connectionStatus = .clientEstablished)) = r.ended := by
        simp [h.status]
      have hmoved : Frame r (r.update isLocal fun d =>
        { d with recvs := d.recvs.eraseIdx index }) := frame_update ⟨rfl, rfl⟩
      have hmarked : Frame r { r.update isLocal (fun d =>
          { d with recvs := d.recvs.eraseIdx index }) with
            ended := r.ended || decide (r.connectionStatus = .clientEstablished) } :=
        ⟨hended, hmoved.2⟩
      exact hmarked.trans (frame_closeClient ..)
    · exact (frame_update ⟨rfl, rfl⟩).trans ((frame_update (delivered_takeIn ..)).trans
        (frame_processReceive (closed_update (closed_update h)) _ _))
  | sendComplete isLocal index op =>
    exact (frame_update ⟨rfl, rfl⟩).trans (frame_processSend (closed_update h) _ _)
  | receiveFailed isLocal index => exact (frame_update ⟨rfl, rfl⟩).trans (frame_closeClient ..)
  | sendFailed isLocal index => exact (frame_update ⟨rfl, rfl⟩).trans (frame_closeClient ..)

end Closed

/-! ## Runs -/

def Reached (r : Relay) : Prop := (Established r ∧ r.ended = false) ∨ Closed r

theorem losesNothing_of_frame {r r' : Relay} (h : Frame r r') (hr : LosesNothing r) :
    LosesNothing r' := fun hended isLocal =>
  (delivered_congr (h.2 isLocal)).mpr (hr (h.1.symm.trans hended) isLocal)

theorem losesNothing_closed_iff {r r' : Relay} {e : Event} (h : Closed r) (hr : LosesNothing r)
    (hstep : step r e = some r') : LosesNothing r' ↔ EndsDrained r e := by
  have hother : (∀ isLocal bytes, e ≠ .endpointSend isLocal bytes) → LosesNothing r' :=
    fun he => losesNothing_of_frame (frame_step h hstep he) hr
  cases e with
  | endpointSend isLocal bytes =>
    obtain ⟨-, ⟨⟩⟩ := Option.ite_none_left_eq_some.mp hstep
    constructor
    · intro hr' hended
      have hold : Delivered (r.relayFrom isLocal) := hr hended isLocal
      have hnew := hr' hended isLocal
      rw [update_self] at hnew
      unfold Delivered at hold hnew
      simp only [hold, List.append_right_inj, List.self_eq_append_right] at hnew
      exact hnew
    · intro hnone hended side
      obtain rfl := hnone hended
      exact (delivered_congr ((frame_update ⟨rfl, by simp⟩).2 side)).mpr (hr hended side)
  | receiveComplete isLocal index numBytes =>
    refine iff_of_true (hother nofun) fun _ hstatus => ?_
    rw [h.status] at hstatus
    cases hstatus
  | _ => exact iff_of_true (hother nofun) trivial

theorem losesNothing_of_not_ended {r : Relay} (h : r.ended = false) : LosesNothing r :=
  fun hended => absurd hended (by simp [h])

theorem losesNothing_endOfData {r : Relay} (h : Established r) (isLocal : Bool) (index : ℕ)
    (op : WSABUF) : LosesNothing (receiveComplete r isLocal index 0 op) ↔
      Drained (r.relayFrom true) ∧ Drained (r.relayFrom false) := by
  have hmoved : Frame r (r.update isLocal fun d => { d with recvs := d.recvs.eraseIdx index }) :=
    frame_update ⟨rfl, rfl⟩
  have hclosed := frame_closeClient { r.update isLocal (fun d =>
    { d with recvs := d.recvs.eraseIdx index }) with
      ended := r.ended || decide (r.connectionStatus = .clientEstablished) } true isLocal
  have hended : (receiveComplete r isLocal index 0 op).ended = true :=
    hclosed.1.trans (by simp [h.status])
  have hdelivered : ∀ side, Delivered ((receiveComplete r isLocal index 0 op).relayFrom side) ↔
      Drained (r.relayFrom side) := fun side =>
    (delivered_congr (hclosed.2 side)).trans ((delivered_congr (hmoved.2 side)).trans
      (delivered_iff_drained (h.carries side)))
  constructor
  · intro hr
    exact ⟨(hdelivered true).mp (hr hended true), (hdelivered false).mp (hr hended false)⟩
  · rintro ⟨htrue, hfalse⟩ - side
    cases side with
    | true => exact (hdelivered true).mpr htrue
    | false => exact (hdelivered false).mpr hfalse

theorem losesNothing_established_iff {r r' : Relay} {e : Event} (h : Established r)
    (hended : r.ended = false) (hstep : step r e = some r') :
    LosesNothing r' ↔ EndsDrained r e := by
  cases hclose : closes e with
  | false =>
    obtain ⟨isLocal, f, rfl, -⟩ := step_established h hstep hclose
    refine iff_of_true (losesNothing_of_not_ended hended) ?_
    cases e with
    | endpointSend isLocal bytes => exact fun h => absurd h (by simp [hended])
    | receiveComplete isLocal index numBytes =>
      exact fun hzero => absurd hzero (by simpa [closes] using hclose)
    | _ => trivial
  | true =>
    cases e with
    | receiveComplete isLocal index numBytes =>
      obtain rfl : numBytes = 0 := by simpa [closes] using hclose
      simp only [step] at hstep
      split at hstep
      · rename_i op _
        obtain ⟨-, ⟨⟩⟩ := Option.ite_none_right_eq_some.mp hstep
        rw [losesNothing_endOfData h]
        exact ⟨fun hdrained _ _ => hdrained, fun hdrained => hdrained rfl h.status⟩
      · cases hstep
    | idleCleanup =>
      obtain ⟨-, ⟨⟩⟩ := Option.ite_none_right_eq_some.mp hstep
      refine iff_of_true (losesNothing_of_not_ended ?_) trivial
      exact ((frame_closeClient ..).trans (frame_closeClient ..)).1.trans hended
    | _ => cases hclose

theorem reached_step {r r' : Relay} {e : Event} (h : Reached r) (hstep : step r e = some r') :
    Reached r' := by
  rcases h with ⟨h, hended⟩ | h
  · cases hclose : closes e with
    | false =>
      obtain ⟨isLocal, f, rfl, hmove⟩ := step_established h hstep hclose
      exact .inl ⟨established_update h hmove, hended⟩
    | true => exact .inr (step_closes h hstep hclose)
  · exact .inr (closed_step h hstep)

/-- An orderly close loses nothing precisely when it comes with nothing left to relay. -/
theorem losesNothing_iff (data : Bool → ℕ) (memory : Bool → ℕ → UInt8) (events : List Event) :
    Always step LosesNothing (established data memory) events ↔
      Meets step EndsDrained (established data memory) events := by
  refine always_iff_meets (I := Reached) (fun _ _ _ h hstep => reached_step h hstep) ?_ events
    (.inl ⟨established_start data memory, rfl⟩) (fun hended => absurd hended (by simp [established]))
  rintro r e r' (⟨h, hended⟩ | h) hr hstep
  · exact losesNothing_established_iff h hended hstep
  · exact losesNothing_closed_iff h hr hstep

/-- The server's two bytes are in the ring, posted to the client, when the server's end of
    data completes: both sockets are closed and the client gets nothing. -/
theorem response_truncated :
    ¬ ∀ (data : Bool → ℕ) (memory : Bool → ℕ → UInt8) (events : List Event),
      Always step LosesNothing (established data memory) events := by
  intro h
  have hrun := (always_iff_reached _ _).mp (h (fun _ => 4096) (fun _ _ => 0)
    [.startDataRelay true, .startDataRelay false, .endpointSend false [72, 105],
      .receiveComplete false 0 2, .endpointFinish false, .receiveComplete false 0 0])
    _ [] _ (List.append_nil _).symm rfl
  have hdelivered := hrun rfl false
  revert hdelivered
  decide

end ProxySwitch.OrderlyClose
