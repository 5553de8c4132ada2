import ProxySwitch.TcpRelay

set_option autoImplicit false

namespace ProxySwitch.RelayStream
open RingWindows TransitionRuns TcpRelay

/-! ## The handlers while both sockets are open -/

def startSend (d : Direction) (ioSize : ℕ) : Direction :=
  if d.sendBuf.len = 0 then (d.forward ioSize).postSend else d

def receiveMore (d : Direction) : Direction := if d.recvBuf.len ≠ 0 then d.postRecv else d

def afterReceive (d : Direction) (ioSize : ℕ) : Direction :=
  receiveMore ((startSend d ioSize).shiftRecv ioSize)

def receiveAgain (d : Direction) (ioSize : ℕ) : Direction :=
  if d.recvBuf.len = 0 then
    if 0 < ioSize then (d.reuseSent ioSize).postRecv else d.reuseSent ioSize
  else d

def sendMore (d : Direction) : Direction :=
  if d.sendBuf.buf = d.recvBuf.buf then { d with sendBuf := ⟨0, d.sendBuf.buf⟩ }
  else if d.remainingSend.sendBuf.len ≠ 0 then d.remainingSend.postSend else d.remainingSend

def afterSend (d : Direction) (ioSize : ℕ) : Direction :=
  sendMore ((receiveAgain d ioSize).advanceSend ioSize)

theorem update_congr {r : Relay} {isLocal : Bool} {f g : Direction → Direction}
    (h : f (r.relayFrom isLocal) = g (r.relayFrom isLocal)) :
    r.update isLocal f = r.update isLocal g := by
  unfold Relay.update
  rw [h]

theorem update_eq_self {r : Relay} {isLocal : Bool} {f : Direction → Direction}
    (h : f (r.relayFrom isLocal) = r.relayFrom isLocal) : r.update isLocal f = r := by
  unfold Relay.update
  rw [h, Function.update_eq_self]

section Established
variable {r : Relay} (hstatus : r.connectionStatus = .clientEstablished)
  (hopen : ∀ isLocal, r.socketOpen isLocal = true)

include hopen in
theorem wsaRecv_update (isLocal : Bool) (f : Direction → Direction) :
    wsaRecv (r.update isLocal f) isLocal = r.update isLocal fun d => (f d).postRecv := by
  rw [wsaRecv, update_socketOpen, if_pos (hopen _), update_update]

include hopen in
theorem wsaSend_update (isLocal : Bool) (f : Direction → Direction) :
    wsaSend (r.update (!isLocal) f) isLocal = r.update (!isLocal) fun d => (f d).postSend := by
  rw [wsaSend, update_socketOpen, if_pos (hopen _), update_update]

include hstatus hopen

theorem processReceiveBufferComplete_established (ioSize : ℕ) (isLocal : Bool) :
    processReceiveBufferComplete r ioSize isLocal =
      r.update isLocal fun d => afterReceive d ioSize := by
  have hstart : (if (r.relayFrom isLocal).sendBuf.len = 0 then
      wsaSend (r.update isLocal fun d => d.forward ioSize) (!isLocal) else r) =
      r.update isLocal fun d => startSend d ioSize := by
    split
    · rename_i hidle
      have hsend := wsaSend_update hopen (!isLocal) fun d => d.forward ioSize
      rw [Bool.not_not] at hsend
      exact hsend.trans (update_congr (by simp only [startSend, if_pos hidle]))
    · rename_i hbusy
      exact (update_eq_self (by simp only [startSend, if_neg hbusy])).symm
  simp only [processReceiveBufferComplete, hstatus, hstart, update_update, update_self]
  split
  · rename_i hmore
    rw [wsaRecv_update hopen]
    exact update_congr (by simp only [afterReceive, receiveMore, if_pos hmore])
  · rename_i hfull
    exact update_congr (by simp only [afterReceive, receiveMore, if_neg hfull])

theorem processSendBufferComplete_established (ioSize : ℕ) (isLocal : Bool) :
    processSendBufferComplete r ioSize isLocal =
      r.update (!isLocal) fun d => afterSend d ioSize := by
  have hagain : (if r.connectionStatus ≠ .clientCompleted ∧
        (r.relayFrom (!isLocal)).recvBuf.len = 0 then
      if 0 < ((r.relayFrom (!isLocal)).reuseSent ioSize).recvBuf.len then
        wsaRecv (r.update (!isLocal) fun d => d.reuseSent ioSize) (!isLocal)
      else r.update (!isLocal) fun d => d.reuseSent ioSize
    else r) = r.update (!isLocal) fun d => receiveAgain d ioSize := by
    split
    · rename_i hfull
      split
      · rename_i hpos
        rw [wsaRecv_update hopen]
        exact update_congr ((if_pos hfull.2).trans (if_pos hpos)).symm
      · rename_i hzero
        exact update_congr ((if_pos hfull.2).trans (if_neg hzero)).symm
    · rename_i hactive
      have hlen : (r.relayFrom (!isLocal)).recvBuf.len ≠ 0 := fun h =>
        hactive ⟨by rw [hstatus]; exact nofun, h⟩
      exact (update_eq_self (by simp only [receiveAgain, if_neg hlen])).symm
  simp only [processSendBufferComplete, update_self, hagain, update_update,
    update_connectionStatus]
  split
  · rename_i hcaught
    rw [if_neg (by rw [hstatus]; exact nofun), update_update]
    exact update_congr (by simp only [afterSend, sendMore, if_pos hcaught])
  · rename_i hleft
    split
    · rename_i hmore
      rw [wsaSend_update hopen]
      exact update_congr (by simp only [afterSend, sendMore, if_neg hleft, if_pos hmore])
    · rename_i hnone
      exact update_congr (by simp only [afterSend, sendMore, if_neg hleft, if_neg hnone])

end Established

/-! ## The window of unsent bytes -/

def unsent (d : Direction) (head count : ℕ) : List ℕ :=
  slots d.data sendReceiveBufferSize head count

/-- The send the kernel holds: the first part of the window, up to the buffer's end at most. -/
structure Sending (d : Direction) (head count : ℕ) (taken : List UInt8) : Prop where
  sends_eq : d.sends = [⟨d.sendBuf, taken⟩]
  buf_eq : d.sendBuf.buf = d.data + head
  len_pos : 0 < d.sendBuf.len
  len_le : d.sendBuf.len ≤ count
  len_fit : head + d.sendBuf.len ≤ sendReceiveBufferSize
  taken_le : taken.length ≤ d.sendBuf.len
  taken_eq : taken = ((unsent d head count).map d.memory).take taken.length
  handed_eq : d.handed = d.sent ++ taken

structure Idle (d : Direction) : Prop where
  sends_eq : d.sends = []
  len_eq : d.sendBuf.len = 0
  handed_eq : d.handed = d.sent

structure Streams (d : Direction) (head count : ℕ) : Prop where
  head_lt : head < sendReceiveBufferSize
  stored_length : d.stored.length = d.received.length
  stored_drop : d.stored.drop d.sent.length = unsent d head count
  received_eq : d.received = d.sent ++ (unsent d head count).map d.memory
  recv_buf : d.recvBuf.buf = d.data + wrap sendReceiveBufferSize (head + count)
  recv_fit : wrap sendReceiveBufferSize (head + count) + d.recvBuf.len ≤ sendReceiveBufferSize
  recv_free : d.recvBuf.len + count ≤ sendReceiveBufferSize
  recv_full : d.recvBuf.len = 0 → count = sendReceiveBufferSize
  recvs_eq : d.recvs = if d.recvBuf.len = 0 then [] else [d.recvBuf]
  sends : (count = 0 ∧ Idle d) ∨ ∃ taken, Sending d head count taken

theorem ulong_sub {a b : ℕ} (h : b ≤ a) (hlt : a < b + 4294967296) :
    ulong ((a : ℤ) - b) = a - b := by
  unfold ulong
  omega

theorem sendReceiveBufferSize_lt : sendReceiveBufferSize < 4294967296 := by decide

/-- Where the next receive goes: behind the longer window, up to the buffer's end or to the
    send pointer. -/
theorem shiftRecv_recvBuf (d : Direction) {head count : ℕ} (ioSize : ℕ)
    (hhead : head < sendReceiveBufferSize) (hsend : d.sendBuf.buf = d.data + head)
    (hrecv : d.recvBuf.buf = d.data + wrap sendReceiveBufferSize (head + count))
    (hfit : wrap sendReceiveBufferSize (head + count) + ioSize ≤ sendReceiveBufferSize)
    (hfree : ioSize + count ≤ sendReceiveBufferSize) (hpos : 0 < ioSize) :
    ∃ len, (d.shiftRecv ioSize).recvBuf =
        ⟨len, d.data + wrap sendReceiveBufferSize (head + (count + ioSize))⟩ ∧
      wrap sendReceiveBufferSize (head + (count + ioSize)) + len ≤ sendReceiveBufferSize ∧
      len + (count + ioSize) ≤ sendReceiveBufferSize ∧
      (len = 0 → count + ioSize = sendReceiveBufferSize) := by
  have hsize := sendReceiveBufferSize_lt
  have hold := wrap_cases sendReceiveBufferSize (head + count)
  rw [wrap_add_block hhead hfit hfree]
  simp only [Direction.shiftRecv, hsend, hrecv]
  generalize wrap sendReceiveBufferSize (head + count) = slot at hfit hold ⊢
  generalize sendReceiveBufferSize = size at *
  split
  · split
    · rw [if_neg (by omega)]
      refine ⟨_, congrArg₂ WSABUF.mk (ulong_sub (by omega) (by omega)) (by omega), ?_⟩
      omega
    · rw [if_pos (by omega)]
      refine ⟨_, congrArg₂ WSABUF.mk (ulong_sub (by omega) (by omega)) (by omega), ?_⟩
      omega
  · rw [if_neg (by omega)]
    refine ⟨_, congrArg₂ WSABUF.mk (ulong_sub (by omega) (by omega)) (by omega), ?_⟩
    omega

section Received
variable {d : Direction} {head count n : ℕ} (h : Streams d head count) (hpos : 0 < n)
  (hlen : n ≤ d.recvBuf.len) (hinbound : n ≤ d.inbound.length)

def arrived (d : Direction) (n : ℕ) : Direction :=
  { d with recvs := d.recvs.eraseIdx 0 }.takeIn d.recvBuf n

include h hlen hinbound in
theorem arrived_unsent : (unsent (arrived d n) head (count + n)).map (arrived d n).memory =
    (unsent d head count).map d.memory ++ d.inbound.take n := by
  have hblock : (d.inbound.take n).length = n := List.length_take_of_le hinbound
  have hfree := h.recv_free
  have hfit := h.recv_fit
  have hstore := map_slots_store d.data count d.memory (d.inbound.take n) h.head_lt (by omega)
    (by omega)
  rw [hblock, ← h.recv_buf] at hstore
  exact hstore

include h hpos hlen hinbound in
theorem startSend_arrived : ∃ buf ops taken,
    startSend (arrived d n) n = { arrived d n with sendBuf := buf, sends := ops } ∧
      Sending { arrived d n with sendBuf := buf, sends := ops } head (count + n) taken := by
  have hbytes := arrived_unsent h hlen hinbound
  have hfit := h.recv_fit
  rcases h.sends with ⟨hcount, hidle⟩ | ⟨taken, hsending⟩
  · subst hcount
    have hwrap := wrap_cases sendReceiveBufferSize (head + 0)
    have hhead := h.head_lt
    refine ⟨⟨n, d.recvBuf.buf⟩, [⟨⟨n, d.recvBuf.buf⟩, []⟩], [], ?_, ?_⟩
    · simp only [startSend, arrived, Direction.takeIn, hidle.len_eq, if_true, Direction.forward,
        Direction.postSend, hidle.sends_eq, List.nil_append]
    · refine ⟨rfl, ?_, hpos, by simp, ?_, Nat.zero_le _, rfl, ?_⟩
      · change d.recvBuf.buf = d.data + head
        rw [h.recv_buf]
        omega
      · change head + n ≤ sendReceiveBufferSize
        omega
      · change d.handed = d.sent ++ []
        rw [hidle.handed_eq, List.append_nil]
  · refine ⟨d.sendBuf, d.sends, taken, ?_, ?_⟩
    · exact if_neg (Nat.pos_iff_ne_zero.mp hsending.len_pos)
    · have hle := hsending.len_le
      refine ⟨hsending.sends_eq, hsending.buf_eq, hsending.len_pos, Nat.le_add_right_of_le hle,
        hsending.len_fit, hsending.taken_le, ?_, hsending.handed_eq⟩
      have htaken := hsending.taken_le
      refine Eq.trans ?_ (congrArg (List.take taken.length) hbytes.symm)
      rw [List.take_append_of_le_length (by simp [unsent]; omega)]
      exact hsending.taken_eq

include h hpos hlen hinbound in
theorem streams_afterReceive : Streams (afterReceive (arrived d n) n) head (count + n) := by
  obtain ⟨buf, ops, taken, hstart, hsending⟩ := startSend_arrived h hpos hlen hinbound
  have hfit := h.recv_fit
  have hfree := h.recv_free
  obtain ⟨len, hbuf, hfit', hfree', hfull'⟩ :=
    shiftRecv_recvBuf { arrived d n with sendBuf := buf, sends := ops } n
      h.head_lt hsending.buf_eq h.recv_buf (by omega) (by omega) hpos
  have hrecvs : d.recvs.eraseIdx 0 = [] := by
    rw [h.recvs_eq, if_neg (by omega)]
    rfl
  have hafter : afterReceive (arrived d n) n =
      { arrived d n with
        sendBuf := buf, sends := ops
        recvBuf := ⟨len, d.data + wrap sendReceiveBufferSize (head + (count + n))⟩
        recvs := if len = 0 then []
          else [⟨len, d.data + wrap sendReceiveBufferSize (head + (count + n))⟩] } := by
    have hshift : ∀ d : Direction, d.shiftRecv n = { d with recvBuf := (d.shiftRecv n).recvBuf } :=
      fun _ => rfl
    rw [afterReceive, hstart, hshift, hbuf]
    unfold receiveMore
    by_cases hlen : len = 0
    · simp only [hlen, arrived, Direction.takeIn, hrecvs, if_true, ne_eq, not_true, if_false]
    · simp only [hlen, arrived, Direction.takeIn, Direction.postRecv, hrecvs, if_false, ne_eq,
        not_false_eq_true, if_true, List.nil_append]
  rw [hafter]
  refine ⟨h.head_lt, ?_, ?_, ?_, rfl, hfit', hfree', hfull', rfl, .inr ⟨taken, ?_⟩⟩
  · change (d.stored ++ _).length = (d.received ++ _).length
    simp [h.stored_length, hinbound]
  · have hsent : d.sent.length ≤ d.stored.length := by
      rw [h.stored_length, h.received_eq]
      simp
    have hblock : slots d.data sendReceiveBufferSize
        (wrap sendReceiveBufferSize (head + count)) n =
        (List.range n).map fun i => d.recvBuf.buf + i := by
      rw [slots_eq_range (by omega), h.recv_buf]
    change (d.stored ++ _).drop d.sent.length = slots d.data _ _ _
    rw [slots_add h.head_lt (by omega), hblock, List.drop_append_of_le_length hsent, h.stored_drop]
    rfl
  · change d.received ++ _ = d.sent ++ _
    rw [h.received_eq, List.append_assoc]
    exact congrArg (d.sent ++ ·) (arrived_unsent h hlen hinbound).symm
  · exact ⟨hsending.1, hsending.2, hsending.3, hsending.4, hsending.5, hsending.6, hsending.7,
      hsending.8⟩

end Received

section Sent
variable {d : Direction} {head count : ℕ} {taken : List UInt8} (h : Streams d head count)
  (hsending : Sending d head count taken)

def departed (d : Direction) (taken : List UInt8) : Direction :=
  { d with sends := d.sends.eraseIdx 0, sent := d.sent ++ taken }

include h hsending

theorem unsent_departed : unsent d head count =
    unsent d head taken.length ++
      unsent d (wrap sendReceiveBufferSize (head + taken.length)) (count - taken.length) := by
  have htaken := hsending.taken_le
  have hlen := hsending.len_le
  have hfree := h.recv_free
  have hsplit : count = taken.length + (count - taken.length) := by omega
  conv_lhs => rw [hsplit]
  exact slots_add h.head_lt (by omega)

theorem taken_eq_unsent : taken = (unsent d head taken.length).map d.memory := by
  have hprefix := hsending.taken_eq
  rw [unsent_departed h hsending, List.map_append, List.take_left' (by simp [unsent])] at hprefix
  exact hprefix

variable (hpos : 0 < taken.length)
include hpos

theorem receiveAgain_departed : ∃ buf,
    receiveAgain (departed d taken) taken.length =
        { departed d taken with recvBuf := buf, recvs := [buf] } ∧
      buf.buf = d.data + wrap sendReceiveBufferSize (head + count) ∧
      wrap sendReceiveBufferSize (head + count) + buf.len ≤ sendReceiveBufferSize ∧
      buf.len + (count - taken.length) ≤ sendReceiveBufferSize ∧ buf.len ≠ 0 := by
  have hhead := h.head_lt
  have hfree := h.recv_free
  have htaken := hsending.taken_le
  have hlen := hsending.len_le
  have hfit := hsending.len_fit
  have hrecvs := h.recvs_eq
  have hwrap := wrap_cases sendReceiveBufferSize (head + count)
  by_cases hfull : d.recvBuf.len = 0
  · have hcount := h.recv_full hfull
    refine ⟨⟨taken.length, d.sendBuf.buf⟩, ?_, ?_, ?_, ?_, Nat.ne_of_gt hpos⟩
    · rw [if_pos hfull] at hrecvs
      simp only [receiveAgain, departed, hfull, if_true, if_pos hpos, Direction.reuseSent,
        Direction.postRecv, hrecvs, List.nil_append]
    · have hbuf := hsending.buf_eq
      simp only
      omega
    · simp only
      omega
    · simp only
      omega
  · refine ⟨d.recvBuf, ?_, h.recv_buf, h.recv_fit, by omega, hfull⟩
    rw [if_neg hfull] at hrecvs
    rw [← hrecvs]
    exact if_neg hfull

omit hpos in
theorem streams_departed {recvBuf sendBuf : WSABUF} {ops : List Send}
    (hbuf : recvBuf.buf = d.data + wrap sendReceiveBufferSize (head + count))
    (hfit : wrap sendReceiveBufferSize (head + count) + recvBuf.len ≤ sendReceiveBufferSize)
    (hfree : recvBuf.len + (count - taken.length) ≤ sendReceiveBufferSize)
    (hactive : recvBuf.len ≠ 0)
    (hsends : let d' := { departed d taken with
        recvBuf := recvBuf, recvs := [recvBuf], sendBuf := sendBuf, sends := ops }
      (count - taken.length = 0 ∧ Idle d') ∨ ∃ next,
        Sending d' (wrap sendReceiveBufferSize (head + taken.length)) (count - taken.length) next) :
    Streams { departed d taken with
        recvBuf := recvBuf, recvs := [recvBuf], sendBuf := sendBuf, sends := ops }
      (wrap sendReceiveBufferSize (head + taken.length)) (count - taken.length) := by
  have hhead := h.head_lt
  have htaken := hsending.taken_le
  have hlen := hsending.len_le
  have hold := h.recv_free
  have hend : wrap sendReceiveBufferSize
      (wrap sendReceiveBufferSize (head + taken.length) + (count - taken.length)) =
      wrap sendReceiveBufferSize (head + count) := by
    rw [wrap_wrap_add (by omega)]
    congr 1
    omega
  have hsplit := unsent_departed h hsending
  refine ⟨wrap_lt (by omega), h.stored_length, ?_, ?_, hend ▸ hbuf, hend ▸ hfit, hfree,
    fun hzero => absurd hzero hactive, (if_neg hactive).symm, hsends⟩
  · change d.stored.drop (d.sent ++ taken).length = unsent d _ _
    rw [List.length_append, ← List.drop_drop, h.stored_drop, hsplit, List.drop_left' (by simp [unsent])]
  · change d.received = (d.sent ++ taken) ++ (unsent d _ _).map d.memory
    rw [h.received_eq, hsplit, List.map_append, ← taken_eq_unsent h hsending, List.append_assoc]

theorem remainingSend_departed {buf : WSABUF}
    (hbuf : buf.buf = d.data + wrap sendReceiveBufferSize (head + count))
    (hleft : d.data + wrap sendReceiveBufferSize (head + taken.length) ≠ buf.buf) : ∃ len,
    ({ departed d taken with
        recvBuf := buf, recvs := [buf]
        sendBuf := ⟨d.sendBuf.len, d.data + wrap sendReceiveBufferSize (head + taken.length)⟩
      } : Direction).remainingSend =
      { departed d taken with
        recvBuf := buf, recvs := [buf]
        sendBuf := ⟨len, d.data + wrap sendReceiveBufferSize (head + taken.length)⟩ } ∧
      0 < len ∧ len ≤ count - taken.length ∧
      wrap sendReceiveBufferSize (head + taken.length) + len ≤ sendReceiveBufferSize := by
  have hsize := sendReceiveBufferSize_lt
  have hhead := h.head_lt
  have hfree := h.recv_free
  have htaken := hsending.taken_le
  have hlen := hsending.len_le
  have hcut := wrap_cases sendReceiveBufferSize (head + taken.length)
  have hend := wrap_cases sendReceiveBufferSize (head + count)
  have hdata : (departed d taken).data = d.data := rfl
  simp only [Direction.remainingSend, hbuf, hdata] at hleft ⊢
  split
  · refine ⟨_, rfl, ?_⟩
    rw [ulong_sub (by omega) (by omega)]
    omega
  · refine ⟨_, rfl, ?_⟩
    rw [ulong_sub (by omega) (by omega)]
    omega

theorem streams_afterSend : Streams (afterSend (departed d taken) taken.length)
    (wrap sendReceiveBufferSize (head + taken.length)) (count - taken.length) := by
  obtain ⟨buf, hagain, hbuf, hfit, hfree, hactive⟩ := receiveAgain_departed h hsending hpos
  have hhead := h.head_lt
  have hlenFit := hsending.len_fit
  have htaken := hsending.taken_le
  have hcut := wrap_cases sendReceiveBufferSize (head + taken.length)
  have hadvance : ({ departed d taken with recvBuf := buf, recvs := [buf] } : Direction).advanceSend
      taken.length = { departed d taken with
        recvBuf := buf, recvs := [buf]
        sendBuf := ⟨d.sendBuf.len,
          d.data + wrap sendReceiveBufferSize (head + taken.length)⟩ } := by
    have hptr : (if d.data + head + taken.length = d.data + sendReceiveBufferSize then d.data
        else d.data + head + taken.length) =
        d.data + wrap sendReceiveBufferSize (head + taken.length) := by
      split <;> omega
    simp only [Direction.advanceSend, departed, hsending.buf_eq, hptr]
  rw [afterSend, hagain, hadvance]
  unfold sendMore
  split
  · rename_i hcaught
    have hend := wrap_cases sendReceiveBufferSize (head + count)
    have hfreeOld := h.recv_free
    have hlen := hsending.len_le
    have hempty : count - taken.length = 0 := by
      simp only [hbuf] at hcaught
      omega
    refine streams_departed h hsending hbuf hfit hfree hactive (.inl ⟨hempty, ?_, rfl, ?_⟩)
    · exact congrArg (List.eraseIdx · 0) hsending.sends_eq
    · exact hsending.handed_eq
  · rename_i hleft
    obtain ⟨len, hremaining, hlen, hle, hlast⟩ := remainingSend_departed h hsending hpos hbuf hleft
    rw [hremaining, if_pos (Nat.ne_of_gt hlen)]
    refine streams_departed h hsending hbuf hfit hfree hactive (.inr ⟨[], ?_⟩)
    refine ⟨?_, rfl, hlen, hle, hlast, Nat.zero_le _, rfl, ?_⟩
    · change d.sends.eraseIdx 0 ++ _ = _
      rw [hsending.sends_eq]
      rfl
    · exact hsending.handed_eq.trans (List.append_nil _).symm

end Sent

section Kernel
variable {d : Direction} {head count : ℕ} (h : Streams d head count)
include h

theorem recvs_singleton {index : ℕ} {op : WSABUF} (hop : d.recvs[index]? = some op) :
    index = 0 ∧ op = d.recvBuf ∧ d.recvs = [d.recvBuf] := by
  rw [h.recvs_eq] at hop ⊢
  split at hop
  · simp at hop
  · rename_i hactive
    rw [if_neg hactive]
    obtain ⟨hindex, hop⟩ := List.getElem?_eq_some_iff.mp hop
    obtain rfl : index = 0 := by simpa using hindex
    exact ⟨rfl, hop.symm, rfl⟩

theorem sends_singleton {index : ℕ} {op : Send} (hop : d.sends[index]? = some op) :
    index = 0 ∧ op = ⟨d.sendBuf, op.taken⟩ ∧ Sending d head count op.taken := by
  rcases h.sends with ⟨-, hidle⟩ | ⟨taken, hsending⟩
  · simp [hidle.sends_eq] at hop
  · have hsends := hsending.sends_eq
    rw [hsends] at hop
    obtain ⟨hindex, hop⟩ := List.getElem?_eq_some_iff.mp hop
    obtain rfl : index = 0 := by simpa using hindex
    obtain rfl : (⟨d.sendBuf, taken⟩ : Send) = op := hop
    exact ⟨rfl, rfl, hsending⟩

theorem streams_write {index offset : ℕ} {op : WSABUF} {byte : UInt8}
    (hop : d.recvs[index]? = some op) (hoffset : offset < op.len) :
    Streams { d with memory := store d.memory (op.buf + offset) [byte] } head count := by
  obtain ⟨-, rfl, -⟩ := recvs_singleton h hop
  have hmap : (unsent d head count).map (store d.memory (d.recvBuf.buf + offset) [byte]) =
      (unsent d head count).map d.memory := by
    rw [h.recv_buf]
    exact map_slots_store_free hoffset h.recv_free
  refine ⟨h.head_lt, h.stored_length, h.stored_drop, ?_, h.recv_buf, h.recv_fit, h.recv_free,
    h.recv_full, h.recvs_eq, ?_⟩
  · exact h.received_eq.trans (congrArg (d.sent ++ ·) hmap.symm)
  · rcases h.sends with ⟨hcount, hidle⟩ | ⟨taken, hsending⟩
    · exact .inl ⟨hcount, hidle.1, hidle.2, hidle.3⟩
    · refine .inr ⟨taken, hsending.1, hsending.2, hsending.3, hsending.4, hsending.5, hsending.6, ?_,
        hsending.8⟩
      exact hsending.taken_eq.trans (congrArg (List.take _) hmap.symm)

/-- The kernel reads the next byte of the window, whenever it does. -/
theorem streams_readNext {index : ℕ} {op : Send} (hop : d.sends[index]? = some op)
    (hleft : op.taken.length < op.wsaBuf.len) : Streams (d.readNext index op) head count := by
  obtain ⟨rfl, heq, hsending⟩ := sends_singleton h hop
  rw [heq] at hleft ⊢
  generalize op.taken = taken at hsending hleft ⊢
  have hlen := hsending.len_le
  have hfit := hsending.len_fit
  refine ⟨h.head_lt, h.stored_length, h.stored_drop, h.received_eq, h.recv_buf, h.recv_fit,
    h.recv_free, h.recv_full, h.recvs_eq, .inr ⟨taken ++ [d.memory (d.sendBuf.buf + taken.length)],
      ?_, hsending.buf_eq, hsending.len_pos, hsending.len_le, hsending.len_fit, ?_, ?_, ?_⟩⟩
  · change d.sends.set 0 _ = _
    rw [hsending.sends_eq]
    rfl
  · simp only [List.length_append, List.length_singleton]
    exact hleft
  · have hbyte : ((unsent d head count).map d.memory)[taken.length]? =
        some (d.memory (d.sendBuf.buf + taken.length)) := by
      simp only at hleft
      rw [hsending.buf_eq, List.getElem?_map, unsent, slots, List.getElem?_map,
        List.getElem?_range (by omega)]
      have hwrap := wrap_cases sendReceiveBufferSize (head + taken.length)
      simp only [Option.map_some, Option.some.injEq]
      congr 1
      omega
    change taken ++ _ = ((unsent d head count).map d.memory).take _
    rw [List.length_append, List.length_singleton, List.take_add_one, hbyte, ← hsending.taken_eq]
    rfl
  · change d.handed ++ _ = d.sent ++ _
    rw [hsending.handed_eq, List.append_assoc]

end Kernel

/-! ## Runs of the relay -/

inductive Move (d : Direction) : Direction → Prop
  | start (h : d.started = false) : Move d { d with started := true }.postRecv
  | endpointSend (bytes : List UInt8) : Move d { d with inbound := d.inbound ++ bytes }
  | endpointFinish : Move d { d with finished := true }
  | kernelWrite {index offset : ℕ} {op : WSABUF} (byte : UInt8) (hop : d.recvs[index]? = some op)
      (hoffset : offset < op.len) :
      Move d { d with memory := store d.memory (op.buf + offset) [byte] }
  | kernelRead {index : ℕ} {op : Send} (hop : d.sends[index]? = some op)
      (hleft : op.taken.length < op.wsaBuf.len) : Move d (d.readNext index op)
  | receive {index n : ℕ} {op : WSABUF} (hop : d.recvs[index]? = some op) (hpos : 0 < n)
      (hlen : n ≤ op.len) (hinbound : n ≤ d.inbound.length) :
      Move d (afterReceive ({ d with recvs := d.recvs.eraseIdx index }.takeIn op n) n)
  | send {index : ℕ} {op : Send} (hop : d.sends[index]? = some op) (hpos : op.taken ≠ []) :
      Move d (afterSend
        { d with sends := d.sends.eraseIdx index, sent := d.sent ++ op.taken } op.taken.length)

structure Unstarted (d : Direction) : Prop where
  started : d.started = false
  recvBuf : d.recvBuf = ⟨sendReceiveBufferSize, d.data⟩
  sendBuf : d.sendBuf.len = 0
  recvs : d.recvs = []
  sends : d.sends = []
  stored : d.stored = []
  received : d.received = []
  handed : d.handed = []
  sent : d.sent = []

def Carries (d : Direction) : Prop :=
  Unstarted d ∨ d.started = true ∧ ∃ head count, Streams d head count

theorem afterReceive_started (d : Direction) (n : ℕ) : (afterReceive d n).started = d.started := by
  unfold afterReceive receiveMore startSend
  split <;> split <;> rfl

theorem afterSend_started (d : Direction) (n : ℕ) : (afterSend d n).started = d.started := by
  unfold afterSend sendMore receiveAgain
  grind [Direction.advanceSend, Direction.remainingSend, Direction.postSend, Direction.postRecv,
    Direction.reuseSent]

theorem streams_start {d : Direction} (h : Unstarted d) :
    Streams { d with started := true }.postRecv 0 0 := by
  have hsize : 0 < sendReceiveBufferSize := by decide
  have hwrap := wrap_cases sendReceiveBufferSize (0 + 0)
  have hlen : d.recvBuf.len = sendReceiveBufferSize := congrArg WSABUF.len h.recvBuf
  have hbuf : d.recvBuf.buf = d.data := congrArg WSABUF.buf h.recvBuf
  refine ⟨hsize, ?_, ?_, ?_, ?_, ?_, ?_, ?_, ?_, .inl ⟨rfl, h.sends, h.sendBuf, ?_⟩⟩
  · exact (congrArg List.length h.stored).trans (congrArg List.length h.received).symm
  · change d.stored.drop _ = []
    rw [h.stored, List.drop_nil]
  · change d.received = d.sent ++ []
    rw [h.received, h.sent, List.append_nil]
  · change d.recvBuf.buf = d.data + _
    omega
  · change _ + d.recvBuf.len ≤ _
    omega
  · exact Nat.le_of_eq hlen
  · intro hzero
    exact absurd (hlen.symm.trans hzero) (Nat.ne_of_gt hsize)
  · change d.recvs ++ [d.recvBuf] = if d.recvBuf.len = 0 then [] else [d.recvBuf]
    rw [h.recvs, if_neg (by omega), List.nil_append]
  · exact h.handed.trans h.sent.symm

theorem carries_move {d d' : Direction} (h : Carries d) (hmove : Move d d') : Carries d' := by
  rcases h with h | ⟨hstarted, head, count, h⟩
  · cases hmove with
    | start _ => exact .inr ⟨rfl, 0, 0, streams_start h⟩
    | endpointSend bytes => exact .inl ⟨h.1, h.2, h.3, h.4, h.5, h.6, h.7, h.8, h.9⟩
    | endpointFinish => exact .inl ⟨h.1, h.2, h.3, h.4, h.5, h.6, h.7, h.8, h.9⟩
    | kernelWrite byte hop _ => simp [h.recvs] at hop
    | kernelRead hop _ => simp [h.sends] at hop
    | receive hop _ _ _ => simp [h.recvs] at hop
    | send hop _ => simp [h.sends] at hop
  · cases hmove with
    | start hfresh => simp [hstarted] at hfresh
    | endpointSend bytes =>
      refine .inr ⟨hstarted, head, count, h.1, h.2, h.3, h.4, h.5, h.6, h.7, h.8, h.9, ?_⟩
      exact h.sends.imp (fun ⟨hcount, hidle⟩ => ⟨hcount, hidle.1, hidle.2, hidle.3⟩)
        fun ⟨taken, hs⟩ => ⟨taken, hs.1, hs.2, hs.3, hs.4, hs.5, hs.6, hs.7, hs.8⟩
    | endpointFinish =>
      refine .inr ⟨hstarted, head, count, h.1, h.2, h.3, h.4, h.5, h.6, h.7, h.8, h.9, ?_⟩
      exact h.sends.imp (fun ⟨hcount, hidle⟩ => ⟨hcount, hidle.1, hidle.2, hidle.3⟩)
        fun ⟨taken, hs⟩ => ⟨taken, hs.1, hs.2, hs.3, hs.4, hs.5, hs.6, hs.7, hs.8⟩
    | kernelWrite byte hop hoffset =>
      exact .inr ⟨hstarted, head, count, streams_write h hop hoffset⟩
    | kernelRead hop hleft => exact .inr ⟨hstarted, head, count, streams_readNext h hop hleft⟩
    | receive hop hpos hlen hinbound =>
      obtain ⟨rfl, rfl, -⟩ := recvs_singleton h hop
      exact .inr ⟨(afterReceive_started _ _).trans hstarted, head, _,
        streams_afterReceive h hpos hlen hinbound⟩
    | send hop hpos =>
      obtain ⟨rfl, heq, hsending⟩ := sends_singleton h hop
      exact .inr ⟨(afterSend_started _ _).trans hstarted, _, _,
        streams_afterSend h hsending (List.length_pos_iff.mpr hpos)⟩

/-- The events that close the session: an endpoint's end of data is received, or the idle
    session is cleaned up. -/
def closes : Event → Bool
  | .receiveComplete _ _ numBytes => numBytes = 0
  | .idleCleanup => true
  | _ => false

structure Established (r : Relay) : Prop where
  status : r.connectionStatus = .clientEstablished
  opened : ∀ isLocal, r.socketOpen isLocal = true
  carries : ∀ isLocal, Carries (r.relayFrom isLocal)

structure Closed (r : Relay) : Prop where
  status : r.connectionStatus = .clientCompleted
  closed : ∀ isLocal, r.socketOpen isLocal = false

theorem established_update {r : Relay} {isLocal : Bool} {f : Direction → Direction}
    (h : Established r) (hmove : Move (r.relayFrom isLocal) (f (r.relayFrom isLocal))) :
    Established (r.update isLocal f) := by
  refine ⟨h.status, h.opened, fun other => ?_⟩
  by_cases hother : other = isLocal
  · rw [hother, update_self]
    exact carries_move (h.carries isLocal) hmove
  · rw [update_of_ne _ _ _ hother]
    exact h.carries other

theorem closed_closeClient {r : Relay} (isReceive isLocal : Bool)
    (h : r.socketOpen isLocal = true ∨ Closed r) : Closed (closeClient r isReceive isLocal) := by
  have hsockets : ∀ side, (closeClient r isReceive isLocal).socketOpen side = false := by
    intro side
    unfold closeClient
    cases hopen : r.socketOpen isLocal <;> cases isReceive <;> cases isLocal <;> cases side <;>
      simp [hopen, Function.update]
  refine ⟨?_, hsockets⟩
  rcases h with hopen | hclosed
  · unfold closeClient
    rw [hopen]
    cases isReceive <;> rfl
  · unfold closeClient
    rw [hclosed.closed]
    cases isReceive <;> exact hclosed.status

/-- An event that does not close an established relay moves one direction. -/
theorem step_established {r r' : Relay} {e : Event} (h : Established r)
    (hstep : step r e = some r') (hclose : closes e = false) :
    ∃ isLocal f, r' = r.update isLocal f ∧
      Move (r.relayFrom isLocal) (f (r.relayFrom isLocal)) := by
  cases e with
  | startDataRelay isLocal =>
    obtain ⟨⟨hfresh, -⟩, ⟨⟩⟩ := Option.ite_none_right_eq_some.mp hstep
    exact ⟨isLocal, _, wsaRecv_update h.opened isLocal _, .start hfresh⟩
  | endpointSend isLocal bytes =>
    obtain ⟨-, ⟨⟩⟩ := Option.ite_none_left_eq_some.mp hstep
    exact ⟨isLocal, _, rfl, .endpointSend bytes⟩
  | endpointFinish isLocal =>
    obtain rfl := Option.some.inj hstep
    exact ⟨isLocal, _, rfl, .endpointFinish⟩
  | kernelWrite isLocal index offset byte =>
    simp only [step] at hstep
    split at hstep
    · rename_i op hop
      obtain ⟨hoffset, ⟨⟩⟩ := Option.ite_none_right_eq_some.mp hstep
      exact ⟨isLocal, _, rfl, .kernelWrite byte hop hoffset⟩
    · cases hstep
  | kernelRead isLocal index =>
    simp only [step] at hstep
    split at hstep
    · rename_i op hop
      obtain ⟨⟨-, hleft⟩, ⟨⟩⟩ := Option.ite_none_right_eq_some.mp hstep
      exact ⟨!isLocal, _, rfl, .kernelRead hop hleft⟩
    · cases hstep
  | receiveComplete isLocal index numBytes =>
    have hpos : numBytes ≠ 0 := by simpa [closes] using hclose
    simp only [step] at hstep
    split at hstep
    · rename_i op hop
      obtain ⟨⟨hlen, hinbound, -⟩, ⟨⟩⟩ := Option.ite_none_right_eq_some.mp hstep
      have hreceive : receiveComplete r isLocal index numBytes op = r.update isLocal fun d =>
          afterReceive ({ d with recvs := d.recvs.eraseIdx index }.takeIn op numBytes) numBytes := by
        rw [receiveComplete, if_neg hpos, update_update,
          processReceiveBufferComplete_established (r := r.update isLocal _) h.status h.opened,
          update_update]
      exact ⟨isLocal, _, hreceive, .receive hop (Nat.pos_of_ne_zero hpos) hlen hinbound⟩
    · cases hstep
  | sendComplete isLocal index =>
    simp only [step] at hstep
    split at hstep
    · rename_i op hop
      obtain ⟨htaken, ⟨⟩⟩ := Option.ite_none_right_eq_some.mp hstep
      have hsend : sendComplete r isLocal index op = r.update (!isLocal) fun d =>
          afterSend { d with sends := d.sends.eraseIdx index, sent := d.sent ++ op.taken }
            op.taken.length := by
        rw [sendComplete,
          processSendBufferComplete_established (r := r.update (!isLocal) _) h.status h.opened,
          update_update]
      exact ⟨!isLocal, _, hsend, .send hop htaken⟩
    · cases hstep
  | receiveFailed isLocal index =>
    simp only [step, h.opened, if_true] at hstep
    split at hstep <;> cases hstep
  | sendFailed isLocal index =>
    simp only [step, h.opened, if_true] at hstep
    split at hstep <;> cases hstep
  | idleCleanup => cases hclose

theorem step_closes {r r' : Relay} {e : Event} (h : Established r) (hstep : step r e = some r')
    (hclose : closes e = true) : Closed r' := by
  cases e with
  | receiveComplete isLocal index numBytes =>
    obtain rfl : numBytes = 0 := by simpa [closes] using hclose
    simp only [step] at hstep
    split at hstep
    · obtain ⟨-, ⟨⟩⟩ := Option.ite_none_right_eq_some.mp hstep
      exact closed_closeClient _ _ (.inl (h.opened _))
    · cases hstep
  | idleCleanup =>
    obtain ⟨-, ⟨⟩⟩ := Option.ite_none_right_eq_some.mp hstep
    exact closed_closeClient _ _ (.inr (closed_closeClient _ _ (.inl (h.opened _))))
  | _ => cases hclose

theorem closed_update {r : Relay} {isLocal : Bool} {f : Direction → Direction} (h : Closed r) :
    Closed (r.update isLocal f) := ⟨h.status, h.closed⟩

theorem closed_processReceive {r : Relay} (h : Closed r) (ioSize : ℕ) (isLocal : Bool) :
    Closed (processReceiveBufferComplete r ioSize isLocal) := by
  unfold processReceiveBufferComplete
  rw [h.status]
  exact closed_update h

theorem closed_processSend {r : Relay} (h : Closed r) (ioSize : ℕ) (isLocal : Bool) :
    Closed (processSendBufferComplete r ioSize isLocal) := by
  have hfailed : ∀ {r : Relay} {isReceive isLocal : Bool}, Closed r →
      Closed (closeClient r isReceive isLocal) := fun h => closed_closeClient _ _ (.inr h)
  simp only [processSendBufferComplete, h.status, ne_eq, not_true, false_and, if_false,
    update_connectionStatus, if_true]
  split
  · exact closed_update (hfailed (closed_update h))
  · split
    · rw [wsaSend, if_neg (by simp [h.closed])]
      exact hfailed (closed_update (closed_update h))
    · exact closed_update (closed_update h)

inductive ClosedStep (r : Relay) : Event → Relay → Prop
  | startDataRelay (isLocal : Bool) :
      ClosedStep r (.startDataRelay isLocal)
        (closeClient (r.update isLocal fun d => { d with started := true }) true isLocal)
  | endpointSend (isLocal : Bool) (bytes : List UInt8) :
      ClosedStep r (.endpointSend isLocal bytes)
        (r.update isLocal fun d => { d with inbound := d.inbound ++ bytes })
  | endpointFinish (isLocal : Bool) :
      ClosedStep r (.endpointFinish isLocal) (r.update isLocal fun d => { d with finished := true })
  | kernelWrite (isLocal : Bool) (index offset : ℕ) (byte : UInt8) (op : WSABUF) :
      ClosedStep r (.kernelWrite isLocal index offset byte)
        (r.update isLocal fun d => { d with memory := store d.memory (op.buf + offset) [byte] })
  | receiveComplete (isLocal : Bool) (index numBytes : ℕ) (op : WSABUF) :
      ClosedStep r (.receiveComplete isLocal index numBytes)
        (receiveComplete r isLocal index numBytes op)
  | sendComplete (isLocal : Bool) (index : ℕ) (op : Send) :
      ClosedStep r (.sendComplete isLocal index) (sendComplete r isLocal index op)
  | receiveFailed (isLocal : Bool) (index : ℕ) :
      ClosedStep r (.receiveFailed isLocal index)
        (closeClient (r.update isLocal fun d => { d with recvs := d.recvs.eraseIdx index })
          true isLocal)
  | sendFailed (isLocal : Bool) (index : ℕ) :
      ClosedStep r (.sendFailed isLocal index)
        (closeClient (r.update (!isLocal) fun d => { d with sends := d.sends.eraseIdx index })
          false isLocal)

theorem closedStep_of_step {r r' : Relay} {e : Event} (h : Closed r)
    (hstep : step r e = some r') : ClosedStep r e r' := by
  cases e with
  | startDataRelay isLocal =>
    obtain ⟨-, ⟨⟩⟩ := Option.ite_none_right_eq_some.mp hstep
    rw [wsaRecv, if_neg (by simp [h.closed])]
    exact .startDataRelay isLocal
  | endpointSend isLocal bytes =>
    obtain ⟨-, ⟨⟩⟩ := Option.ite_none_left_eq_some.mp hstep
    exact .endpointSend isLocal bytes
  | endpointFinish isLocal =>
    obtain rfl := Option.some.inj hstep
    exact .endpointFinish isLocal
  | kernelWrite isLocal index offset byte =>
    simp only [step] at hstep
    split at hstep
    · obtain ⟨-, ⟨⟩⟩ := Option.ite_none_right_eq_some.mp hstep
      exact .kernelWrite isLocal index offset byte _
    · cases hstep
  | kernelRead isLocal index =>
    simp only [step, h.closed] at hstep
    split at hstep <;> simp at hstep
  | receiveComplete isLocal index numBytes =>
    simp only [step] at hstep
    split at hstep
    · obtain ⟨-, ⟨⟩⟩ := Option.ite_none_right_eq_some.mp hstep
      exact .receiveComplete isLocal index numBytes _
    · cases hstep
  | sendComplete isLocal index =>
    simp only [step] at hstep
    split at hstep
    · obtain ⟨-, ⟨⟩⟩ := Option.ite_none_right_eq_some.mp hstep
      exact .sendComplete isLocal index _
    · cases hstep
  | receiveFailed isLocal index =>
    simp only [step, h.closed] at hstep
    split at hstep
    · obtain rfl := Option.some.inj hstep
      exact .receiveFailed isLocal index
    · cases hstep
  | sendFailed isLocal index =>
    simp only [step, h.closed] at hstep
    split at hstep
    · obtain rfl := Option.some.inj hstep
      exact .sendFailed isLocal index
    · cases hstep
  | idleCleanup => simp [step, h.closed] at hstep

/-- A closed session stays closed: what still completes touches its buffers only. -/
theorem closed_step {r r' : Relay} {e : Event} (h : Closed r) (hstep : step r e = some r') :
    Closed r' := by
  have hfailed : ∀ {r : Relay} {isReceive isLocal : Bool}, Closed r →
      Closed (closeClient r isReceive isLocal) := fun h => closed_closeClient _ _ (.inr h)
  cases closedStep_of_step h hstep with
  | startDataRelay isLocal => exact hfailed (closed_update h)
  | endpointSend isLocal bytes => exact closed_update h
  | endpointFinish isLocal => exact closed_update h
  | kernelWrite isLocal index offset byte op => exact closed_update h
  | receiveComplete isLocal index numBytes op =>
    unfold receiveComplete
    split
    · exact hfailed ⟨h.status, h.closed⟩
    · exact closed_processReceive (closed_update (closed_update h)) _ _
  | sendComplete isLocal index op => exact closed_processSend (closed_update h) _ _
  | receiveFailed isLocal index => exact hfailed (closed_update h)
  | sendFailed isLocal index => exact hfailed (closed_update h)

theorem established_start (data : Bool → ℕ) (memory : Bool → ℕ → UInt8) :
    Established (established data memory) where
  status := rfl
  opened := fun _ => rfl
  carries := fun _ => .inl ⟨rfl, rfl, rfl, rfl, rfl, rfl, rfl, rfl, rfl⟩

end ProxySwitch.RelayStream
