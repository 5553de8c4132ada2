import ProxySwitch.LocalUdpProxy

set_option autoImplicit false

namespace ProxySwitch.DatagramAttribution
open DestinationRules (InAddr)
open LocalUdpProxy TcpLocalRedirect TransitionRuns

structure Own (s : Server) (c : Completion) (socket : ℕ) : Prop where
  inTable : s.proxySockets c.sender.port = some socket
  madeFor : ∃ x, s.sockets[socket]? = some x ∧ x.localAddress.port = c.sender.port

/-- The datagram is dropped or forwarded once and unchanged; what is done with it is done
    through its own session, and nothing crashes. -/
structure AttributedTo (o : Outcome) (c : Completion) : Prop where
  processed : ∀ ptr, o.processed = some ptr → ∃ socket, ptr = some socket ∧ Own o.server c socket
  forwarded : o.sent = [] ∨ ∃ socket, Own o.server c socket ∧ o.sent = [(socket, c.bytes)]
  closed : ∀ socket ∈ o.closed, Own o.server c socket
  running : o.server.crashed = false

def Attributed (s : Server) : Event → Prop
  | .serverRead c => AttributedTo (serverRead s c) c
  | _ => True

/-- An empty datagram finds the session of its own port in the context, and the context of its
    send is allocated. -/
def EmptyFindsOwn (s : Server) : Event → Prop
  | .serverRead c => c.status = true → c.bytes = [] → c.contextAllocated = true ∧
      ∃ socket, s.proxySocketPtr = some socket ∧ s.proxySockets c.sender.port = some socket
  | _ => True

structure Inv (s : Server) : Prop where
  keyed : Keyed s
  noBuffer : s.wsaBuf = none
  running : s.reading = true → s.crashed = false

section Outcomes
variable {s : Server} {c : Completion} {o : Outcome}

theorem attributedTo_reading (h : AttributedTo o c) (reading : Bool) :
    AttributedTo { o with server := { o.server with reading := reading } } c :=
  { processed := fun ptr hptr =>
      let ⟨socket, heq, hown⟩ := h.processed ptr hptr
      ⟨socket, heq, ⟨hown.inTable, hown.madeFor⟩⟩
    forwarded := h.forwarded.imp_right fun ⟨socket, hown, hsent⟩ =>
      ⟨socket, ⟨hown.inTable, hown.madeFor⟩, hsent⟩
    closed := fun socket hmem =>
      let hown := h.closed socket hmem
      ⟨hown.inTable, hown.madeFor⟩
    running := h.running }

theorem attributedTo_postRead : AttributedTo (postRead c o) c ↔ AttributedTo o c :=
  ⟨fun h => attributedTo_reading h o.server.reading, fun h => attributedTo_reading h _⟩

theorem attributedTo_dropped (h : s.crashed = false) : AttributedTo ⟨s, none, [], []⟩ c :=
  ⟨nofun, .inl rfl, nofun, h⟩

theorem own_of_keyed (hkeyed : Keyed s) {socket : ℕ}
    (htable : s.proxySockets c.sender.port = some socket) : Own s c socket :=
  ⟨htable, hkeyed c.sender.port socket htable⟩

theorem attributedTo_process (hkeyed : Keyed s) (hrunning : s.crashed = false) {socket : ℕ}
    (htable : s.proxySockets c.sender.port = some socket)
    (hbuffer : s.wsaBuf = some c.bytes ∨ s.wsaBuf = none ∧ c.contextAllocated = true) :
    AttributedTo (processReceiveBufferComplete s c socket) c := by
  have hown : Own (s.touch socket) c socket := own_of_keyed (keyed_touch hkeyed socket) htable
  have hclosed : Own ((s.touch socket).closeClient socket) c socket :=
    own_of_keyed (keyed_closeClient (keyed_touch hkeyed socket) socket) htable
  unfold processReceiveBufferComplete
  rcases hbuffer with hbytes | ⟨hnone, hcontext⟩
  · simp only [touch_wsaBuf, hbytes]
    split
    · exact ⟨fun ptr hptr => ⟨socket, (Option.some.inj hptr).symm, hown.inTable, hown.madeFor⟩,
        .inl rfl, nofun, hrunning⟩
    · split
      · exact ⟨fun ptr hptr => ⟨socket, (Option.some.inj hptr).symm, hown.inTable, hown.madeFor⟩,
          .inr ⟨socket, ⟨hown.inTable, hown.madeFor⟩, rfl⟩, nofun, hrunning⟩
      · refine ⟨fun ptr hptr => ⟨socket, (Option.some.inj hptr).symm, hclosed.inTable,
          hclosed.madeFor⟩, .inl rfl, fun other hmem => ?_, hrunning⟩
        rw [List.mem_singleton.mp hmem]
        exact ⟨hclosed.inTable, hclosed.madeFor⟩
  · simp only [touch_wsaBuf, hnone, hcontext, if_true]
    refine ⟨fun ptr hptr => ⟨socket, (Option.some.inj hptr).symm, hclosed⟩, .inl rfl,
      fun other hmem => ?_, hrunning⟩
    rw [List.mem_singleton.mp hmem]
    exact hclosed

theorem attributedTo_dispatch (hkeyed : Keyed s) (hrunning : s.crashed = false) {socket : ℕ}
    (hptr : s.proxySocketPtr = some socket)
    (htable : s.proxySockets c.sender.port = some socket)
    (hbuffer : s.wsaBuf = some c.bytes ∨ s.wsaBuf = none ∧ c.contextAllocated = true) :
    AttributedTo (dispatch s c) c := by
  simp only [dispatch, hptr]
  exact attributedTo_process hkeyed hrunning htable hbuffer

/-- Without a buffer a datagram is processed through the pointer's session in any case, so it has
    to be the sender's own. -/
theorem of_attributedTo_dispatch (hnone : s.wsaBuf = none) (h : AttributedTo (dispatch s c) c) :
    c.contextAllocated = true ∧
      ∃ socket, s.proxySocketPtr = some socket ∧ s.proxySockets c.sender.port = some socket := by
  cases hptr : s.proxySocketPtr with
  | none =>
    simp only [dispatch, hptr] at h
    obtain ⟨socket, hsocket, -⟩ := h.processed none rfl
    cases hsocket
  | some socket =>
    simp only [dispatch, hptr, processReceiveBufferComplete, touch_wsaBuf, hnone] at h
    cases hcontext : c.contextAllocated with
    | false =>
      rw [hcontext] at h
      cases h.running
    | true =>
      rw [hcontext] at h
      obtain ⟨other, hother, hown⟩ := h.processed (some socket) rfl
      obtain rfl := Option.some.inj hother
      exact ⟨rfl, socket, rfl, hown.inTable⟩

theorem attributedTo_connected {next : Server} (hkeyed : Keyed s) (hrunning : s.crashed = false)
    (hconnect : connectToRemoteHost s c.sender c.setUp = some (true, next)) :
    AttributedTo (dispatch { next with wsaBuf := some c.bytes } c) c := by
  obtain ⟨socket, hptr, htable⟩ := connectToRemoteHost_ptr hconnect
  have hnext := keyed_connectToRemoteHost hkeyed hconnect
  have hcrashed := connectToRemoteHost_crashed hconnect
  exact attributedTo_dispatch (s := { next with wsaBuf := some c.bytes }) hnext
    (hcrashed.trans hrunning) hptr htable (.inl rfl)

structure Handled (s : Server) : Prop where
  keyed : Keyed s
  noBuffer : s.wsaBuf = none

theorem handled_process (h : Keyed s) (socket : ℕ) :
    Handled (processReceiveBufferComplete s c socket).server := by
  have htouched := keyed_touch h socket
  have hclosed := keyed_closeClient htouched socket
  unfold processReceiveBufferComplete
  cases hbuffer : s.wsaBuf with
  | some bytes =>
    simp only [touch_wsaBuf, hbuffer]
    split
    · exact ⟨htouched, rfl⟩
    · split
      · exact ⟨htouched, rfl⟩
      · exact ⟨hclosed, rfl⟩
  | none =>
    simp only [touch_wsaBuf, hbuffer]
    split
    · exact ⟨hclosed, hbuffer⟩
    · exact ⟨htouched, hbuffer⟩

theorem handled_dispatch (h : Keyed s) (hbuffer : s.wsaBuf = none ∨ s.proxySocketPtr ≠ none) :
    Handled (dispatch s c).server := by
  cases hptr : s.proxySocketPtr with
  | none =>
    simp only [dispatch, hptr]
    exact ⟨h, hbuffer.resolve_right fun hne => hne hptr⟩
  | some socket =>
    simp only [dispatch, hptr]
    exact handled_process h socket

theorem inv_postRead (h : Handled o.server) : Inv (postRead c o).server := by
  refine ⟨h.keyed, h.noBuffer, fun hreading => ?_⟩
  simp only [postRead, Bool.and_eq_true, Bool.not_eq_true'] at hreading
  exact hreading.2

theorem inv_serverRead (h : Inv s) : Inv (serverRead s c).server := by
  unfold serverRead
  dsimp only
  split
  · exact inv_postRead ⟨h.keyed, h.noBuffer⟩
  · split
    · exact inv_postRead
        (handled_dispatch (s := { s with reading := false }) h.keyed (.inl h.noBuffer))
    · cases hconnect : connectToRemoteHost { s with reading := false } c.sender c.setUp with
      | none => exact ⟨h.keyed, h.noBuffer, nofun⟩
      | some result =>
        obtain ⟨found, next⟩ := result
        have hkeyed : Keyed next :=
          keyed_connectToRemoteHost (s := { s with reading := false }) h.keyed hconnect
        have hbuffer := (connectToRemoteHost_frame hconnect).1.trans h.noBuffer
        cases found with
        | false => exact inv_postRead ⟨hkeyed, hbuffer⟩
        | true =>
          dsimp only
          split
          · obtain ⟨socket, hptr, -⟩ := connectToRemoteHost_ptr hconnect
            refine inv_postRead (handled_dispatch (s := { next with wsaBuf := some c.bytes })
              hkeyed (.inr ?_))
            exact ne_of_eq_of_ne hptr nofun
          · exact inv_postRead ⟨hkeyed, rfl⟩

end Outcomes

theorem attributed_iff {s t : Server} (h : Inv s) {e : Event} (hstep : step s e = some t) :
    Attributed s e ↔ EmptyFindsOwn s e := by
  cases e with
  | serverRead c =>
    have hreading : s.reading = true := by
      by_contra hnot
      simp only [step, hnot] at hstep
      cases hstep
    have hrunning := h.running hreading
    simp only [Attributed, EmptyFindsOwn, serverRead]
    cases hstatus : c.status with
    | false =>
      simp only [Bool.not_false, if_true, Bool.false_eq_true, false_implies, iff_true]
      exact attributedTo_postRead.mpr (attributedTo_dropped hrunning)
    | true =>
      simp only [Bool.not_true, Bool.false_eq_true, if_false, true_implies]
      by_cases hempty : c.bytes = []
      · rw [if_pos hempty, attributedTo_postRead]
        constructor
        · intro hattributed _
          exact of_attributedTo_dispatch (s := { s with reading := false }) h.noBuffer hattributed
        · intro hfinds
          obtain ⟨hcontext, socket, hptr, htable⟩ := hfinds hempty
          exact attributedTo_dispatch (s := { s with reading := false }) h.keyed hrunning hptr htable
            (.inr ⟨h.noBuffer, hcontext⟩)
      · rw [if_neg hempty]
        refine iff_of_true ?_ fun habsurd => absurd habsurd hempty
        cases hconnect : connectToRemoteHost { s with reading := false } c.sender c.setUp with
        | none => exact attributedTo_dropped hrunning
        | some result =>
          obtain ⟨found, next⟩ := result
          have hcrashed := connectToRemoteHost_crashed hconnect
          cases found with
          | false => exact attributedTo_postRead.mpr (attributedTo_dropped (hcrashed.trans hrunning))
          | true =>
            dsimp only
            split
            · exact attributedTo_postRead.mpr
                (attributedTo_connected (s := { s with reading := false }) h.keyed hrunning hconnect)
            · exact attributedTo_postRead.mpr (attributedTo_dropped (hcrashed.trans hrunning))
  | _ => exact iff_of_true trivial trivial

theorem inv_step {s t : Server} {e : Event} (h : Inv s) (hstep : step s e = some t) : Inv t := by
  cases e with
  | serverRead c =>
    simp only [step] at hstep
    split at hstep
    · obtain rfl := Option.some.inj hstep
      exact inv_serverRead h
    · cases hstep
  | remoteRead socket kept =>
    simp only [step] at hstep
    split at hstep
    · cases hstep
    · obtain rfl := Option.some.inj hstep
      unfold remoteRead
      split
      · exact ⟨keyed_touch h.keyed socket, h.noBuffer, h.running⟩
      · exact ⟨keyed_closeClient (keyed_touch h.keyed socket) socket, h.noBuffer, h.running⟩
  | clear =>
    simp only [step] at hstep
    split at hstep
    · cases hstep
    · obtain rfl := Option.some.inj hstep
      exact ⟨keyed_clear h.keyed, h.noBuffer, h.running⟩
  | tick elapsed =>
    obtain rfl := Option.some.inj hstep
    exact ⟨h.keyed, h.noBuffer, h.running⟩

theorem inv_start : Inv start := ⟨nofun, rfl, fun _ => rfl⟩

/-- Every datagram of a run is attributed to its own session precisely when every empty one finds
    that session in the context. -/
theorem meets_attributed_iff (events : List Event) :
    Meets step Attributed start events ↔ Meets step EmptyFindsOwn start events :=
  meets_congr_of_step (fun _ _ _ => inv_step) (fun _ _ _ h hstep => attributed_iff h hstep) events
    inv_start

/-- A client sends one byte and gets a session; an empty datagram from another port closes it. -/
theorem empty_datagram_closes_other : ¬∀ events, Meets step Attributed start events := by
  intro h
  have hrun := h [.serverRead ⟨true, ⟨10, 5000⟩, [7], .established true, true, true, true, true⟩,
    .serverRead ⟨true, ⟨10, 6000⟩, [], .established true, true, true, true, true⟩]
  obtain ⟨socket, -, hown⟩ := hrun.2.1.processed (some 0) rfl
  cases hown.inTable

end ProxySwitch.DatagramAttribution
