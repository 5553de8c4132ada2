import ProxySwitch.IpcRecovery

set_option autoImplicit false

namespace ProxySwitch.IpcSessionClosure
open SessionRouteServer hiding Event step
open RouterPidRoutes SessionRouteIsolation IpcRecovery TaskPools TransitionRuns

variable (sid : SessionId)

structure Clear (s : Shared) : Prop where
  closed : s.record sid = none
  unrouted : ∀ pid e, s.traced.server.router.pidToProxy pid = some e →
    s.traced.lastAdd pid ≠ some sid.text

def StaysClosed (w : World) : Prop := w.shared.ended = true → w.tasks = [] → Clear sid w.shared

/-- The task sends a `closeSession`, whichever way it goes. -/
def owesClose : Code → Bool
  | .send request ok notFound failed =>
    request == .closeSession || owesClose ok && owesClose notFound && owesClose failed
  | .choose a b | .ifEnded a b | .ifTracked _ a b => owesClose a && owesClose b
  | .spawn task next => owesClose task || owesClose next
  | .setEnded _ next | .track _ next | .enterGate next | .leaveGate next | .snapshot next =>
    owesClose next
  | .replay _ next => owesClose next
  | .done => false

def Listed (s : Shared) : Prop :=
  ∀ pid e, s.traced.server.router.pidToProxy pid = some e → s.traced.lastAdd pid = some sid.text →
    ∃ state, s.record sid = some state ∧ pid ∈ state.pids

/-- In an ended session for which no other task still sends a `closeSession`, no `createSession`
    is accepted, and a `closeSession` reaches the server and finds every route listed. -/
def ClosesLast (w : World) : Event → Prop
  | .start _ | .change _ => True
  | .run index choice =>
    ∀ code ∈ w.tasks[index]?, w.shared.ended = true →
      (∀ other ∈ w.others index, owesClose other = false) →
        match code.request with
        | some .createSession => choice.delivery = .answered →
            (doCreateSession w.shared.traced.server sid.text choice.endpoint).2.success = false
        | some .closeSession =>
            (choice.delivery = .lost → Clear sid w.shared) ∧
            (choice.delivery = .answered → Listed sid w.shared)
        | _ => True

/-- An assignment that ends the session is followed by a `closeSession`. -/
def closesAtEnd : Code → Bool
  | .send _ ok notFound failed => closesAtEnd ok && closesAtEnd notFound && closesAtEnd failed
  | .choose a b | .ifEnded a b | .ifTracked _ a b | .spawn a b => closesAtEnd a && closesAtEnd b
  | .setEnded ended next => closesAtEnd next && (!ended || owesClose next)
  | .track _ next | .enterGate next | .leaveGate next | .snapshot next => closesAtEnd next
  | .replay _ next => closesAtEnd next
  | .done => true

structure Inv (w : World) : Prop where
  sealed : ∀ code ∈ w.tasks, closesAtEnd code = true
  owed : w.shared.ended = true → (∃ code ∈ w.tasks, owesClose code = true) ∨ Clear sid w.shared

variable {sid}

theorem staysClosed_of_inv {w : World} (hw : Inv sid w) : StaysClosed sid w := by
  intro hended hdone
  rcases hw.owed hended with ⟨code, hcode, _⟩ | hclear
  · rw [hdone] at hcode
    cases hcode
  · exact hclear

theorem closesAtEnd_addPid (pid : DWORD) {ok failed : Code} (hok : closesAtEnd ok = true)
    (hfailed : closesAtEnd failed = true) :
    closesAtEnd (addPidToIpcSessionAsync pid ok failed) = true := by
  simp [addPidToIpcSessionAsync, recreateIpcSessionAndReplayAsync, closesAtEnd, hok, hfailed]

theorem closesAtEnd_addRootPid (root : Option DWORD) : closesAtEnd (addRootPid root) = true := by
  cases root with
  | none => rfl
  | some pid => exact closesAtEnd_addPid pid rfl rfl

theorem closesAtEnd_attachCandidates (root : Option DWORD) (candidates : List DWORD) :
    closesAtEnd (attachCandidates root candidates) = true := by
  induction candidates with
  | nil => rfl
  | cons pid rest ih =>
    have hattach : closesAtEnd (addPidToIpcSessionAsync pid
        (.track pid (attachCandidates root rest)) (attachCandidates root rest)) = true :=
      closesAtEnd_addPid pid ih ih
    simp only [attachCandidates]
    split
    · simp [closesAtEnd, ih, hattach]
    · exact hattach

theorem closesAtEnd_entry (handler : Handler) : closesAtEnd handler.code = true := by
  cases handler with
  | startIpcRouting root =>
    simp [Handler.code, startIpcRoutingForSession, closesAtEnd, closesAtEnd_addRootPid]
  | launchTarget root candidates =>
    simp [Handler.code, launchTargetRouting, discoverStoreAppProcessesAsync, closesAtEnd,
      closesAtEnd_addRootPid, closesAtEnd_attachCandidates]
  | discoverStoreAppProcesses root candidates =>
    simp [Handler.code, discoverStoreAppProcessesAsync, closesAtEnd, closesAtEnd_attachCandidates]
  | processFound pid =>
    have hadd : closesAtEnd (addPidToIpcSessionAsync pid .done .done) = true :=
      closesAtEnd_addPid pid rfl rfl
    simpa [Handler.code, onProcess, closesAtEnd] using hadd
  | _ => rfl

section Turns
variable {w : World} {code : Code} {choice : Choice} {next : Shared × List Code}

theorem closesAtEnd_children (h : closesAtEnd code = true) :
    ∀ c ∈ code.children, closesAtEnd c = true := by
  intro c hc
  cases code with
  | done => cases hc
  | send request ok notFound failed =>
    simp only [closesAtEnd, Bool.and_eq_true] at h
    simp only [Code.children, List.mem_cons, List.not_mem_nil, or_false] at hc
    rcases hc with rfl | rfl | rfl
    · exact h.1.1
    · exact h.1.2
    · exact h.2
  | choose a b | ifEnded a b | ifTracked _ a b | spawn a b =>
    simp only [closesAtEnd, Bool.and_eq_true] at h
    simp only [Code.children, List.mem_cons, List.not_mem_nil, or_false] at hc
    rcases hc with rfl | rfl
    · exact h.1
    · exact h.2
  | setEnded ended rest =>
    obtain rfl := List.mem_singleton.mp hc
    simp only [closesAtEnd, Bool.and_eq_true] at h
    exact h.1
  | _ => obtain rfl := List.mem_singleton.mp hc; exact h

theorem closesAtEnd_turn (hturn : turn sid w code choice = some next)
    (h : closesAtEnd code = true) : ∀ c ∈ next.2, closesAtEnd c = true := by
  have hchildren := closesAtEnd_children h
  apply forall_turn hturn hchildren
  · intro pids c hc
    exact hchildren c hc
  · intro request _ _
    rfl

theorem owesClose_children (hspawn : ∀ task rest, code ≠ .spawn task rest)
    (hrequest : code.request ≠ some .closeSession) (h : owesClose code = true) :
    ∀ c ∈ code.children, owesClose c = true := by
  intro c hc
  cases code with
  | done => cases hc
  | spawn task rest => exact absurd rfl (hspawn task rest)
  | send request ok notFound failed =>
    have hother : (request == .closeSession) = false := by
      cases request with
      | closeSession => exact absurd rfl hrequest
      | _ => rfl
    simp only [owesClose, hother, Bool.false_or, Bool.and_eq_true] at h
    simp only [Code.children, List.mem_cons, List.not_mem_nil, or_false] at hc
    rcases hc with rfl | rfl | rfl
    · exact h.1.1
    · exact h.1.2
    · exact h.2
  | choose a b | ifEnded a b | ifTracked _ a b =>
    simp only [owesClose, Bool.and_eq_true] at h
    simp only [Code.children, List.mem_cons, List.not_mem_nil, or_false] at hc
    rcases hc with rfl | rfl
    · exact h.1
    · exact h.2
  | _ => obtain rfl := List.mem_singleton.mp hc; exact h

/-- A `closeSession` stays owed until the turn that sends it. -/
theorem owesClose_turn (hturn : turn sid w code choice = some next)
    (hrequest : code.request ≠ some .closeSession) (h : owesClose code = true) :
    ∃ c ∈ next.2, owesClose c = true := by
  by_cases hspawn : ∃ task rest, code = .spawn task rest
  · obtain ⟨task, rest, rfl⟩ := hspawn
    obtain rfl := Option.some.inj hturn
    simpa [owesClose, or_comm] using h
  · have hchildren := owesClose_children (fun task rest hs => hspawn ⟨task, rest, hs⟩) hrequest h
    have hdone : code ≠ .done := by
      rintro rfl
      cases h
    obtain ⟨c, rest, hnext, hc, _⟩ := turn_next hturn hdone
    refine ⟨c, hnext ▸ List.mem_cons_self, ?_⟩
    rcases hc with hchild | ⟨pids, after, hafter, rfl, _⟩
    · exact hchildren c hchild
    · exact hchildren after hafter

theorem clear_transmit {s : Shared} {request : Request} (h : Clear sid s)
    (hcreate : request = .createSession → choice.delivery = .answered →
      (doCreateSession s.traced.server sid.text choice.endpoint).2.success = false) :
    Clear sid (transmit sid s request choice).1 := by
  unfold transmit
  cases hdelivery : choice.delivery with
  | lost => exact h
  | abandoned => exact h
  | answered =>
    cases request with
    | createSession =>
      have hrefused := hcreate rfl hdelivery
      rcases handle_create sid s choice.stored choice.endpoint with
        ⟨e, hhandle⟩ | ⟨proxy, _, hhandle⟩
      · simp only [Request.message, hhandle]
        exact ⟨h.closed, h.unrouted⟩
      · have haccepted : (handle s.traced (.createSession sid.text choice.endpoint)
            choice.stored).2.success = true := by rw [hhandle]
        simp only [handle, processMessage] at haccepted
        rw [hrefused] at haccepted
        cases haccepted
    | addPid pid =>
      rcases handle_addPid sid s choice.stored pid choice.fileTime with
        ⟨_, hhandle⟩ | ⟨state, hrecord, _⟩
      · simp only [Request.message, hhandle]
        exact ⟨h.closed, h.unrouted⟩
      · rw [h.closed] at hrecord
        cases hrecord
    | closeSession =>
      rcases handle_close sid s choice.stored with ⟨_, hhandle⟩ | ⟨state, hrecord, _⟩
      · simp only [Request.message, hhandle]
        exact ⟨h.closed, h.unrouted⟩
      · rw [h.closed] at hrecord
        cases hrecord

theorem clear_of_close {s : Shared} (hdelivery : choice.delivery = .answered)
    (h : Listed sid s) : Clear sid (transmit sid s .closeSession choice).1 := by
  unfold transmit
  rw [hdelivery]
  rcases handle_close sid s choice.stored with
    ⟨hrecord, hhandle⟩ | ⟨state, hrecord, hhandle⟩
  · simp only [Request.message, hhandle]
    refine ⟨hrecord, fun pid e hroute hadd => ?_⟩
    obtain ⟨state, hstate, _⟩ := h pid e hroute hadd
    rw [hrecord] at hstate
    cases hstate
  · simp only [Request.message, hhandle]
    refine ⟨setSession_self _ _ _, fun pid e hroute hadd => ?_⟩
    simp only [setSession_router, setRouter_router, removeProcessIds_apply] at hroute
    split at hroute
    · cases hroute
    · rename_i hkept
      obtain ⟨state', hstate, hlisted⟩ := h pid e hroute hadd
      obtain rfl := Option.some.inj (hrecord.symm.trans hstate)
      exact hkept hlisted

theorem turn_ended (hturn : turn sid w code choice = some next)
    (hcode : ∀ ended rest, code ≠ .setEnded ended rest) : next.1.ended = w.shared.ended := by
  cases hrequest : code.request with
  | some request => rw [(turn_request hturn hrequest).1, transmit_ended]
  | none =>
    cases code with
    | setEnded ended rest => exact absurd rfl (hcode ended rest)
    | send request ok notFound failed => cases hrequest
    | enterGate rest =>
      simp only [turn] at hturn
      split at hturn
      · cases hturn
      · obtain rfl := Option.some.inj hturn; rfl
    | replay pids rest =>
      cases pids with
      | nil => obtain rfl := Option.some.inj hturn; rfl
      | cons pid pids => cases hrequest
    | _ => obtain rfl := Option.some.inj hturn; rfl

theorem clear_of_traced {s t : Shared} (h : Clear sid s) (htraced : t.traced = s.traced) :
    Clear sid t :=
  ⟨by unfold Shared.record; rw [htraced]; exact h.closed, by rw [htraced]; exact h.unrouted⟩

theorem owed_run {index : ℕ} (hw : Inv sid w) (hok : ClosesLast sid w (.run index choice))
    (hcode : w.tasks[index]? = some code) (hturn : turn sid w code choice = some next)
    (hended : next.1.ended = true) :
    (∃ c ∈ next.2 ++ w.others index, owesClose c = true) ∨ Clear sid next.1 := by
  have hmem := mem_tasks_iff hcode
  have hown : code ∈ w.tasks := (hmem code).mpr (.inl rfl)
  by_cases hother : ∃ other ∈ w.others index, owesClose other = true
  · obtain ⟨other, hmember, howes⟩ := hother
    exact .inl ⟨other, List.mem_append.mpr (.inr hmember), howes⟩
  have hothers : ∀ other ∈ w.others index, owesClose other = false := fun other hmember =>
    Bool.not_eq_true _ ▸ fun howes => hother ⟨other, hmember, howes⟩
  have hkept : (∃ c ∈ next.2, owesClose c = true) →
      (∃ c ∈ next.2 ++ w.others index, owesClose c = true) ∨ Clear sid next.1 := by
    rintro ⟨c, hc, howes⟩
    exact .inl ⟨c, List.mem_append.mpr (.inl hc), howes⟩
  by_cases hassign : ∃ ended rest, code = .setEnded ended rest
  · -- the status is assigned: the task that ends the session closes it
    obtain ⟨ended, rest, rfl⟩ := hassign
    have hsealed := hw.sealed _ hown
    obtain rfl := Option.some.inj hturn
    obtain rfl : ended = true := hended
    simp only [closesAtEnd, Bool.and_eq_true, Bool.not_true, Bool.false_or] at hsealed
    exact hkept ⟨rest, List.mem_singleton.mpr rfl, hsealed.2⟩
  have hbefore : w.shared.ended = true :=
    (turn_ended hturn fun ended rest h => hassign ⟨ended, rest, h⟩) ▸ hended
  have hguard := hok code hcode hbefore hothers
  by_cases hclose : code.request = some .closeSession
  · obtain ⟨hnext, hleft⟩ := turn_request hturn hclose
    rw [hclose] at hguard
    cases hdelivery : choice.delivery with
    | answered => exact .inr (hnext ▸ clear_of_close hdelivery (hguard.2 hdelivery))
    | abandoned => exact hkept ⟨_, hleft hdelivery, rfl⟩
    | lost =>
      refine .inr (clear_of_traced (hguard.1 hdelivery) ?_)
      rw [hnext]
      simp [transmit, hdelivery]
  · rcases hw.owed hbefore with ⟨c, hc, howes⟩ | hclear
    · rcases (hmem c).mp hc with rfl | hmember
      · exact hkept (owesClose_turn hturn hclose howes)
      · rw [hothers c hmember] at howes
        cases howes
    · cases hrequest : code.request with
      | none => exact .inr (clear_of_traced hclear (turn_quiet hturn hrequest).1)
      | some request =>
        rw [(turn_request hturn hrequest).1]
        refine .inr (clear_transmit hclear fun hcreate hdelivery => ?_)
        rw [hrequest, hcreate] at hguard
        exact hguard hdelivery

end Turns

theorem clear_outside {s t : Shared} {change : Change} (h : Clear sid s)
    (hchange : outside sid s change = some t) : Clear sid t := by
  cases change with
  | processExited pid => obtain rfl := Option.some.inj hchange; exact ⟨h.closed, h.unrouted⟩
  | markProcessExited pid =>
    simp only [outside, Option.ite_none_right_eq_some, Option.some.injEq] at hchange
    obtain ⟨_, rfl⟩ := hchange
    exact ⟨h.closed, h.unrouted⟩
  | otherClient m stored =>
    simp only [outside, Option.ite_none_left_eq_some, Option.some.injEq] at hchange
    obtain ⟨hother, rfl⟩ := hchange
    refine ⟨?_, fun pid e hroute hadd => ?_⟩
    · exact (processMessage_sessions_of_ne _ m stored fun hid => hother hid.symm).trans h.closed
    · rcases routed_of_request s.traced.lastAdd hroute with
        ⟨hold, hsame⟩ | ⟨id, createdAt, rfl, _, hnew⟩
      · exact h.unrouted pid e hold (hsame.symm.trans hadd)
      · exact hother (Option.some.inj (hnew.symm.trans hadd))
  | sweep times =>
    obtain rfl := Option.some.inj hchange
    exact ⟨h.closed, fun pid e hroute => h.unrouted pid e (cleanupStalePidRoutes_some hroute)⟩
  | serverRestart =>
    obtain rfl := Option.some.inj hchange
    exact ⟨rfl, fun pid e hroute => by cases hroute⟩

theorem outside_ended {s t : Shared} {change : Change} (hchange : outside sid s change = some t) :
    t.ended = s.ended := by
  cases change with
  | markProcessExited pid =>
    simp only [outside, Option.ite_none_right_eq_some, Option.some.injEq] at hchange
    obtain ⟨_, rfl⟩ := hchange
    rfl
  | otherClient m stored =>
    simp only [outside, Option.ite_none_left_eq_some, Option.some.injEq] at hchange
    obtain ⟨_, rfl⟩ := hchange
    rfl
  | _ => obtain rfl := Option.some.inj hchange; rfl

theorem inv_step {w t : World} {event : Event} (hw : Inv sid w) (hok : ClosesLast sid w event)
    (hstep : step sid w event = some t) : Inv sid t := by
  cases event with
  | start handler =>
    obtain rfl := Option.some.inj hstep
    refine ⟨fun code hcode => ?_, fun hended => ?_⟩
    · rcases List.mem_cons.mp hcode with rfl | hold
      · exact closesAtEnd_entry handler
      · exact hw.sealed code hold
    · exact (hw.owed hended).imp_left fun ⟨code, hcode, howes⟩ =>
        ⟨code, List.mem_cons_of_mem _ hcode, howes⟩
  | run index choice =>
    obtain ⟨code, next, hcode, hturn, rfl⟩ := step_run hstep
    have hsealed := hw.sealed code ((mem_tasks_iff hcode code).mpr (.inl rfl))
    exact ⟨forall_tasks_of_turn hcode hw.sealed (closesAtEnd_turn hturn hsealed),
      owed_run hw hok hcode hturn⟩
  | change event =>
    obtain ⟨s, hchange, rfl⟩ := Option.map_eq_some_iff.mp hstep
    refine ⟨hw.sealed, fun hended => ?_⟩
    have hbefore : w.shared.ended = true := (outside_ended hchange) ▸ hended
    exact (hw.owed hbefore).imp_right fun hclear => clear_outside hclear hchange

def idle (processes : List TrackedProcess) (traced : Traced) : World :=
  ⟨{ processes := processes, traced := traced }, []⟩

/-- An ended session stays closed, if its last `closeSession` comes last and finds its routes
    listed. -/
theorem always_staysClosed (sid : SessionId) (processes : List TrackedProcess) (traced : Traced)
    (events : List Event) (h : Meets (step sid) (ClosesLast sid) (idle processes traced) events) :
    Always (step sid) (StaysClosed sid) (idle processes traced) events := by
  have hidle : Inv sid (idle processes traced) :=
    ⟨fun _ hcode => (List.not_mem_nil hcode).elim, fun hended => by cases hended⟩
  exact always_mono (fun _ => staysClosed_of_inv)
    (always_of_meets (fun _ _ _ hw hok hstep => inv_step hw hok hstep) hidle h)

def openServer : Traced where
  server :=
    { proxyMap := fun e => if e = "127.0.0.1:1080" then some 0 else none
      sessions := fun id =>
        if id = "8f00d1e2" then some { endpoint := "127.0.0.1:1080", pids := {100} } else none
      router :=
        { proxyServers := [⟨some 5000, some 5001⟩]
          pidToProxy := fun pid => if pid = 100 then some ⟨0, splitFileTime 0⟩ else none } }
  lastAdd := fun pid => if pid = 100 then some "8f00d1e2" else none

theorem openServer_route {pid : DWORD} {e : PidRouteEntry}
    (h : openServer.server.router.pidToProxy pid = some e) : pid = 100 := by
  simp only [openServer, Option.ite_none_right_eq_some] at h
  exact h.1

def answer : Choice := { endpoint := "127.0.0.1:1080" }

def stopped : List Event :=
  [.start .stop, .run 0 answer, .run 0 answer, .run 0 answer, .run 0 answer, .run 0 answer,
    .run 0 answer]

theorem always_staysClosed_stopped :
    Always (step ⟨"8f00d1e2", by decide⟩) (StaysClosed ⟨"8f00d1e2", by decide⟩)
      (idle [⟨100, false⟩] openServer) stopped := by
  refine always_staysClosed _ _ _ _ ?_
  refine (meets_cons rfl).mpr ⟨trivial, (meets_cons rfl).mpr ⟨?_, (meets_cons rfl).mpr ⟨?_,
    (meets_cons rfl).mpr ⟨?_, (meets_cons rfl).mpr ⟨?_, (meets_cons rfl).mpr ⟨?_,
    (meets_cons rfl).mpr ⟨?_, trivial⟩⟩⟩⟩⟩⟩⟩
  · intro code _ hended; cases hended
  · intro code _ hended; cases hended
  · intro code hcode _ _; obtain rfl := Option.some.inj hcode; trivial
  · intro code hcode _ _; obtain rfl := Option.some.inj hcode; trivial
  · intro code hcode _ _
    obtain rfl := Option.some.inj hcode
    refine ⟨fun hlost => (by cases hlost), fun _ pid e hroute _ => ⟨_, rfl, ?_⟩⟩
    have hpid : pid = 100 := openServer_route hroute
    subst hpid
    decide
  · intro code hcode _ _; obtain rfl := Option.some.inj hcode; trivial

/-- A descendant that is found after the close lets the recovery create the session anew. -/
theorem late_descendant_reopens :
    ¬ ∀ (sid : SessionId) (processes : List TrackedProcess) (traced : Traced)
        (events : List Event),
      Always (step sid) (StaysClosed sid) (idle processes traced) events := by
  intro h
  have hrun := (always_iff_reached _ _).mp
    (h ⟨"8f00d1e2", by decide⟩ [⟨100, false⟩] openServer
      (stopped ++ [.start (.processFound 101), .run 0 answer, .run 0 answer, .run 0 answer,
        .run 0 answer, .run 0 { answer with branch := false }, .run 0 answer, .run 0 answer,
        .run 0 answer, .run 0 answer, .run 0 answer, .run 0 answer, .run 0 answer, .run 0 answer,
        .run 0 answer]))
    _ [] _ (List.append_nil _).symm rfl
  have hclear := hrun rfl rfl
  have hclosed := hclear.closed
  revert hclosed
  decide

end ProxySwitch.IpcSessionClosure
