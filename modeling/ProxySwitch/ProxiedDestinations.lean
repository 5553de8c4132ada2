import ProxySwitch.PacketPathSteps

set_option autoImplicit false

namespace ProxySwitch.ProxiedDestinations
open DestinationRules (InAddr)
open PacketPath ProcessTables RouterPidRoutes TcpLocalRedirect TransitionRuns

structure Opening where
  client : IpEndpoint InAddr
  destination : IpEndpoint InAddr
  recorded : ℕ
  deriving DecidableEq

/-- The router, the connections that redirected SYNs have opened at the proxy and that it has
    not accepted yet, and the last SYN recorded for each source port since an accept asked for
    that port. -/
structure World where
  router : LocalRouter
  backlog : List Opening
  lastSyn : Port → Option Opening

inductive Action
  | router (e : Event)
  | accept (i : ℕ)

def opening (r : LocalRouter) (p : TcpPacket InAddr) : Opening where
  client := ⟨p.ipSrc, p.thSport⟩
  destination := ⟨p.ipDst, p.thDport⟩
  recorded := r.now

def renew (syn : Opening) (c : Opening) : Opening :=
  if c.client = syn.client ∧ c.destination = syn.destination then syn else c

def isRedirected {ζ π : Type} : Decision ζ π → Bool
  | .toProxy _ => true
  | _ => false

/-- The step of the router. Its own `accept` is that of a connection to the proxy's port that
    no redirected SYN opened. -/
def routerStep (cfg : Config) (w : World) (e : Event) : World :=
  let router := next cfg w.router e
  match e with
  | .tcpPacket postponed times p =>
    let decision := (processTcpPacket cfg w.router postponed times p).1
    if p.isSyn && decision.reachesRedirect then
      let syn := opening w.router p
      let backlog := w.backlog.map (renew syn)
      { router := router
        backlog := if isRedirected decision then syn :: backlog else backlog
        lastSyn := Function.update w.lastSyn p.thSport (some syn) }
    else { w with router := router }
  | .accept port =>
    { w with router := router, lastSyn := Function.update w.lastSyn port none }
  | _ => { w with router := router }

def worldStep (cfg : Config) (w : World) : Action → Option World
  | .router e => some (routerStep cfg w e)
  | .accept i => w.backlog[i]?.map fun c =>
    { router := (acceptTcp w.router c.client.port).2
      backlog := w.backlog.eraseIdx i
      lastSyn := Function.update w.lastSyn c.client.port none }

def worldStart (proxyServers : List ProxyServers) : World := ⟨start proxyServers, [], fun _ => none⟩

def Opening.expired (c : Opening) (now : ℕ) : Bool := tcpMapperEntryTtl < now - c.recorded

/-- An accepted connection gets its own destination, and nothing once its mapping has passed
    its time to live. -/
def OwnDestination (w : World) : Action → Prop
  | .accept i => ∀ c, w.backlog[i]? = some c →
    (acceptTcp w.router c.client.port).1 =
      if c.expired w.router.now then none else some c.destination
  | .router _ => True

/-- When a connection is accepted, the last SYN recorded for its source port and not asked for
    since went to its destination; if its own mapping has expired, that SYN's has too, or
    there is none. -/
def OwnLastSyn (w : World) : Action → Prop
  | .accept i => ∀ c, w.backlog[i]? = some c →
    if c.expired w.router.now then
      ∀ syn, w.lastSyn c.client.port = some syn → syn.expired w.router.now = true
    else ∃ syn, w.lastSyn c.client.port = some syn ∧ syn.destination = c.destination
  | .router _ => True

structure Invariant (w : World) : Prop where
  mapped : ∀ port e, w.router.tcpMapper port = some e →
    ∃ syn, w.lastSyn port = some syn ∧ e = ⟨syn.destination, syn.recorded⟩
  /-- The sweep takes what has expired. -/
  kept : ∀ port syn, w.lastSyn port = some syn → syn.expired w.router.now = false →
    w.router.tcpMapper port = some ⟨syn.destination, syn.recorded⟩
  past : ∀ port syn, w.lastSyn port = some syn → syn.recorded ≤ w.router.now
  backlogPast : ∀ c ∈ w.backlog, c.recorded ≤ w.router.now
  later : ∀ c ∈ w.backlog, ∀ syn, w.lastSyn c.client.port = some syn → c.recorded ≤ syn.recorded

variable {cfg : Config} {w : World}

theorem acceptTcp_fst (h : Invariant w) (port : Port) :
    (acceptTcp w.router port).1 = match w.lastSyn port with
      | none => none
      | some syn => if syn.expired w.router.now then none else some syn.destination := by
  unfold acceptTcp
  cases hentry : w.router.tcpMapper port with
  | none =>
    cases hsyn : w.lastSyn port with
    | none => rfl
    | some syn =>
      cases hexpired : syn.expired w.router.now with
      | true => simp only [hexpired, if_true]
      | false => exact absurd ((h.kept port syn hsyn hexpired).symm.trans hentry) (by simp)
  | some e =>
    obtain ⟨syn, hsyn, rfl⟩ := h.mapped port e hentry
    simp only [hsyn]
    rfl

theorem expired_mono {a b : Opening} {now : ℕ} (h : a.recorded ≤ b.recorded)
    (hb : b.expired now = true) : a.expired now = true := by
  simp only [Opening.expired, decide_eq_true_eq] at hb ⊢
  omega

theorem ownDestination_iff (h : Invariant w) (a : Action) : OwnDestination w a ↔ OwnLastSyn w a := by
  cases a with
  | router e => rfl
  | accept i =>
    refine forall_congr' fun c => forall_congr' fun hc => ?_
    have hmem : c ∈ w.backlog := List.mem_of_getElem? hc
    rw [acceptTcp_fst h]
    cases hsyn : w.lastSyn c.client.port with
    | none => cases c.expired w.router.now <;> simp
    | some syn =>
      cases hexpired : c.expired w.router.now with
      | true => cases syn.expired w.router.now <;> simp
      | false =>
        have hfresh : syn.expired w.router.now = false := by
          refine Bool.eq_false_of_not_eq_true fun hb => ?_
          exact absurd (hexpired.symm.trans (expired_mono (h.later c hmem syn hsyn) hb)) (by simp)
        simp [hfresh]

theorem acceptTcp_tcpMapper (r : LocalRouter) (port : Port) :
    (acceptTcp r port).2.tcpMapper = Function.update r.tcpMapper port none := by
  unfold acceptTcp
  split
  · rename_i hnone
    exact (Function.update_eq_self_iff.mpr hnone.symm).symm
  · rfl

theorem invariant_same (h : Invariant w) {r : LocalRouter}
    (hmapper : r.tcpMapper = w.router.tcpMapper) (hnow : r.now = w.router.now) :
    Invariant { w with router := r } where
  mapped := by simpa only [hmapper] using h.mapped
  kept := by simpa only [hmapper, hnow] using h.kept
  past := by simpa only [hnow] using h.past
  backlogPast := by simpa only [hnow] using h.backlogPast
  later := h.later

theorem invariant_later (h : Invariant w) {r : LocalRouter}
    (hmapper : r.tcpMapper = w.router.tcpMapper) (hnow : w.router.now ≤ r.now) :
    Invariant { w with router := r } where
  mapped := by simpa only [hmapper] using h.mapped
  kept := by
    intro port syn hsyn hfresh
    simp only [hmapper]
    refine h.kept port syn hsyn ?_
    simp only [Opening.expired, decide_eq_false_iff_not] at hfresh ⊢
    omega
  past port syn hsyn := (h.past port syn hsyn).trans hnow
  backlogPast c hc := (h.backlogPast c hc).trans hnow
  later := h.later

theorem invariant_take (h : Invariant w) (port : Port) {backlog : List Opening}
    (hsub : ∀ c ∈ backlog, c ∈ w.backlog) :
    Invariant ⟨(acceptTcp w.router port).2, backlog, Function.update w.lastSyn port none⟩ := by
  have hkeep : ∀ {q syn}, Function.update w.lastSyn port none q = some syn →
      q ≠ port ∧ w.lastSyn q = some syn := by
    intro q syn hsyn
    rw [Function.update_apply] at hsyn
    split_ifs at hsyn with hq
    exact ⟨hq, hsyn⟩
  constructor
  · intro q e he
    simp only [acceptTcp_tcpMapper, Function.update_apply] at he ⊢
    split_ifs at he ⊢ with hq
    exact h.mapped q e he
  · intro q syn hsyn hfresh
    obtain ⟨hq, hsyn⟩ := hkeep hsyn
    simp only [acceptTcp_now] at hfresh
    simp only [acceptTcp_tcpMapper, Function.update_of_ne hq]
    exact h.kept q syn hsyn hfresh
  · intro q syn hsyn
    simpa only [acceptTcp_now] using h.past q syn (hkeep hsyn).2
  · intro c hc
    simpa only [acceptTcp_now] using h.backlogPast c (hsub c hc)
  · exact fun c hc syn hsyn => h.later c (hsub c hc) syn (hkeep hsyn).2

/-- A recorded SYN is the last one of its port. -/
theorem invariant_record (h : Invariant w) (p : TcpPacket InAddr) {r : LocalRouter}
    (hmapper : r.tcpMapper = (recordDestination w.router p).tcpMapper)
    (hnow : r.now = w.router.now) {backlog : List Opening}
    (hbacklog : ∀ c ∈ backlog, c ∈ w.backlog ∨ c = opening w.router p) :
    Invariant ⟨r, backlog, Function.update w.lastSyn p.thSport (some (opening w.router p))⟩ := by
  have hpast : ∀ c ∈ backlog, c.recorded ≤ w.router.now := by
    intro c hc
    rcases hbacklog c hc with hc | rfl
    · exact h.backlogPast c hc
    · exact Nat.le_refl _
  constructor
  · intro q e he
    simp only [hmapper, recordDestination, Function.update_apply] at he ⊢
    split_ifs at he ⊢ with hq
    · exact ⟨_, rfl, (Option.some.inj he).symm⟩
    · exact h.mapped q e he
  · intro q syn hsyn hfresh
    simp only [hnow] at hfresh
    simp only [hmapper, recordDestination, Function.update_apply] at hsyn ⊢
    split_ifs at hsyn ⊢ with hq
    · obtain rfl := Option.some.inj hsyn
      rfl
    · exact h.kept q syn hsyn hfresh
  · intro q syn hsyn
    simp only [hnow, Function.update_apply] at hsyn ⊢
    split_ifs at hsyn with hq
    · obtain rfl := Option.some.inj hsyn
      exact Nat.le_refl _
    · exact h.past q syn hsyn
  · simpa only [hnow] using hpast
  · intro c hc syn hsyn
    simp only [Function.update_apply] at hsyn
    split_ifs at hsyn with hq
    · obtain rfl := Option.some.inj hsyn
      exact hpast c hc
    · rcases hbacklog c hc with hc | rfl
      · exact h.later c hc syn hsyn
      · exact absurd rfl hq

theorem renew_cases (syn c : Opening) : renew syn c = c ∨ renew syn c = syn := by
  unfold renew
  split
  · exact .inr rfl
  · exact .inl rfl

theorem invariant_router (h : Invariant w) (e : Event) : Invariant (routerStep cfg w e) := by
  cases e with
  | tcpPacket postponed times p =>
    have hmapper := processTcpPacket_tcpMapper cfg w.router postponed times p
    have hnow := (sameUdp_processTcpPacket cfg w.router postponed times p).now
    simp only [routerStep]
    split
    · rename_i hrecords
      rw [if_pos hrecords] at hmapper
      refine invariant_record h p hmapper hnow fun c hc => ?_
      have hrenewed : c ∈ w.backlog.map (renew (opening w.router p)) →
          c ∈ w.backlog ∨ c = opening w.router p := by
        intro hc
        obtain ⟨d, hd, rfl⟩ := List.mem_map.mp hc
        rcases renew_cases (opening w.router p) d with hsame | hsame
        · exact .inl (by rwa [hsame])
        · exact .inr hsame
      split at hc
      · rcases List.mem_cons.mp hc with rfl | hc
        · exact .inr rfl
        · exact hrenewed hc
      · exact hrenewed hc
    · rename_i hrecords
      rw [if_neg hrecords] at hmapper
      exact invariant_same h hmapper hnow
  | udpPacket postponed times p =>
    have hsame := sameTcp_filterUdpPacket cfg w.router postponed times p
    exact invariant_same h hsame.tcpMapper hsame.now
  | accept port => exact invariant_take h port fun _ hc => hc
  | maintain times =>
    refine ⟨?_, ?_, h.past, h.backlogPast, h.later⟩
    · intro port e he
      exact h.mapped port e (Option.filter_eq_some_iff.mp he).1
    · intro port syn hsyn hfresh
      exact Option.filter_eq_some_iff.mpr ⟨h.kept port syn hsyn hfresh, congrArg not hfresh⟩
  | tick elapsed => exact invariant_later h rfl (Nat.le_add_right _ _)
  | _ => exact invariant_same h rfl rfl

theorem invariant_step (w : World) (a : Action) (w' : World) (h : Invariant w)
    (hstep : worldStep cfg w a = some w') : Invariant w' := by
  cases a with
  | router e =>
    obtain rfl := Option.some.inj hstep
    exact invariant_router h e
  | accept i =>
    obtain ⟨c, -, rfl⟩ := Option.map_eq_some_iff.mp hstep
    exact invariant_take h c.client.port fun _ hc => List.mem_of_mem_eraseIdx hc

theorem invariant_start (proxyServers : List ProxyServers) : Invariant (worldStart proxyServers) where
  mapped _ _ he := by cases he
  kept _ _ hsyn := by cases hsyn
  past _ _ hsyn := by cases hsyn
  backlogPast _ hc := absurd hc List.not_mem_nil
  later _ hc := absurd hc List.not_mem_nil

/-- Accepted connections get their own destinations precisely when the last SYN of their
    source port is theirs, or went where theirs did. -/
theorem meets_ownDestination_iff (cfg : Config) (proxyServers : List ProxyServers)
    (actions : List Action) :
    Meets (worldStep cfg) OwnDestination (worldStart proxyServers) actions ↔
      Meets (worldStep cfg) OwnLastSyn (worldStart proxyServers) actions :=
  meets_congr invariant_step (fun _ a h => ownDestination_iff h a) actions
    (invariant_start proxyServers)

def mailConfig : Config := ⟨1, [], [(0, "MAIL".toList)], []⟩

def mailer : Owner := ⟨⟨"MAIL.EXE".toList, "MAIL.EXE".toList⟩, 7⟩

def mailSyn (ipSrc ipDst : InAddr) (dport : Port) : TcpPacket InAddr :=
  ⟨2, 1, ipSrc, ipDst, 5000, dport, true, false, false, false⟩

def mailRows : IpSession → Option Owner := fun session =>
  if session = tcpSession (mailSyn 10 20 25) ∨ session = tcpSession (mailSyn 11 30 143) then
    some mailer
  else none

/-- The second SYN overwrites the mapping of the first, whose connection is then sent to the
    destination of the second. -/
theorem first_gets_second_destination :
    ¬∀ cfg proxyServers actions,
      Meets (worldStep cfg) OwnDestination (worldStart proxyServers) actions := by
  intro h
  have hrun := h mailConfig [⟨some 8080, none⟩]
    [.router (.actualize (some mailRows) none),
      .router (.tcpPacket false (fun _ => none) (mailSyn 10 20 25)),
      .router (.tcpPacket false (fun _ => none) (mailSyn 11 30 143)),
      .accept 1]
  have hdestination := hrun.2.2.2.1 ⟨⟨10, 5000⟩, ⟨20, 25⟩, 0⟩ rfl
  revert hdestination
  decide

end ProxySwitch.ProxiedDestinations
