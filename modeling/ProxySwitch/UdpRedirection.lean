import Mathlib.Data.Option.Basic
import ProxySwitch.RouterReference

set_option autoImplicit false

namespace ProxySwitch.UdpRedirection
open DestinationRules (InAddr)
open PacketPath PidReuse ProcessTables RouterPidRoutes RouterReference TcpLocalRedirect

def RedirectsTo (cfg : Config) (r : LocalRouter) (times : ProcessTimes) (port proxyPort : Port) :
    Prop :=
  ∃ postponed p, p.thSport = port ∧ (filterUdpPacket cfg r postponed times p).1 = .toProxy proxyPort

/-- The object that holds the owner of an endpoint: its row, the row of the port for every
    address, or the default process. -/
def udpRef (l : ProcessLookup) (endpoint : IpEndpoint InAddr) : ProcessRef :=
  if (l.udpToApp endpoint).isSome then .udp endpoint
  else if (l.udpToApp (zeroIpEndpoint endpoint)).isSome then .udp (zeroIpEndpoint endpoint)
  else .default

structure Less (process process' : NetworkProcess) : Prop where
  owner : process'.toOwner = process.toOwner
  udpProxyPort : process'.udpProxyPort = process.udpProxyPort
  excluded : process.excluded = true → process'.excluded = true
  bypassUdp : process.bypassUdp = true → process'.bypassUdp = true

theorem less_refl (process : NetworkProcess) : Less process process := ⟨rfl, rfl, id, id⟩

def Marked (l l' : ProcessLookup) : Prop := ∀ ref, Option.Rel Less (objectAt l ref) (objectAt l' ref)

theorem marked_of_objectAt {l l' : ProcessLookup} (h : ∀ ref, objectAt l' ref = objectAt l ref) :
    Marked l l' := by
  intro ref
  rw [h ref]
  cases objectAt l ref with
  | none => exact .none
  | some process => exact .some (less_refl process)

section Lookups
variable {l l' : ProcessLookup} {r : LocalRouter} {postponed : Bool} {p : UdpPacket}
  {ref : ProcessRef} {process : NetworkProcess}

theorem marked_store (hat : objectAt l ref = some process) {process' : NetworkProcess}
    (h : Less process process') : Marked l (l.store ref process') := by
  intro ref'
  cases ref <;> cases ref' <;> simp only [objectAt, ProcessLookup.store, Function.update_apply] at hat ⊢
  case tcp.tcp session session' =>
    split_ifs with hsame
    · rw [hsame, hat]
      exact .some h
    · cases l.tcpToApp session' with
      | none => exact .none
      | some other => exact .some (less_refl other)
  case udp.udp endpoint endpoint' =>
    split_ifs with hsame
    · rw [hsame, hat]
      exact .some h
    · cases l.udpToApp endpoint' with
      | none => exact .none
      | some other => exact .some (less_refl other)
  case default.default =>
    obtain rfl := Option.some.inj hat
    exact .some h
  case tcp.udp | default.udp =>
    rename_i endpoint
    cases l.udpToApp endpoint with
    | none => exact .none
    | some other => exact .some (less_refl other)
  case udp.tcp | default.tcp =>
    rename_i session
    cases l.tcpToApp session with
    | none => exact .none
    | some other => exact .some (less_refl other)
  case tcp.default | udp.default => exact .some (less_refl l.defaultProcess)

theorem marked_udpRef (h : Marked l l') (endpoint : IpEndpoint InAddr) :
    udpRef l' endpoint = udpRef l endpoint := by
  have hrow : ∀ e, (l'.udpToApp e).isSome = (l.udpToApp e).isSome := by
    intro e
    have hrel : Option.Rel Less (l.udpToApp e) (l'.udpToApp e) := h (.udp e)
    generalize l.udpToApp e = row at hrel
    generalize l'.udpToApp e = row' at hrel
    cases hrel with
    | none => rfl
    | some _ => rfl
  simp only [udpRef, hrow]

theorem lookupProcessForUdp_ref {now : ℕ} {setToDefault : Bool} {endpoint : IpEndpoint InAddr}
    (h : (lookupProcessForUdp l now setToDefault endpoint).1 = some (ref, process)) :
    ref = udpRef l endpoint := by
  unfold lookupProcessForUdp at h
  unfold udpRef
  split at h
  · rename_i hrow
    obtain ⟨rfl, -⟩ := Prod.mk.inj (Option.some.inj h)
    rw [hrow, Option.isSome_some, if_pos rfl]
  · rename_i hnone hrow
    obtain ⟨rfl, -⟩ := Prod.mk.inj (Option.some.inj h)
    rw [hnone, hrow, Option.isSome_none, if_neg Bool.false_ne_true, Option.isSome_some, if_pos rfl]
  · rename_i hnone hzero
    simp only at h
    split at h
    · obtain ⟨rfl, -⟩ := Prod.mk.inj (Option.some.inj h)
      rw [hnone, hzero, Option.isSome_none, if_neg Bool.false_ne_true, if_neg Bool.false_ne_true]
    · cases h

/-- The resolver thread's lookup always finds a process, if only the default one. -/
theorem lookupProcessForUdp_default (now : ℕ) (endpoint : IpEndpoint InAddr) :
    (lookupProcessForUdp l now true endpoint).1.isSome = true := by
  unfold lookupProcessForUdp
  split
  · rfl
  · rfl
  · simp only [lookupProtected]
    split
    · split <;> rfl
    · rfl

theorem udpRef_lookup (now : ℕ) (setToDefault : Bool) (other endpoint : IpEndpoint InAddr) :
    udpRef (lookupProcessForUdp l now setToDefault other).2 endpoint = udpRef l endpoint :=
  marked_udpRef (marked_of_objectAt (objectAt_lookupUdp setToDefault other)) endpoint

theorem lookupUdp_ref (h : (lookupUdp r postponed p).1 = some (ref, process)) :
    ref = udpRef r.lookup ⟨p.ipSrc, p.thSport⟩ ∧ objectAt r.lookup ref = some process := by
  simp only [lookupUdp] at h
  split_ifs at h
  · have hobject := lookupUdp_objectAt h
    rw [objectAt_lookupUdp] at hobject
    exact ⟨(lookupProcessForUdp_ref h).trans (udpRef_lookup _ _ _ _), hobject⟩
  · exact ⟨lookupProcessForUdp_ref h, lookupUdp_objectAt h⟩

variable (r p) in
theorem lookupUdp_isSome : (lookupUdp r true p).1.isSome = true := by
  simp only [lookupUdp, Bool.and_true]
  split
  · exact lookupProcessForUdp_default _ _
  · rename_i hsome
    rw [Option.isSome_iff_ne_none]
    intro hnone
    rw [hnone] at hsome
    exact hsome rfl

theorem lookupUdp_postponed (hat : objectAt r.lookup (udpRef r.lookup ⟨p.ipSrc, p.thSport⟩) =
    some process) : (lookupUdp r true p).1 =
      some (udpRef r.lookup ⟨p.ipSrc, p.thSport⟩, process) := by
  obtain ⟨⟨ref, other⟩, hlookup⟩ := Option.isSome_iff_exists.mp (lookupUdp_isSome r p)
  obtain ⟨rfl, hother⟩ := lookupUdp_ref hlookup
  rw [hat] at hother
  rw [hlookup, Option.some.inj hother]

theorem objectAt_lookupUdp_snd (r : LocalRouter) (postponed : Bool) (p : UdpPacket)
    (ref : ProcessRef) : objectAt (lookupUdp r postponed p).2 ref = objectAt r.lookup ref := by
  simp only [lookupUdp]
  split_ifs
  · rw [objectAt_lookupUdp, objectAt_lookupUdp]
  · rw [objectAt_lookupUdp]

end Lookups

section Redirects
variable {cfg : Config} {r r' : LocalRouter} {times : ProcessTimes} {port proxyPort : Port}
  {p : UdpPacket} {process process' : NetworkProcess}

structure Redirectable (cfg : Config) (r : LocalRouter) (times : ProcessTimes) (proxyPort : Port)
    (p : UdpPacket) (process : NetworkProcess) : Prop where
  outgoing : OutgoingUdp r true p
  owner : objectAt r.lookup (udpRef r.lookup ⟨p.ipSrc, p.thSport⟩) = some process
  notSkipped : skipsUdp r.routes process = false
  proxied : (udpPort cfg r.routes times process).1 = some proxyPort
  notDirect : udpDirectRule cfg p process = none
  whole : p.isFragment = false

theorem isNewEndpoint_isNone (endpoints : Port → Option ℕ) (now : ℕ) (p : UdpPacket) :
    ((isNewEndpoint endpoints now p).2 p.thSport).isNone = false := by
  unfold isNewEndpoint
  cases hold : endpoints p.thSport with
  | some t => simp [hold]
  | none => simp

theorem routeUdp_toProxy : (routeUdp cfg r p process port).1 = .toProxy proxyPort ↔
    udpDirectRule cfg p process = none ∧ p.isFragment = false ∧ proxyPort = port := by
  have hknown := isNewEndpoint_isNone r.udpEndpoints r.now p
  unfold routeUdp
  cases hdirect : udpDirectRule cfg p process with
  | some rule => simp
  | none =>
    simp only [Option.isSome_none, Bool.false_eq_true, if_false, udpClientToServer,
      redirectDatagram, hknown, Bool.or_false]
    cases p.isFragment with
    | true => simp
    | false => simp [eq_comm]

theorem redirectable_of_toProxy {postponed : Bool}
    (h : (filterUdpPacket cfg r postponed times p).1 = .toProxy proxyPort) :
    ∃ process, Redirectable cfg r times proxyPort p process := by
  have hway := filterUdpPacket_way cfg r postponed times p
  generalize filterUdpPacket cfg r postponed times p = result at hway h
  cases hway with
  | routed hout ref process port hfound hskips hport =>
    obtain ⟨hdirect, hwhole, rfl⟩ := routeUdp_toProxy.mp h
    obtain ⟨rfl, hat⟩ := lookupUdp_ref hfound
    exact ⟨process, ⟨rfl, hout.notDns, hout.notReply⟩, hat, hskips, hport, hdirect, hwhole⟩
  | _ => cases h

theorem toProxy_of_redirectable (h : Redirectable cfg r times proxyPort p process) :
    (filterUdpPacket cfg r true times p).1 = .toProxy proxyPort := by
  have hfound := lookupUdp_postponed h.owner
  have hway := filterUdpPacket_way cfg r true times p
  generalize filterUdpPacket cfg r true times p = result at hway ⊢
  cases hway with
  | multicast hmulticast => exact absurd hmulticast Bool.false_ne_true
  | dns _ hdns => exact absurd hdns h.outgoing.notDns
  | reply _ _ hreply =>
    rw [h.outgoing.notReply] at hreply
    cases hreply
  | queued _ hnone =>
    rw [hfound] at hnone
    cases hnone
  | skipped _ ref other hother hskips =>
    rw [hfound] at hother
    obtain ⟨-, rfl⟩ := Prod.mk.inj (Option.some.inj hother)
    rw [h.notSkipped] at hskips
    cases hskips
  | noPort _ ref other hother _ hport =>
    rw [hfound] at hother
    obtain ⟨-, rfl⟩ := Prod.mk.inj (Option.some.inj hother)
    rw [h.proxied] at hport
    cases hport
  | routed _ ref other port hother _ hport =>
    rw [hfound] at hother
    obtain ⟨-, rfl⟩ := Prod.mk.inj (Option.some.inj hother)
    rw [h.proxied] at hport
    obtain rfl := Option.some.inj hport
    exact routeUdp_toProxy.mpr ⟨h.notDirect, h.whole, rfl⟩

theorem redirectsTo_iff : RedirectsTo cfg r times port proxyPort ↔
    ∃ p process, p.thSport = port ∧ Redirectable cfg r times proxyPort p process := by
  constructor
  · rintro ⟨postponed, p, hport, h⟩
    obtain ⟨process, hredirectable⟩ := redirectable_of_toProxy h
    exact ⟨p, process, hport, hredirectable⟩
  · rintro ⟨p, process, hport, h⟩
    exact ⟨true, p, hport, toProxy_of_redirectable h⟩

theorem skipsUdp_of_less {routes : Router} (h : Less process process')
    (hskips : skipsUdp routes process' = false) : skipsUdp routes process = false := by
  simp only [skipsUdp, Bool.or_eq_false_iff, Bool.and_eq_false_iff, h.owner] at hskips ⊢
  refine ⟨?_, hskips.2.imp_left fun hbypass => ?_⟩
  · by_contra hexcluded
    rw [h.excluded (Bool.eq_true_of_not_eq_false hexcluded)] at hskips
    cases hskips.1
  · by_contra hset
    rw [h.bypassUdp (Bool.eq_true_of_not_eq_false hset)] at hbypass
    cases hbypass

theorem udpPort_of_less {routes : Router} (h : Less process process') :
    (udpPort cfg routes times process').1 = (udpPort cfg routes times process).1 := by
  unfold udpPort
  rw [h.udpProxyPort]
  split
  · rfl
  · rw [getProxyPortUdp, getProxyPortUdp, getProxyPort_fst, getProxyPort_fst, h.owner]

/-- A router whose process objects carry more flags, and that knows more endpoints, redirects
    less. -/
theorem redirectsTo_of_marked (hroutes : r'.routes = r.routes) (hmarked : Marked r.lookup r'.lookup)
    (hendpoints : ∀ port, (r.udpEndpoints port).isSome = true → (r'.udpEndpoints port).isSome = true)
    (h : RedirectsTo cfg r' times port proxyPort) : RedirectsTo cfg r times port proxyPort := by
  rw [redirectsTo_iff] at h ⊢
  obtain ⟨p, process', hport, h⟩ := h
  have hrel := hmarked (udpRef r.lookup ⟨p.ipSrc, p.thSport⟩)
  have howner := h.owner
  rw [marked_udpRef hmarked] at howner
  rw [howner] at hrel
  cases hat : objectAt r.lookup (udpRef r.lookup ⟨p.ipSrc, p.thSport⟩) with
  | none =>
    rw [hat] at hrel
    cases hrel
  | some process =>
    rw [hat] at hrel
    obtain ⟨hless⟩ := hrel
    have hreply : (isUdpProxyPort r.routes p.thSport &&
        (udpServerToClient r.udpEndpoints r.now p).1) = false := by
      have hbefore := h.outgoing.notReply
      rw [hroutes] at hbefore
      cases hproxy : isUdpProxyPort r.routes p.thSport with
      | false => rfl
      | true =>
        simp only [hproxy, Bool.true_and, udpServerToClient, redirectDatagram, h.whole,
          Bool.false_or] at hbefore ⊢
        cases hknown : r.udpEndpoints p.thDport with
        | none => rfl
        | some t =>
          have hsome := hendpoints p.thDport (by rw [hknown]; rfl)
          rw [Option.isNone_eq_false_iff.mpr hsome] at hbefore
          cases hbefore
    have hdirect : udpDirectRule cfg p process = none := by
      have hnone := h.notDirect
      simp only [udpDirectRule, hless.owner] at hnone
      exact hnone
    refine ⟨p, process, hport, ⟨rfl, h.outgoing.notDns, hreply⟩, hat, ?_, ?_, hdirect, h.whole⟩
    · exact skipsUdp_of_less hless (hroutes ▸ h.notSkipped)
    · rw [← udpPort_of_less hless, ← hroutes]
      exact h.proxied

theorem less_getProxyPort (routes : Router) (server : ProxyServers → Option Port) :
    Less process (getProxyPort cfg routes times server process).2 := by
  have hprocess : (getProxyPort cfg routes times server process).2 = process ∨
      (getProxyPort cfg routes times server process).2 = { process with excluded := true } :=
    getProxyPort_process
  obtain h | h := hprocess
  · rw [h]
    exact less_refl process
  · rw [h]
    exact ⟨rfl, rfl, fun _ => rfl, id⟩

theorem less_udpPort (routes : Router) : Less process (udpPort cfg routes times process).2 := by
  unfold udpPort
  split
  · exact less_refl process
  · exact less_getProxyPort routes ProxyServers.udp

theorem marked_lookup_store {l : ProcessLookup} {ref : ProcessRef}
    (hsame : ∀ ref, objectAt l ref = objectAt r.lookup ref) (hat : objectAt l ref = some process)
    (h : Less process process') : Marked r.lookup (l.store ref process') := by
  intro other
  rw [← hsame other]
  exact marked_store hat h other

/-- What a datagram leaves of the tables that decide on the next one: more flags, more endpoints,
    and every new endpoint in the mapper. -/
structure Widens (r r' : LocalRouter) : Prop where
  routes : r'.routes = r.routes
  marked : Marked r.lookup r'.lookup
  known : ∀ port, r.udpEndpoints port ≠ none → r'.udpEndpoints port ≠ none
  fresh : ∀ port, r'.udpEndpoints port ≠ none →
    r.udpEndpoints port ≠ none ∨ r'.udpMapper port = true
  pending : ∀ port, r.udpMapper port = true → r'.udpMapper port = true

theorem redirectDatagram_known {endpoints : Port → Option ℕ} {now : ℕ} {key : Port} (port : Port) :
    (redirectDatagram endpoints now p key).2 port ≠ none ↔ endpoints port ≠ none := by
  unfold redirectDatagram
  split_ifs with hrefused
  · rfl
  · have hkey : endpoints key ≠ none := by
      intro hnone
      rw [hnone] at hrefused
      exact hrefused (Bool.or_true _)
    dsimp only
    rw [Function.update_apply]
    split
    · rename_i hsame
      rw [hsame]
      exact ⟨fun _ => hkey, fun _ => nofun⟩
    · rfl

theorem widens_lookup (h : ∀ ref, objectAt r'.lookup ref = objectAt r.lookup ref)
    (hroutes : r'.routes = r.routes) (hendpoints : r'.udpEndpoints = r.udpEndpoints)
    (hmapper : r'.udpMapper = r.udpMapper) : Widens r r' where
  routes := hroutes
  marked := marked_of_objectAt h
  known port hport := by rwa [hendpoints]
  fresh port hport := .inl (by rwa [hendpoints] at hport)
  pending port hport := by rwa [hmapper]

theorem widens_routeUdp (hmarked : Marked r.lookup r'.lookup) (hroutes : r'.routes = r.routes)
    (hendpoints : r'.udpEndpoints = r.udpEndpoints) (hmapper : r'.udpMapper = r.udpMapper) :
    Widens r (routeUdp cfg r' p process port).2 := by
  unfold routeUdp
  split
  · exact ⟨hroutes, hmarked, fun q hq => by rwa [hendpoints],
      fun q hq => .inl (by rwa [hendpoints] at hq), fun q hq => by rwa [hmapper]⟩
  · dsimp only [udpClientToServer]
    rw [hendpoints, hmapper]
    cases hold : r.udpEndpoints p.thSport with
    | some t =>
      have hkept : isNewEndpoint r.udpEndpoints r'.now p = (false, r.udpEndpoints) := by
        simp only [isNewEndpoint, hold]
      rw [hkept]
      exact ⟨hroutes, hmarked, fun q hq => (redirectDatagram_known q).mpr hq,
        fun q hq => .inl ((redirectDatagram_known q).mp hq), fun q hq => hq⟩
    | none =>
      have hnew : isNewEndpoint r.udpEndpoints r'.now p =
          (true, Function.update r.udpEndpoints p.thSport (some r'.now)) := by
        simp only [isNewEndpoint, hold]
      rw [hnew]
      refine ⟨hroutes, hmarked, fun q hq => (redirectDatagram_known q).mpr ?_, fun q hq => ?_,
        fun q hq => ?_⟩
      · dsimp only
        rw [Function.update_apply]
        split
        · exact Option.some_ne_none _
        · exact hq
      · have hq := (redirectDatagram_known q).mp hq
        dsimp only at hq ⊢
        rw [Function.update_apply] at hq
        split at hq
        · rename_i hsame
          rw [hsame, if_pos rfl, Function.update_self]
          exact .inr rfl
        · exact .inl hq
      · dsimp only
        rw [if_pos rfl, Function.update_apply]
        split
        · rfl
        · exact hq

theorem widens_filterUdpPacket (cfg : Config) (r : LocalRouter) (postponed : Bool)
    (times : ProcessTimes) (p : UdpPacket) : Widens r (filterUdpPacket cfg r postponed times p).2 := by
  have hsame := objectAt_lookupUdp_snd r postponed p
  have hway := filterUdpPacket_way cfg r postponed times p
  generalize filterUdpPacket cfg r postponed times p = result at hway ⊢
  cases hway with
  | multicast _ | dns _ _ => exact widens_lookup (fun _ => rfl) rfl rfl rfl
  | reply _ _ _ =>
    exact ⟨rfl, marked_of_objectAt fun _ => rfl, fun q hq => (redirectDatagram_known q).mpr hq,
      fun q hq => .inl ((redirectDatagram_known q).mp hq), fun q hq => hq⟩
  | queued _ _ | skipped _ _ _ _ _ _ => exact widens_lookup hsame rfl rfl rfl
  | noPort _ ref process hfound _ _ =>
    have hless : Less process { (udpPort cfg r.routes times process).2 with bypassUdp := true } :=
      let h : Less process (udpPort cfg r.routes times process).2 := less_udpPort r.routes
      ⟨h.owner, h.udpProxyPort, h.excluded, fun _ => rfl⟩
    exact ⟨rfl, marked_lookup_store hsame (objectAt_of_lookupUdp hfound) hless, fun q hq => hq,
      fun q hq => .inl hq, fun q hq => hq⟩
  | routed _ ref process port hfound _ _ =>
    exact widens_routeUdp
      (marked_lookup_store hsame (objectAt_of_lookupUdp hfound) (less_refl process)) rfl rfl rfl

/-- A redirected datagram is of a known port, or has just entered its port in the mapper. -/
theorem known_or_pending_of_toProxy {postponed : Bool}
    (h : (filterUdpPacket cfg r postponed times p).1 = .toProxy proxyPort) :
    r.udpEndpoints p.thSport ≠ none ∨
      (filterUdpPacket cfg r postponed times p).2.udpMapper p.thSport = true := by
  have hway := filterUdpPacket_way cfg r postponed times p
  generalize filterUdpPacket cfg r postponed times p = result at hway h ⊢
  cases hway with
  | routed _ ref process port _ _ _ =>
    obtain ⟨hdirect, -, -⟩ := routeUdp_toProxy.mp h
    cases hold : r.udpEndpoints p.thSport with
    | some t => exact .inl nofun
    | none => exact .inr (by simp [routeUdp, hdirect, isNewEndpoint, hold])
  | _ => cases h

theorem objectAt_lookupTcp_snd (r : LocalRouter) (postponed : Bool) (q : TcpPacket InAddr)
    (ref : ProcessRef) : objectAt (lookupTcp r postponed q).2 ref = objectAt r.lookup ref := by
  simp only [lookupTcp]
  split_ifs
  · rw [objectAt_lookupTcp, objectAt_lookupTcp]
  · rw [objectAt_lookupTcp]

theorem less_tcpPort (routes : Router) : Less process (tcpPort cfg routes times process).2 := by
  unfold tcpPort
  split
  · exact less_refl process
  · exact less_getProxyPort routes ProxyServers.tcp

/-- A TCP packet can only leave flags. -/
theorem marked_processTcpPacket (cfg : Config) (r : LocalRouter) (postponed : Bool)
    (times : ProcessTimes) (q : TcpPacket InAddr) :
    Marked r.lookup (processTcpPacket cfg r postponed times q).2.lookup := by
  have hsame := objectAt_lookupTcp_snd r postponed q
  have hway := processTcpPacket_way cfg r postponed times q
  generalize processTcpPacket cfg r postponed times q = result at hway ⊢
  cases hway with
  | reply _ _ _ => exact marked_of_objectAt fun _ => rfl
  | queued _ _ | skipped _ _ _ _ _ _ => exact marked_of_objectAt hsame
  | noPort _ ref process hfound _ _ =>
    have hless : Less process { (tcpPort cfg r.routes times process).2 with bypassTcp := true } :=
      let h : Less process (tcpPort cfg r.routes times process).2 := less_tcpPort r.routes
      ⟨h.owner, h.udpProxyPort, h.excluded, h.bypassUdp⟩
    exact marked_lookup_store hsame (objectAt_of_lookupTcp hfound) hless
  | routed _ ref process port hfound _ _ =>
    rw [routeTcp_lookup]
    exact marked_lookup_store hsame (objectAt_of_lookupTcp hfound) (less_refl process)

theorem widens_processTcpPacket (cfg : Config) (r : LocalRouter) (postponed : Bool)
    (times : ProcessTimes) (q : TcpPacket InAddr) :
    Widens r (processTcpPacket cfg r postponed times q).2 := by
  have h := sameUdp_processTcpPacket cfg r postponed times q
  exact ⟨h.routes, marked_processTcpPacket cfg r postponed times q,
    fun port hport => by rwa [h.udpEndpoints], fun port hport => .inl (by rwa [h.udpEndpoints] at hport),
    fun port hport => by rwa [h.udpMapper]⟩

end Redirects

end ProxySwitch.UdpRedirection
