import ProxySwitch.PacketPathSteps

set_option autoImplicit false

/-!
# Translation of a redirected TCP connection

Calls of `tcp_local_redirect` in any order, with the connections that it opened recorded
beside its table. The table holds no closing states: the first FIN or RST with the key of
an entry erases it.
-/
namespace ProxySwitch.TcpTranslation
open TcpLocalRedirect TransitionRuns

variable {α : Type*}

/-- A connection whose SYN was translated, and what its segments and the cleanup have shown
    of it since. -/
structure Connection (α : Type*) where
  client : IpEndpoint α
  server : IpEndpoint α
  lastSegment : ℕ
  clientFin : Bool := false
  serverFin : Bool := false
  reset : Bool := false
  /-- A FIN or RST of another connection came with its server address and client port. -/
  crossed : Bool := false
  /-- The cleanup ran when no segment had come for more than five minutes. -/
  unused : Bool := false

def Connection.key (c : Connection α) : IpEndpoint α := ⟨c.server.ip, c.client.port⟩

def Connection.closed (c : Connection α) : Bool := c.clientFin && c.serverFin || c.reset

def Connection.cut (c : Connection α) : Bool :=
  c.clientFin || c.serverFin || c.reset || c.crossed || c.unused

def Connection.afterCleanup (c : Connection α) (now : ℕ) : Connection α :=
  { c with unused := c.unused || decide (minutes 5 < now - c.lastSegment) }

theorem afterCleanup_cut {c : Connection α} {now : ℕ} :
    (c.afterCleanup now).cut = (c.cut || decide (minutes 5 < now - c.lastSegment)) := by
  simp only [Connection.cut, Connection.afterCleanup]
  grind

@[simp] theorem key_afterCleanup (c : Connection α) (now : ℕ) :
    (c.afterCleanup now).key = c.key := rfl

inductive Event (α : Type*)
  | clientToServer (packet : TcpPacket α) (port : Port)
  | serverToClient (packet : TcpPacket α)
  | cleanup
  | tick (elapsed : ℕ)

structure World (α : Type*) where
  now : ℕ
  redirect : Redirect α
  connections : List (Connection α)

def opened (now : ℕ) (p : TcpPacket α) : Connection α where
  client := ⟨p.ipSrc, p.thSport⟩
  server := ⟨p.ipDst, p.thDport⟩
  lastSegment := now

def start (now : ℕ) (proxyPort : Port) : World α := ⟨now, ⟨fun _ => none, proxyPort⟩, []⟩

structure Answers (q p : TcpPacket α) : Prop where
  hDest : q.hDest = p.hSource
  hSource : q.hSource = p.hDest
  ipSrc : q.ipSrc = p.ipDst
  ipDst : q.ipDst = p.ipSrc
  thSport : q.thSport = p.thDport
  thDport : q.thDport = p.thSport

variable [DecidableEq α]

def Connection.fromClient (c : Connection α) (p : TcpPacket α) : Bool :=
  (⟨p.ipSrc, p.thSport⟩ : IpEndpoint α) = c.client ∧ (⟨p.ipDst, p.thDport⟩ : IpEndpoint α) = c.server

def Connection.fromServer (c : Connection α) (p : TcpPacket α) : Bool :=
  p.ipSrc = c.client.ip ∧ p.serverKey = c.key

def Connection.afterClient (c : Connection α) (now : ℕ) (p : TcpPacket α) : Connection α :=
  if p.isSyn = false ∧ p.clientKey = c.key then
    if c.fromClient p then
      { c with lastSegment := now, clientFin := c.clientFin || p.fin, reset := c.reset || p.rst }
    else { c with lastSegment := now, crossed := c.crossed || p.closes }
  else c

def Connection.afterServer (c : Connection α) (now : ℕ) (p : TcpPacket α) : Connection α :=
  if p.serverKey = c.key then
    if c.fromServer p then
      { c with lastSegment := now, serverFin := c.serverFin || p.fin, reset := c.reset || p.rst }
    else { c with lastSegment := now, crossed := c.crossed || p.closes }
  else c

def step (w : World α) : Event α → Option (World α)
  | .clientToServer packet port =>
    let connections := w.connections.map (·.afterClient w.now packet)
    some
      { w with
        redirect := (processClientToServerPacket w.redirect w.now packet port).2
        connections :=
          if packet.isSyn &&
              (processClientToServerPacket w.redirect w.now packet port).1.isSome then
            opened w.now packet :: connections
          else connections }
  | .serverToClient packet =>
    some
      { w with
        redirect := (processServerToClientPacket w.redirect w.now packet).2
        connections := w.connections.map (·.afterServer w.now packet) }
  | .cleanup =>
    some
      { w with
        redirect := w.redirect.cleanup w.now
        connections := w.connections.map (·.afterCleanup w.now) }
  | .tick elapsed => some { w with now := w.now + elapsed }

/-- Every segment of the connection that comes now is translated. What answers a translated
    client segment is a segment of the local proxy, whose translation answers the client's
    own; and each segment of the local proxy reaches the client as one of the server. -/
def Translated (w : World α) (c : Connection α) : Prop :=
  (∀ p port, c.fromClient p = true → p.isSyn = false →
    ∃ q, (processClientToServerPacket w.redirect w.now p port).1 = some q ∧
      ∀ reply, Answers reply q → c.fromServer reply = true ∧
        ∃ t, (processServerToClientPacket w.redirect w.now reply).1 = some t ∧ Answers t p) ∧
  ∀ reply, c.fromServer reply = true →
    ∃ t, (processServerToClientPacket w.redirect w.now reply).1 = some t ∧
      (⟨t.ipSrc, t.thSport⟩ : IpEndpoint α) = c.server ∧
      (⟨t.ipDst, t.thDport⟩ : IpEndpoint α) = c.client

def TranslatedUntilClosed (w : World α) : Prop :=
  ∀ c ∈ w.connections, c.closed = false → Translated w c

def TranslatedUntilCut (w : World α) : Prop :=
  ∀ c ∈ w.connections, c.cut = false → Translated w c

def Tracked (w : World α) : Prop :=
  ∀ c ∈ w.connections, c.cut = false →
    w.redirect.redirectedConnections c.key = some ⟨c.server.port, c.lastSegment⟩

section Connections
variable {c : Connection α} {now : ℕ} {p : TcpPacket α}

theorem fromClient_iff :
    c.fromClient p = true ↔ (⟨p.ipSrc, p.thSport⟩ : IpEndpoint α) = c.client ∧
      (⟨p.ipDst, p.thDport⟩ : IpEndpoint α) = c.server := by
  simp only [Connection.fromClient, decide_eq_true_eq]

theorem fromServer_iff : c.fromServer p = true ↔ p.ipSrc = c.client.ip ∧ p.serverKey = c.key := by
  simp only [Connection.fromServer, decide_eq_true_eq]

theorem clientKey_of_fromClient (h : c.fromClient p = true) : p.clientKey = c.key := by
  obtain ⟨hclient, hserver⟩ := fromClient_iff.mp h
  simp only [TcpPacket.clientKey, Connection.key, ← hclient, ← hserver]

@[simp] theorem key_afterClient : (c.afterClient now p).key = c.key := by
  unfold Connection.afterClient
  split_ifs <;> rfl

@[simp] theorem key_afterServer : (c.afterServer now p).key = c.key := by
  unfold Connection.afterServer
  split_ifs <;> rfl

@[simp] theorem server_afterClient : (c.afterClient now p).server = c.server := by
  unfold Connection.afterClient
  split_ifs <;> rfl

@[simp] theorem server_afterServer : (c.afterServer now p).server = c.server := by
  unfold Connection.afterServer
  split_ifs <;> rfl

theorem afterClient_other (h : ¬(p.isSyn = false ∧ p.clientKey = c.key)) :
    c.afterClient now p = c := if_neg h

theorem afterServer_other (h : p.serverKey ≠ c.key) : c.afterServer now p = c := if_neg h

variable (now) in
theorem afterClient_hit (hsyn : p.isSyn = false) (hkey : p.clientKey = c.key) :
    (c.afterClient now p).lastSegment = now ∧ (c.afterClient now p).cut = (c.cut || p.closes) := by
  unfold Connection.afterClient
  rw [if_pos ⟨hsyn, hkey⟩]
  split
  · exact ⟨rfl, by simp only [Connection.cut, TcpPacket.closes]; grind⟩
  · exact ⟨rfl, by simp only [Connection.cut]; grind⟩

variable (now) in
theorem afterServer_hit (hkey : p.serverKey = c.key) :
    (c.afterServer now p).lastSegment = now ∧ (c.afterServer now p).cut = (c.cut || p.closes) := by
  unfold Connection.afterServer
  rw [if_pos hkey]
  split
  · exact ⟨rfl, by simp only [Connection.cut, TcpPacket.closes]; grind⟩
  · exact ⟨rfl, by simp only [Connection.cut]; grind⟩

theorem cut_afterClient (h : (c.afterClient now p).cut = false) : c.cut = false := by
  by_cases hhit : p.isSyn = false ∧ p.clientKey = c.key
  · rw [(afterClient_hit now hhit.1 hhit.2).2, Bool.or_eq_false_iff] at h
    exact h.1
  · rwa [afterClient_other hhit] at h

theorem cut_afterServer (h : (c.afterServer now p).cut = false) : c.cut = false := by
  by_cases hhit : p.serverKey = c.key
  · rw [(afterServer_hit now hhit).2, Bool.or_eq_false_iff] at h
    exact h.1
  · rwa [afterServer_other hhit] at h

end Connections

section Invariant
variable {w : World α} {p : TcpPacket α}

theorem tracked_syn (h : Tracked w) (hsyn : p.isSyn = true) (port : Port) {w' : World α}
    (hstep : step w (.clientToServer p port) = some w') : Tracked w' := by
  have hmap : w.connections.map (·.afterClient w.now p) = w.connections :=
    List.map_id'' (fun c => afterClient_other (by simp [hsyn])) _
  obtain rfl := Option.some.inj hstep
  cases hkey : w.redirect.redirectedConnections p.clientKey with
  | some e =>
    simp only [clientToServer_syn_known hsyn hkey, hmap, hsyn]
    exact h
  | none =>
    simp only [clientToServer_syn_new hsyn hkey, hmap, hsyn]
    rintro c hmem hcut
    rcases List.mem_cons.mp hmem with rfl | hmem
    · exact set_self _
    · have hentry := h c hmem hcut
      have hne : c.key ≠ p.clientKey := fun heq => by simp [heq, hkey] at hentry
      exact (set_of_ne _ hne).trans hentry

theorem tracked_clientSegment (h : Tracked w) (hsyn : p.isSyn = false) (port : Port)
    {w' : World α} (hstep : step w (.clientToServer p port) = some w') : Tracked w' := by
  obtain rfl := Option.some.inj hstep
  simp only [hsyn, Bool.false_and, Bool.false_eq_true, if_false, Tracked, List.forall_mem_map,
    key_afterClient, server_afterClient]
  intro c hmem hcut
  have hentry := h c hmem (cut_afterClient hcut)
  by_cases hkey : p.clientKey = c.key
  · rw [← hkey] at hentry ⊢
    obtain ⟨hlast, hcut'⟩ := afterClient_hit w.now hsyn hkey
    rw [hcut', Bool.or_eq_false_iff] at hcut
    rw [clientToServer_known hsyn hentry, hlast, afterPacket_open hcut.2]
    exact set_self _
  · rw [afterClient_other (fun hhit => hkey hhit.2)]
    cases hlook : w.redirect.redirectedConnections p.clientKey with
    | none => rwa [clientToServer_unknown hsyn hlook]
    | some e =>
      rw [clientToServer_known hsyn hlook]
      exact (set_of_ne _ (Ne.symm hkey)).trans hentry

theorem tracked_serverSegment (h : Tracked w) {w' : World α}
    (hstep : step w (.serverToClient p) = some w') : Tracked w' := by
  obtain rfl := Option.some.inj hstep
  simp only [Tracked, List.forall_mem_map, key_afterServer, server_afterServer]
  intro c hmem hcut
  have hentry := h c hmem (cut_afterServer hcut)
  by_cases hkey : p.serverKey = c.key
  · rw [← hkey] at hentry ⊢
    obtain ⟨hlast, hcut'⟩ := afterServer_hit w.now hkey
    rw [hcut', Bool.or_eq_false_iff] at hcut
    rw [serverToClient_known hentry, hlast, afterPacket_open hcut.2]
    exact set_self _
  · rw [afterServer_other hkey]
    cases hlook : w.redirect.redirectedConnections p.serverKey with
    | none => rwa [serverToClient_unknown hlook]
    | some e =>
      rw [serverToClient_known hlook]
      exact (set_of_ne _ (Ne.symm hkey)).trans hentry

theorem tracked_step (w : World α) (e : Event α) (w' : World α) (h : Tracked w)
    (hstep : step w e = some w') : Tracked w' := by
  cases e with
  | clientToServer p port =>
    cases hsyn : p.isSyn with
    | true => exact tracked_syn h hsyn port hstep
    | false => exact tracked_clientSegment h hsyn port hstep
  | serverToClient p => exact tracked_serverSegment h hstep
  | cleanup =>
    obtain rfl := Option.some.inj hstep
    simp only [Tracked, List.forall_mem_map, key_afterCleanup, afterCleanup_cut,
      Bool.or_eq_false_iff, decide_eq_false_iff_not]
    exact fun c hmem hcut => cleanup_eq_some.mpr ⟨h c hmem hcut.1, hcut.2⟩
  | tick elapsed =>
    obtain rfl := Option.some.inj hstep
    exact h

/-- The proxy's segments are found under the key of the connection and get the stored port. -/
theorem serverSegment_translated {c : Connection α} {last : ℕ}
    (hentry : w.redirect.redirectedConnections c.key = some ⟨c.server.port, last⟩)
    {reply : TcpPacket α} (h : c.fromServer reply = true) :
    (processServerToClientPacket w.redirect w.now reply).1 =
      some { reply.swapAddresses with thSport := c.server.port } := by
  obtain ⟨-, hkey⟩ := fromServer_iff.mp h
  rw [serverToClient_known (by rw [hkey]; exact hentry)]

theorem translated_of_entry {c : Connection α} {last : ℕ}
    (hentry : w.redirect.redirectedConnections c.key = some ⟨c.server.port, last⟩) :
    Translated w c := by
  constructor
  · intro p port hclient hsyn
    obtain ⟨hsrc, hdst⟩ := fromClient_iff.mp hclient
    have hkey := clientKey_of_fromClient hclient
    refine ⟨_, by rw [clientToServer_known hsyn (by rw [hkey]; exact hentry)], ?_⟩
    intro reply hanswer
    have hserver : c.fromServer reply = true := by
      refine fromServer_iff.mpr ⟨?_, ?_⟩
      · rw [hanswer.ipSrc, ← hsrc]
        rfl
      · rw [← hkey, TcpPacket.serverKey, hanswer.ipDst, hanswer.thDport]
        rfl
    refine ⟨hserver, _, serverSegment_translated hentry hserver, ?_⟩
    exact
      { hDest := hanswer.hSource
        hSource := hanswer.hDest
        ipSrc := hanswer.ipDst
        ipDst := hanswer.ipSrc
        thSport := by rw [← hdst]
        thDport := hanswer.thDport }
  · intro reply hserver
    obtain ⟨hsrc, hkey⟩ := fromServer_iff.mp hserver
    obtain ⟨hip, hport⟩ := IpEndpoint.mk.inj hkey
    refine ⟨_, serverSegment_translated hentry hserver, ?_, ?_⟩
    · simp only [TcpPacket.swapAddresses, hip]
    · simp only [TcpPacket.swapAddresses, hsrc, hport]

end Invariant

theorem router_step {cfg : PacketPath.Config} {r r' : PacketPath.LocalRouter}
    {e : PacketPath.Event} {w : World DestinationRules.InAddr}
    (hw : w.now = r.now ∧ w.redirect = r.tcpRedirect)
    (hstep : PacketPath.step cfg r e = some r') :
    ∃ calls w', exec step w calls = some w' ∧ w'.now = r'.now ∧ w'.redirect = r'.tcpRedirect := by
  obtain ⟨hnow, hredirect⟩ := hw
  obtain rfl := Option.some.inj hstep
  rcases PacketPath.next_tcpRedirect cfg r e with hsame |
    ⟨postponed, times, p, rfl, h⟩ | ⟨rfl, h⟩
  · by_cases htick : ∃ elapsed, e = .tick elapsed
    · obtain ⟨elapsed, rfl⟩ := htick
      exact ⟨[.tick elapsed], _, rfl, congrArg (· + elapsed) hnow, hredirect⟩
    · have htime := PacketPath.next_now cfg r fun elapsed h => htick ⟨elapsed, h⟩
      exact ⟨[], w, rfl, hnow.trans htime.symm, hredirect.trans hsame.symm⟩
  · have htime : w.now = (PacketPath.next cfg r (.tcpPacket postponed times p)).now :=
      hnow.trans (PacketPath.next_now cfg r fun elapsed h => by cases h).symm
    rcases h with ⟨port, h⟩ | h
    · exact ⟨[.clientToServer p port], _, rfl, htime, by rw [h, ← hnow, ← hredirect]⟩
    · exact ⟨[.serverToClient p], _, rfl, htime, by rw [h, ← hnow, ← hredirect]⟩
  · exact ⟨[.cleanup], _, rfl, hnow, by rw [h, ← hnow, ← hredirect]⟩

/-- The table that a run of the router reaches is reached by calls of the redirect alone. -/
theorem redirect_of_router {cfg : PacketPath.Config} {proxyServers : List RouterPidRoutes.ProxyServers}
    {events : List PacketPath.Event} {r : PacketPath.LocalRouter}
    (h : exec (PacketPath.step cfg) (PacketPath.start proxyServers) events = some r) :
    ∃ calls w, exec step (start 0 0) calls = some w ∧ w.now = r.now ∧
      w.redirect = r.tcpRedirect :=
  exec_of_simulation (R := fun r (w : World _) => w.now = r.now ∧ w.redirect = r.tcpRedirect)
    (fun _ _ _ _ hw hstep => router_step hw hstep) ⟨rfl, rfl⟩ h

/-- A redirected connection is translated, both ways and inversely, until the first FIN or
    RST under its key or five minutes without a segment. -/
theorem always_translatedUntilCut (now : ℕ) (proxyPort : Port) (events : List (Event α)) :
    Always step TranslatedUntilCut (start now proxyPort) events := by
  have htracked := always_of_invariant tracked_step events
    (show Tracked (start (α := α) now proxyPort) from fun _ hmem => absurd hmem List.not_mem_nil)
  exact always_mono (fun w h c hmem hcut => translated_of_entry (h c hmem hcut)) htracked

def clientPacket (syn fin : Bool) : TcpPacket (BitVec 32) :=
  ⟨2, 1, 10, 20, 5000, 80, syn, !syn, fin, false⟩

def serverPacket : TcpPacket (BitVec 32) := ⟨1, 2, 10, 20, 8080, 5000, false, true, false, false⟩

/-- The client has finished, the server has not: its segments are no longer translated. -/
theorem halfClosed_untranslated :
    ¬∀ events : List (Event (BitVec 32)), Always step TranslatedUntilClosed (start 0 0) events := by
  intro h
  have hreached := (always_iff_reached _ _).mp
    (h [.clientToServer (clientPacket true false) 8080,
      .clientToServer (clientPacket false true) 8080]) _ [] _ (List.append_nil _).symm rfl
  obtain ⟨-, hreplies⟩ := hreached _ List.mem_cons_self (by decide)
  obtain ⟨t, ht, -⟩ := hreplies serverPacket (by decide)
  have hsome := Option.isSome_of_eq_some ht
  revert hsome
  decide

end ProxySwitch.TcpTranslation
