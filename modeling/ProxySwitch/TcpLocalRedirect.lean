import Mathlib.Logic.Function.Basic
import Mathlib.Tactic.Common

set_option autoImplicit false

/-!
# The local TCP redirect

`tcp_local_redirect`: the table of redirected connections and the two translations that
maintain it. One definition serves both address families. A port stands for its value, so
the swaps of its bytes fall away.
-/
namespace ProxySwitch.TcpLocalRedirect

abbrev Port := BitVec 16
abbrev MacAddress := BitVec 48

/-- Seconds in ticks of the steady clock, which counts nanoseconds. -/
def seconds (n : ℕ) : ℕ := n * 1000000000

def minutes (n : ℕ) : ℕ := seconds (60 * n)

structure IpEndpoint (α : Type*) where
  ip : α
  port : Port
  deriving DecidableEq

structure TcpPacket (α : Type*) where
  hDest : MacAddress
  hSource : MacAddress
  ipSrc : α
  ipDst : α
  thSport : Port
  thDport : Port
  syn : Bool
  ack : Bool
  fin : Bool
  rst : Bool
  deriving DecidableEq

structure TimestampEndpoint where
  port : Port
  lastActivity : ℕ
  deriving DecidableEq

structure Redirect (α : Type*) where
  redirectedConnections : IpEndpoint α → Option TimestampEndpoint
  proxyPort : Port

variable {α : Type*}

/-- `(th_flags & (TH_SYN | TH_ACK)) == TH_SYN`. -/
def TcpPacket.isSyn (p : TcpPacket α) : Bool := p.syn && !p.ack

/-- `th_flags & TH_RST || th_flags & TH_FIN`. -/
def TcpPacket.closes (p : TcpPacket α) : Bool := p.rst || p.fin

def TcpPacket.swapAddresses (p : TcpPacket α) : TcpPacket α :=
  { p with hDest := p.hSource, hSource := p.hDest, ipSrc := p.ipDst, ipDst := p.ipSrc }

def TcpPacket.clientKey (p : TcpPacket α) : IpEndpoint α := ⟨p.ipDst, p.thSport⟩

def TcpPacket.serverKey (p : TcpPacket α) : IpEndpoint α := ⟨p.ipDst, p.thDport⟩

def TcpPacket.afterPacket (p : TcpPacket α) (now : ℕ) (e : TimestampEndpoint) :
    Option TimestampEndpoint :=
  if p.closes then none else some { e with lastActivity := now }

/-- One pass of the cleanup thread. -/
def Redirect.cleanup (r : Redirect α) (now : ℕ) : Redirect α :=
  { r with
    redirectedConnections := fun key =>
      (r.redirectedConnections key).filter fun e => ¬minutes 5 < now - e.lastActivity }

theorem cleanup_eq_some {r : Redirect α} {now : ℕ} {key : IpEndpoint α} {e : TimestampEndpoint} :
    (r.cleanup now).redirectedConnections key = some e ↔
      r.redirectedConnections key = some e ∧ ¬minutes 5 < now - e.lastActivity := by
  simp [Redirect.cleanup, Option.filter_eq_some_iff]

theorem afterPacket_open {p : TcpPacket α} {now : ℕ} {e : TimestampEndpoint} (h : p.closes = false) :
    p.afterPacket now e = some ⟨e.port, now⟩ := by
  simp only [TcpPacket.afterPacket, h, Bool.false_eq_true, if_false]

variable [DecidableEq α]

def Redirect.set (r : Redirect α) (key : IpEndpoint α) (e : Option TimestampEndpoint) : Redirect α :=
  { r with redirectedConnections := Function.update r.redirectedConnections key e }

/-- The translated packet, or `none` where the source returns false and leaves the packet
    as it is. A SYN whose key is in the table is not translated. -/
def processClientToServerPacket (r : Redirect α) (now : ℕ) (packet : TcpPacket α) (port : Port) :
    Option (TcpPacket α) × Redirect α :=
  let port := if port = 0 then r.proxyPort else port
  let translated := { packet.swapAddresses with thDport := port }
  match packet.isSyn, r.redirectedConnections packet.clientKey with
  | true, some _ => (none, r)
  | true, none => (some translated, r.set packet.clientKey (some ⟨packet.thDport, now⟩))
  | false, none => (none, r)
  | false, some e => (some translated, r.set packet.clientKey (packet.afterPacket now e))

def processServerToClientPacket (r : Redirect α) (now : ℕ) (packet : TcpPacket α) :
    Option (TcpPacket α) × Redirect α :=
  match r.redirectedConnections packet.serverKey with
  | none => (none, r)
  | some e =>
    (some { packet.swapAddresses with thSport := e.port },
      r.set packet.serverKey (packet.afterPacket now e))

section Lemmas
variable {r : Redirect α} {now : ℕ} {p : TcpPacket α} {port : Port} {key : IpEndpoint α}
  {e : TimestampEndpoint}

@[simp] theorem set_proxyPort (e : Option TimestampEndpoint) :
    (r.set key e).proxyPort = r.proxyPort := rfl

@[simp] theorem set_self (e : Option TimestampEndpoint) :
    (r.set key e).redirectedConnections key = e := Function.update_self _ _ _

theorem set_of_ne (e : Option TimestampEndpoint) {key' : IpEndpoint α} (h : key' ≠ key) :
    (r.set key e).redirectedConnections key' = r.redirectedConnections key' :=
  Function.update_of_ne h _ _

theorem clientToServer_syn_known (hsyn : p.isSyn = true)
    (h : r.redirectedConnections p.clientKey = some e) :
    processClientToServerPacket r now p port = (none, r) := by
  simp only [processClientToServerPacket, hsyn, h]

theorem clientToServer_syn_new (hsyn : p.isSyn = true)
    (h : r.redirectedConnections p.clientKey = none) :
    processClientToServerPacket r now p port =
      (some { p.swapAddresses with thDport := if port = 0 then r.proxyPort else port },
        r.set p.clientKey (some ⟨p.thDport, now⟩)) := by
  simp only [processClientToServerPacket, hsyn, h]

theorem clientToServer_unknown (hsyn : p.isSyn = false)
    (h : r.redirectedConnections p.clientKey = none) :
    processClientToServerPacket r now p port = (none, r) := by
  simp only [processClientToServerPacket, hsyn, h]

theorem clientToServer_known (hsyn : p.isSyn = false)
    (h : r.redirectedConnections p.clientKey = some e) :
    processClientToServerPacket r now p port =
      (some { p.swapAddresses with thDport := if port = 0 then r.proxyPort else port },
        r.set p.clientKey (p.afterPacket now e)) := by
  simp only [processClientToServerPacket, hsyn, h]

theorem serverToClient_unknown (h : r.redirectedConnections p.serverKey = none) :
    processServerToClientPacket r now p = (none, r) := by
  simp only [processServerToClientPacket, h]

theorem serverToClient_known (h : r.redirectedConnections p.serverKey = some e) :
    processServerToClientPacket r now p =
      (some { p.swapAddresses with thSport := e.port },
        r.set p.serverKey (p.afterPacket now e)) := by
  simp only [processServerToClientPacket, h]

theorem clientToServer_fst :
    (processClientToServerPacket r now p port).1 =
      if (p.isSyn = true ↔ r.redirectedConnections p.clientKey = none) then
        some { p.swapAddresses with thDport := if port = 0 then r.proxyPort else port }
      else none := by
  cases hsyn : p.isSyn with
  | true =>
    cases hkey : r.redirectedConnections p.clientKey with
    | none => simp [clientToServer_syn_new hsyn hkey]
    | some e => simp [clientToServer_syn_known hsyn hkey]
  | false =>
    cases hkey : r.redirectedConnections p.clientKey with
    | none => simp [clientToServer_unknown hsyn hkey]
    | some e => simp [clientToServer_known hsyn hkey]

@[simp] theorem clientToServer_proxyPort :
    (processClientToServerPacket r now p port).2.proxyPort = r.proxyPort := by
  unfold processClientToServerPacket
  cases p.isSyn <;> cases r.redirectedConnections p.clientKey <;> rfl

@[simp] theorem serverToClient_proxyPort :
    (processServerToClientPacket r now p).2.proxyPort = r.proxyPort := by
  unfold processServerToClientPacket
  cases r.redirectedConnections p.serverKey <;> rfl

end Lemmas

end ProxySwitch.TcpLocalRedirect
