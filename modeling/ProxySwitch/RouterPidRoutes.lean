import Mathlib.Algebra.BigOperators.Group.Multiset.Defs
import Mathlib.Data.Finset.Basic
import Mathlib.Logic.Function.Basic

set_option autoImplicit false

namespace ProxySwitch.RouterPidRoutes

abbrev DWORD := BitVec 32
abbrev IntPtr := BitVec 64

structure FileTime where
  dwLowDateTime : DWORD
  dwHighDateTime : DWORD
  deriving DecidableEq, Repr

structure PidRouteEntry where
  proxyId : ℕ
  creationTime : FileTime
  deriving DecidableEq, Repr

/-- The listening ports of one entry of `proxy_servers_`; `none` is a null server. -/
structure ProxyServers where
  tcp : Option (BitVec 16)
  udp : Option (BitVec 16)
  deriving DecidableEq, Repr

structure Router where
  proxyServers : List ProxyServers
  pidToProxy : DWORD → Option PidRouteEntry

/-- The creation time `GetProcessTimes` reports for a PID that can be opened. -/
abbrev ProcessTimes := DWORD → Option FileTime

def Router.setRoute (r : Router) (pid : DWORD) (e : Option PidRouteEntry) : Router :=
  { r with pidToProxy := Function.update r.pidToProxy pid e }

@[simp] theorem setRoute_proxyServers (r : Router) (pid : DWORD) (e : Option PidRouteEntry) :
    (r.setRoute pid e).proxyServers = r.proxyServers := rfl

theorem setRoute_apply (r : Router) (pid q : DWORD) (e : Option PidRouteEntry) :
    (r.setRoute pid e).pidToProxy q = if q = pid then e else r.pidToProxy q := by
  simp only [Router.setRoute, Function.update_apply]

@[simp] theorem setRoute_self (r : Router) (pid : DWORD) (e : Option PidRouteEntry) :
    (r.setRoute pid e).pidToProxy pid = e := Function.update_self _ _ _

@[simp] theorem setRoute_of_ne (r : Router) {pid q : DWORD} (e : Option PidRouteEntry)
    (h : q ≠ pid) : (r.setRoute pid e).pidToProxy q = r.pidToProxy q :=
  Function.update_of_ne h _ _

/-- `stored` is false when the insertion into the table throws. -/
def associateProcessIdToProxy (r : Router) (pid : DWORD) (proxyId : ℕ) (creationTime : FileTime)
    (stored : Bool) : Bool × Router :=
  if r.proxyServers.length ≤ proxyId then (false, r)
  else if stored then
    (true, r.setRoute pid (some ⟨proxyId, creationTime⟩))
  else (false, r)

/-- `erase` succeeds also for a PID that is not in the table. -/
def removeProcessId (r : Router) (pid : DWORD) : Bool × Router :=
  (true, r.setRoute pid none)

def clearPidRoutes (r : Router) : Router := { r with pidToProxy := fun _ => none }

def validatePidCreationTime (times : ProcessTimes) (pid : DWORD) (expected : FileTime) : Bool :=
  match times pid with
  | none => false
  | some create =>
    create.dwLowDateTime == expected.dwLowDateTime &&
      create.dwHighDateTime == expected.dwHighDateTime

def cleanupStalePidRoutes (r : Router) (times : ProcessTimes) : Router :=
  { r with pidToProxy := fun pid =>
      match r.pidToProxy pid with
      | some e => if validatePidCreationTime times pid e.creationTime then some e else none
      | none => none }

/-- `Socksifier::AssociateProcessIdToProxy`: both halves are truncating casts and the
    shift is arithmetic. -/
def splitFileTime (createdAtFileTimeUtc : BitVec 64) : FileTime where
  dwLowDateTime := createdAtFileTimeUtc.truncate 32
  dwHighDateTime := (createdAtFileTimeUtc.sshiftRight 32).truncate 32

/-- The handle is the proxy index; `-1` becomes the largest `size_t`. -/
def sizeT (proxy : IntPtr) : ℕ := proxy.toNat

theorem associateProcessIdToProxy_cases (r : Router) (pid : DWORD) (proxyId : ℕ) (t : FileTime)
    (stored : Bool) :
    associateProcessIdToProxy r pid proxyId t stored = (false, r) ∨
    proxyId < r.proxyServers.length ∧
      associateProcessIdToProxy r pid proxyId t stored =
        (true, r.setRoute pid (some ⟨proxyId, t⟩)) := by
  unfold associateProcessIdToProxy
  split
  · exact .inl rfl
  · rename_i hrange
    cases stored
    · exact .inl rfl
    · exact .inr ⟨by omega, rfl⟩

theorem cleanupStalePidRoutes_some {r : Router} {times : ProcessTimes} {pid : DWORD}
    {e : PidRouteEntry} (h : (cleanupStalePidRoutes r times).pidToProxy pid = some e) :
    r.pidToProxy pid = some e := by
  simp only [cleanupStalePidRoutes] at h
  split at h
  · rename_i e' he
    split at h
    · rw [he, h]
    · exact absurd h (by simp)
  · exact absurd h (by simp)

theorem validatePidCreationTime_iff (times : ProcessTimes) (pid : DWORD) (expected : FileTime) :
    validatePidCreationTime times pid expected = true ↔ times pid = some expected := by
  unfold validatePidCreationTime
  cases times pid with
  | none => simp
  | some create =>
    cases create
    cases expected
    simp

/-- Removals commute, so a loop over a `HashSet` has one result in every enumeration order. -/
instance removeProcessId_rightCommutative :
    RightCommutative fun (r : Router) (pid : DWORD) => (removeProcessId r pid).2 where
  right_comm r p q := by
    simp only [removeProcessId, Router.setRoute, Router.mk.injEq, true_and]
    funext x
    simp only [Function.update_apply]
    split <;> simp

def removeProcessIds (r : Router) (pids : Finset DWORD) : Router :=
  pids.val.foldl (fun r pid => (removeProcessId r pid).2) r

theorem removeProcessIds_apply (r : Router) (pids : Finset DWORD) (q : DWORD) :
    (removeProcessIds r pids).pidToProxy q = if q ∈ pids then none else r.pidToProxy q := by
  have loop : ∀ (s : Multiset DWORD) (r : Router),
      (s.foldl (fun r pid => (removeProcessId r pid).2) r).pidToProxy q =
        if q ∈ s then none else r.pidToProxy q := by
    intro s
    induction s using Multiset.induction_on with
    | empty => intro r; simp
    | cons p s ih =>
      intro r
      rw [Multiset.foldl_cons, ih, removeProcessId, setRoute_apply]
      by_cases hq : q = p <;> simp [hq]
  exact loop pids.val r

end ProxySwitch.RouterPidRoutes
