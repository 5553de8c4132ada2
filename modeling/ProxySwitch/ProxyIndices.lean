import ProxySwitch.PacketPath

set_option autoImplicit false

namespace ProxySwitch.ProxyIndices
open PacketPath PidReuse ProcessTables RouterPidRoutes RuntimeStrings TransitionRuns
open TcpLocalRedirect (Port)

/-- `logging` holds the indices of the calls of `associate_process_id_to_proxy` that have let go of
    the lock and have not logged the new route yet. -/
structure Registry where
  routes : Router
  proxyToNames : List (ℕ × Text)
  logging : List ℕ

def Registry.size (r : Registry) : ℕ := r.routes.proxyServers.length

def handleOf (proxyId : Option ℕ) : IntPtr :=
  match proxyId with
  | some proxyId => BitVec.ofNat 64 proxyId
  | none => -1

/-- `servers` is `none` when the endpoint is not parsed, a server does not start, or something
    throws. -/
def addSocks5Proxy (r : Registry) (servers : Option ProxyServers) : Option ℕ × Registry :=
  match servers with
  | none => (none, r)
  | some servers =>
    let proxyServers := r.routes.proxyServers ++ [servers]
    (some (proxyServers.length - 1), { r with routes := { r.routes with proxyServers } })

def emplace (names : List (ℕ × Text)) (entry : ℕ × Text) : List (ℕ × Text) :=
  names.takeWhile (·.1 ≤ entry.1) ++ entry :: names.dropWhile (·.1 ≤ entry.1)

def associateProcessNameToProxy (toUpper : Char → Char) (r : Registry) (processName : Text)
    (proxyId : ℕ) (stored : Bool) : Bool × Registry :=
  if r.size ≤ proxyId then (false, r)
  else if stored then
    (true, { r with proxyToNames := emplace r.proxyToNames (proxyId, processName.map toUpper) })
  else (false, r)

def associatePid (r : Registry) (pid : DWORD) (proxyId : ℕ) (creationTime : FileTime)
    (stored : Bool) : Bool × Registry :=
  let (ok, routes) := associateProcessIdToProxy r.routes pid proxyId creationTime stored
  (ok, { r with routes, logging := if ok then proxyId :: r.logging else r.logging })

inductive Operation
  | addProxy (servers : Option ProxyServers)
  | associateName (processName : Text) (proxy : IntPtr) (stored : Bool)
  | associatePid (pid : DWORD) (proxy : IntPtr) (creationTime : BitVec 64) (stored : Bool)
  | logRoute (proxyId : ℕ)
  | removePid (pid : DWORD)
  | clear
  | sweep (times : ProcessTimes)

def step (toUpper : Char → Char) (r : Registry) : Operation → Option Registry
  | .addProxy servers => some (addSocks5Proxy r servers).2
  | .associateName processName proxy stored =>
    some (associateProcessNameToProxy toUpper r processName (sizeT proxy) stored).2
  | .associatePid pid proxy creationTime stored =>
    some (associatePid r pid (sizeT proxy) (splitFileTime creationTime) stored).2
  | .logRoute proxyId =>
    if proxyId ∈ r.logging then some { r with logging := r.logging.erase proxyId } else none
  | .removePid pid => some { r with routes := (removeProcessId r.routes pid).2 }
  | .clear => some { r with routes := clearPidRoutes r.routes }
  | .sweep times => some { r with routes := cleanupStalePidRoutes r.routes times }

def init : Registry where
  routes := { proxyServers := [], pidToProxy := fun _ => none }
  proxyToNames := []
  logging := []

section Lookups
variable (cfg : Config) (routes : Router) (times : ProcessTimes) (server : ProxyServers → Option Port)
  (process : NetworkProcess)

/-- The index with which a lookup goes to `proxy_servers_`, if it does. -/
def proxyIndex : Option ℕ :=
  match pidRouteHit routes times process.id with
  | some e => some e.proxyId
  | none => (matchNames cfg process cfg.proxyToNames).1

/-- The port that a lookup returns, or `none` for an access beyond the end of the vector. -/
def lookupPort : Option (Option Port) :=
  match proxyIndex cfg routes times process with
  | none => some none
  | some proxyId => routes.proxyServers[proxyId]?.map server

end Lookups

structure IndicesInRange (r : Registry) : Prop where
  pidToProxy : ∀ pid e, r.routes.pidToProxy pid = some e → e.proxyId < r.size
  proxyToNames : ∀ entry ∈ r.proxyToNames, entry.1 < r.size
  logged : ∀ proxyId ∈ r.logging, proxyId < r.size
  lookups : ∀ (cfg : Config) times server process,
    (lookupPort { cfg with proxyToNames := r.proxyToNames } r.routes times server process).isSome = true

section Invariant
variable {toUpper : Char → Char} {r r' : Registry} {operation : Operation} {n : ℕ}

structure Below (n : ℕ) (r : Registry) : Prop where
  pidToProxy : ∀ pid e, r.routes.pidToProxy pid = some e → e.proxyId < n
  proxyToNames : ∀ entry ∈ r.proxyToNames, entry.1 < n
  logged : ∀ proxyId ∈ r.logging, proxyId < n

theorem Below.mono {m : ℕ} (h : Below n r) (hle : n ≤ m) : Below m r where
  pidToProxy pid e he := Nat.lt_of_lt_of_le (h.pidToProxy pid e he) hle
  proxyToNames entry hentry := Nat.lt_of_lt_of_le (h.proxyToNames entry hentry) hle
  logged proxyId hlogging := Nat.lt_of_lt_of_le (h.logged proxyId hlogging) hle

theorem Below.ofRoutes {routes : Router} (h : Below n r)
    (hroutes : ∀ pid e, routes.pidToProxy pid = some e → r.routes.pidToProxy pid = some e) :
    Below n { r with routes } where
  pidToProxy pid e he := h.pidToProxy pid e (hroutes pid e he)
  proxyToNames := h.proxyToNames
  logged := h.logged

theorem mem_emplace {names : List (ℕ × Text)} {entry other : ℕ × Text}
    (h : other ∈ emplace names entry) : other = entry ∨ other ∈ names := by
  obtain hfront | hback := List.mem_append.mp h
  · exact .inr ((List.takeWhile_prefix _).subset hfront)
  · obtain rfl | hback := List.mem_cons.mp hback
    · exact .inl rfl
    · exact .inr ((List.dropWhile_suffix _).subset hback)

theorem associateName_below (h : Below r.size r) (processName : Text) (proxyId : ℕ)
    (stored : Bool) : Below r.size
      (associateProcessNameToProxy toUpper r processName proxyId stored).2 := by
  unfold associateProcessNameToProxy
  split_ifs with hrange hstored
  · exact h
  · refine ⟨h.pidToProxy, fun entry hentry => ?_, h.logged⟩
    obtain rfl | hmem := mem_emplace hentry
    · exact Nat.lt_of_not_le hrange
    · exact h.proxyToNames entry hmem
  · exact h

theorem associatePid_below (h : Below r.size r) (pid : DWORD) (proxyId : ℕ) (creationTime : FileTime)
    (stored : Bool) : Below r.size (associatePid r pid proxyId creationTime stored).2 := by
  unfold associatePid
  obtain hfailed | ⟨hrange, hstored⟩ :=
    associateProcessIdToProxy_cases r.routes pid proxyId creationTime stored
  · rw [hfailed]
    exact h
  · rw [hstored]
    refine ⟨fun q e he => ?_, h.proxyToNames, fun id hid => ?_⟩
    · simp only [setRoute_apply] at he
      split_ifs at he with hq
      · exact Option.some.inj he ▸ hrange
      · exact h.pidToProxy q e he
    · obtain rfl | hid := List.mem_cons.mp hid
      · exact hrange
      · exact h.logged id hid

theorem associate_size (pid : DWORD) (proxyId : ℕ) (creationTime : FileTime) (stored : Bool) :
    (associatePid r pid proxyId creationTime stored).2.size = r.size := by
  unfold associatePid Registry.size
  obtain hfailed | ⟨-, hstored⟩ :=
    associateProcessIdToProxy_cases r.routes pid proxyId creationTime stored
  · rw [hfailed]
  · rw [hstored]
    rfl

theorem associateName_size (processName : Text) (proxyId : ℕ) (stored : Bool) :
    (associateProcessNameToProxy toUpper r processName proxyId stored).2.size = r.size := by
  unfold associateProcessNameToProxy
  split_ifs <;> rfl

theorem addSocks5Proxy_below (h : Below r.size r) (servers : Option ProxyServers) :
    Below (addSocks5Proxy r servers).2.size (addSocks5Proxy r servers).2 := by
  cases servers with
  | none => exact h
  | some servers =>
    -- the tables stay, and the vector grows
    have hle : r.size ≤ (addSocks5Proxy r (some servers)).2.size := by
      simp [Registry.size, addSocks5Proxy]
    have hgrown := h.mono hle
    exact ⟨hgrown.pidToProxy, hgrown.proxyToNames, hgrown.logged⟩

/-- One operation keeps the indices in range: no index is stored without the test, and no proxy is
    ever taken out. -/
theorem below_step (h : Below r.size r) (hstep : step toUpper r operation = some r') :
    Below r'.size r' := by
  cases operation with
  | addProxy servers =>
    obtain rfl := Option.some.inj hstep
    exact addSocks5Proxy_below h servers
  | associateName processName proxy stored =>
    obtain rfl := Option.some.inj hstep
    rw [associateName_size]
    exact associateName_below h processName (sizeT proxy) stored
  | associatePid pid proxy creationTime stored =>
    obtain rfl := Option.some.inj hstep
    rw [associate_size]
    exact associatePid_below h pid (sizeT proxy) (splitFileTime creationTime) stored
  | logRoute proxyId =>
    simp only [step] at hstep
    split_ifs at hstep with hlogging
    obtain rfl := Option.some.inj hstep
    exact ⟨h.pidToProxy, h.proxyToNames, fun id hid => h.logged id (List.mem_of_mem_erase hid)⟩
  | removePid pid =>
    obtain rfl := Option.some.inj hstep
    refine h.ofRoutes fun q e he => ?_
    simp only [removeProcessId, setRoute_apply] at he
    split_ifs at he
    exact he
  | clear =>
    obtain rfl := Option.some.inj hstep
    refine h.ofRoutes fun q e he => ?_
    cases he
  | sweep times =>
    obtain rfl := Option.some.inj hstep
    exact h.ofRoutes fun q e he => cleanupStalePidRoutes_some he

end Invariant

section Indexing
variable {cfg : Config} {routes : Router} {times : ProcessTimes} {server : ProxyServers → Option Port}
  {process : NetworkProcess} {proxyId : ℕ}

theorem matchNames_mem {names : List (ℕ × Text)} :
    ∀ {process : NetworkProcess}, (matchNames cfg process names).1 = some proxyId →
      ∃ entry ∈ names, entry.1 = proxyId := by
  induction names with
  | nil =>
    intro process h
    cases h
  | cons entry names ih =>
    intro process h
    obtain ⟨id, pattern⟩ := entry
    unfold matchNames at h
    dsimp only at h
    split_ifs at h
    · exact ⟨(id, pattern), List.mem_cons_self, Option.some.inj h⟩
    · obtain ⟨other, hother, hid⟩ := ih h
      exact ⟨other, List.mem_cons_of_mem _ hother, hid⟩

theorem proxyIndex_mem (h : proxyIndex cfg routes times process = some proxyId) :
    (∃ pid e, routes.pidToProxy pid = some e ∧ e.proxyId = proxyId) ∨
      ∃ entry ∈ cfg.proxyToNames, entry.1 = proxyId := by
  unfold proxyIndex at h
  cases hhit : pidRouteHit routes times process.id with
  | some e =>
    rw [hhit] at h
    exact .inl ⟨process.id, e, (pidRouteHit_iff.mp hhit).1, Option.some.inj h⟩
  | none =>
    rw [hhit] at h
    exact .inr (matchNames_mem h)

/-- In range, a lookup is that of the packet path. -/
theorem lookupPort_eq
    (h : ∀ proxyId, proxyIndex cfg routes times process = some proxyId →
      proxyId < routes.proxyServers.length) :
    lookupPort cfg routes times server process =
      some (getProxyPort cfg routes times server process).1 := by
  have hports : (getProxyPort cfg routes times server process).1 =
      (proxyIndex cfg routes times process).bind (serverPort routes server) := by
    unfold getProxyPort proxyIndex
    cases pidRouteHit routes times process.id <;> rfl
  rw [hports]
  unfold lookupPort
  cases hindex : proxyIndex cfg routes times process with
  | none => rfl
  | some proxyId =>
    have hrange := h proxyId hindex
    simp only [Option.bind_some, serverPort, List.getElem?_eq_getElem hrange, Option.map_some]

/-- Whatever is added, associated and removed, with whatever handles, every stored index is in
    range, and so is every access of a lookup. -/
theorem indicesInRange_always (toUpper : Char → Char) (operations : List Operation) :
    Always (step toUpper) IndicesInRange init operations := by
  have hinit : Below init.size init := by
    refine ⟨fun pid e he => ?_, List.forall_mem_nil _, List.forall_mem_nil _⟩
    cases he
  refine always_mono (fun r h => ?_)
    (always_of_invariant (fun r operation r' h hstep => below_step h hstep) operations hinit)
  refine ⟨h.pidToProxy, h.proxyToNames, h.logged, fun cfg times server process => ?_⟩
  rw [lookupPort_eq, Option.isSome_some]
  intro proxyId hindex
  obtain ⟨pid, e, he, rfl⟩ | ⟨entry, hentry, rfl⟩ := proxyIndex_mem hindex
  · exact h.pidToProxy pid e he
  · exact h.proxyToNames entry hentry

theorem associate_new_handle (toUpper : Char → Char) {r r' : Registry} {servers : Option ProxyServers}
    {proxyId : ℕ} (hadd : addSocks5Proxy r servers = (some proxyId, r')) (hsize : r'.size ≤ 2 ^ 64)
    (processName : Text) :
    (associateProcessNameToProxy toUpper r' processName (sizeT (handleOf (some proxyId))) true).1 =
      true := by
  cases servers with
  | none => cases hadd
  | some servers =>
    obtain ⟨hid, hr'⟩ := Prod.mk.inj hadd
    have hlength : proxyId + 1 = (r.routes.proxyServers ++ [servers]).length := by
      rw [← Option.some.inj hid, List.length_append]
      rfl
    have hsucc : r'.size = proxyId + 1 := by
      rw [← hr', hlength]
      rfl
    have hhandle : sizeT (handleOf (some proxyId)) = proxyId := Nat.mod_eq_of_lt (by omega)
    unfold associateProcessNameToProxy
    rw [hhandle, if_neg (by omega), if_pos rfl]

theorem associate_failed_handle (toUpper : Char → Char) {r : Registry} (hsize : r.size < 2 ^ 64)
    (processName : Text) (pid : DWORD) (creationTime : FileTime) (stored : Bool) :
    associateProcessNameToProxy toUpper r processName (sizeT (handleOf none)) stored = (false, r) ∧
      associatePid r pid (sizeT (handleOf none)) creationTime stored = (false, r) := by
  have hhandle : sizeT (handleOf none) = 2 ^ 64 - 1 := by decide
  have hrange : r.size ≤ sizeT (handleOf none) := by omega
  refine ⟨if_pos hrange, ?_⟩
  have hrefused : associateProcessIdToProxy r.routes pid (sizeT (handleOf none)) creationTime stored =
      (false, r.routes) := if_pos hrange
  unfold associatePid
  rw [hrefused]
  rfl

end Indexing

end ProxySwitch.ProxyIndices
