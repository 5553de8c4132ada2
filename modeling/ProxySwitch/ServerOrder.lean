import ProxySwitch.ServerHandlers

set_option autoImplicit false

namespace ProxySwitch.RouterLifecycle
open CompletionPort

variable {w : ℕ} {ο : Type} {n : ℕ}

/-! ### What a call has still to do -/

section Programs

def Op.isStart : Op → Bool
  | .startPool | .poolStarted | .startServer _ _ | .startFilter | .register _ => true
  | _ => false

def Op.targets : Op → List ℕ
  | .startServer v discards => v :: discards
  | .stopServer v | .destroy v => [v]
  | .register servers => servers
  | _ => []

def Op.subject : Op → Option ℕ
  | .startServer v _ | .stopServer v => some v
  | _ => none

/-- A server is in the middle of a `start()` or `stop()` only while that is the first thing to do. -/
def Attended (todo : List Op) (v : ℕ) : Stage → Prop
  | .idle | .running | .cleared => True
  | .starting | .reserved => ∃ discards rest, todo = .startServer v discards :: rest
  | .ending | .waiting _ | .waited => ∃ rest, todo = .stopServer v :: rest

/-- The pool is stopped before it is drained, what is stopped is drained or destroyed, and nothing is
    destroyed that the router keeps. -/
def Sound (kept : List ℕ) : Bool → List Op → Prop
  | _, [] => True
  | _, .startPool :: rest => (∃ rest', rest = .poolStarted :: rest') ∧ Sound kept true rest
  | active, .startServer _ discards :: rest => (∀ u ∈ discards, u ∉ kept) ∧ Sound kept active rest
  | active, .stopServer v :: rest => (.drain ∈ rest ∨ .destroy v ∈ rest) ∧ Sound kept active rest
  | _, .stopPool :: rest => Sound kept false rest
  | active, .drain :: rest => active = false ∧ Sound kept active rest
  | _, .register _ :: rest => rest = []
  | active, .destroy v :: rest => v ∉ kept ∧ Sound kept active rest
  | active, .poolStarted :: rest | active, .startFilter :: rest | active, .deactivate :: rest =>
    Sound kept active rest

variable {kept : List ℕ} {active : Bool}

theorem sound_stops (servers : List ℕ) (rest : List Op) (hrest : Sound kept active rest) (hdrain : .drain ∈ rest) :
    Sound kept active (servers.map Op.stopServer ++ rest) := by
  induction servers with
  | nil => exact hrest
  | cons v servers ih => exact ⟨.inl (List.mem_append.mpr (.inr hdrain)), ih⟩

theorem sound_starts (servers discards : List ℕ) (rest : List Op) (hdiscards : ∀ u ∈ discards, u ∉ kept)
    (hrest : Sound kept active rest) :
    Sound kept active (servers.map (fun v => Op.startServer v discards) ++ rest) := by
  induction servers with
  | nil => exact hrest
  | cons v servers ih => exact ⟨hdiscards, ih⟩

theorem sound_discards {discards : List ℕ} (hdiscards : ∀ u ∈ discards, u ∉ kept) :
    Sound kept active (discards.flatMap fun v => [Op.stopServer v, Op.destroy v]) := by
  induction discards with
  | nil => trivial
  | cons v discards ih =>
    have hrest := ih fun u hu => hdiscards u (List.mem_cons_of_mem v hu)
    exact ⟨.inr List.mem_cons_self, hdiscards v List.mem_cons_self, hrest⟩

def OneKind (todo : List Op) : Prop := (∀ op ∈ todo, op.isStart = true) ∨ ∀ op ∈ todo, op.isStart = false

theorem OneKind.tail {op : Op} {rest : List Op} (h : OneKind (op :: rest)) : OneKind rest :=
  h.imp (fun h' o ho => h' o (List.mem_cons_of_mem op ho)) fun h' o ho => h' o (List.mem_cons_of_mem op ho)

theorem OneKind.of_head {op : Op} {rest : List Op} (h : OneKind (op :: rest)) :
    ∀ o ∈ op :: rest, o.isStart = op.isStart := by
  intro o ho
  obtain h | h := h
  · rw [h o ho, h op List.mem_cons_self]
  · rw [h o ho, h op List.mem_cons_self]

end Programs

section Orderly

structure Orderly (r : Router w ο) : Prop where
  kind : OneKind r.todo
  attended : ∀ v, Attended r.todo v (r.servers v).stage
  cleared : ∀ v, (r.servers v).stage = .cleared →
    (r.servers v).destroyed = true ∨ .drain ∈ r.todo ∨ .destroy v ∈ r.todo
  sound : Sound r.proxyServers r.port.active r.todo
  kept : ∀ v ∈ r.proxyServers, v < r.nextServer ∧ (r.servers v).destroyed = false
  targets : ∀ op ∈ r.todo, ∀ v ∈ op.targets,
    v < r.nextServer ∧ (op.isStart = true → (r.servers v).destroyed = false)
  fresh : ∀ v, r.nextServer ≤ v → (r.servers v).stage = .idle ∧ (r.servers v).isTcp = true

def Stage.resting : Stage → Bool
  | .idle | .running | .cleared => true
  | _ => false

variable {r t : Router w ο} {op : Op} {rest : List Op} {v : ℕ}

theorem attended_of_resting {todo : List Op} {stage : Stage} (h : stage.resting = true) : Attended todo v stage := by
  cases stage with
  | idle | running | cleared => trivial
  | _ => cases h

theorem resting_of_attended {todo : List Op} {stage : Stage} (h : Attended todo v stage)
    (hstart : ∀ discards rest, todo ≠ .startServer v discards :: rest) (hstop : ∀ rest, todo ≠ .stopServer v :: rest) :
    stage.resting = true := by
  cases stage with
  | idle | running | cleared => rfl
  | starting | reserved =>
    obtain ⟨discards, rest, htodo⟩ := h
    exact absurd htodo (hstart discards rest)
  | ending | waiting _ | waited =>
    obtain ⟨rest, htodo⟩ := h
    exact absurd htodo (hstop rest)

theorem Orderly.rests (h : Orderly r) (htodo : r.todo = op :: rest) (hop : op.subject ≠ some v) :
    (r.servers v).stage.resting = true := by
  refine resting_of_attended (h.attended v) (fun discards rest' htodo' => hop ?_) fun rest' htodo' => hop ?_
  · rw [htodo, List.cons.injEq] at htodo'
    rw [htodo'.1]
    rfl
  · rw [htodo, List.cons.injEq] at htodo'
    rw [htodo'.1]
    rfl

theorem Orderly.pop (h : Orderly r) (htodo : r.todo = op :: rest) (ht : t.todo = rest)
    (hresting : ∀ v, (t.servers v).stage.resting = true)
    (hcleared : ∀ v, (t.servers v).stage = .cleared →
      (t.servers v).destroyed = true ∨ .drain ∈ rest ∨ .destroy v ∈ rest)
    (hsound : Sound t.proxyServers t.port.active rest)
    (hkept : ∀ v ∈ t.proxyServers, v < r.nextServer ∧ (r.servers v).destroyed = false)
    (hdestroyed : ∀ v, (t.servers v).destroyed = (r.servers v).destroyed) (hnext : t.nextServer = r.nextServer)
    (hfresh : ∀ v, r.nextServer ≤ v → (t.servers v).stage = .idle ∧ (t.servers v).isTcp = true) : Orderly t := by
  have hkind := h.kind
  have htargets := h.targets
  rw [htodo] at hkind htargets
  constructor
  · rw [ht]
    exact hkind.tail
  · exact fun v => attended_of_resting (hresting v)
  · rw [ht]
    exact hcleared
  · rw [ht]
    exact hsound
  · intro v hv
    rw [hnext, hdestroyed]
    exact hkept v hv
  · intro o ho v hv
    rw [ht] at ho
    rw [hnext, hdestroyed]
    exact htargets o (List.mem_cons_of_mem op ho) v hv
  · rw [hnext]
    exact hfresh

theorem Orderly.stay (h : Orderly r) (ht : t.todo = r.todo) (hproxies : t.proxyServers = r.proxyServers)
    (hactive : t.port.active = r.port.active) (hnext : t.nextServer = r.nextServer) (hv : v < r.nextServer)
    (hother : ∀ u, u ≠ v → t.servers u = r.servers u) (hattended : Attended r.todo v (t.servers v).stage)
    (hstage : (t.servers v).stage ≠ .cleared) (hdestroyed : (t.servers v).destroyed = (r.servers v).destroyed) :
    Orderly t := by
  have hsame : ∀ u, (t.servers u).destroyed = (r.servers u).destroyed := by
    intro u
    by_cases hu : u = v
    · rw [hu, hdestroyed]
    · rw [hother u hu]
  constructor
  · rw [ht]
    exact h.kind
  · intro u
    rw [ht]
    by_cases hu : u = v
    · rw [hu]
      exact hattended
    · rw [hother u hu]
      exact h.attended u
  · intro u hu
    rw [ht, hsame]
    by_cases huv : u = v
    · rw [huv] at hu
      exact absurd hu hstage
    · rw [hother u huv] at hu
      exact h.cleared u hu
  · rw [ht, hproxies, hactive]
    exact h.sound
  · rw [hproxies, hnext]
    intro u hu
    rw [hsame]
    exact h.kept u hu
  · rw [ht, hnext]
    intro o ho u hu
    rw [hsame]
    exact h.targets o ho u hu
  · rw [hnext]
    intro u hu
    rw [hother u (by omega)]
    exact h.fresh u hu

end Orderly

/-! ### Starting a server -/

structure WorldOk (r : Router w ο) : Prop where
  orderly : Orderly r
  servers : ∀ v, ServerOk r.port v (r.servers v)
  settled : (∀ v, (r.servers v).stage ≠ .reserved) → r.port.associating = []

section Starting

variable {r t : Router w ο} {rest : List Op} {discards : List ℕ} {v : ℕ} {server : Server w}

theorem servers_update {q : IoCompletionPort w ο ℕ Phase} (hother : ∀ u, u ≠ v → ServerOk q u (r.servers u))
    (hv : ServerOk q v server) (u : ℕ) : ServerOk q u (Function.update r.servers v server u) := by
  by_cases hu : u = v
  · subst hu
    rw [Function.update_self]
    exact hv
  · rw [Function.update_of_ne hu]
    exact hother u hu

theorem Stage.ne_reserved {stage : Stage} (h : stage.resting = true) : stage ≠ .reserved := by
  rintro rfl
  cases h

/-- While servers are being started nothing waits to be drained, so what is cleared is destroyed. -/
theorem Orderly.gone (h : Orderly r) {op : Op} {u : ℕ} (htodo : r.todo = op :: rest) (hop : op.isStart = true)
    (hu : (r.servers u).stage = .cleared) : (r.servers u).destroyed = true := by
  have hkind := h.kind
  rw [htodo] at hkind
  obtain hdestroyed | hdrain | hdestroy := h.cleared u hu
  · exact hdestroyed
  · rw [htodo] at hdrain
    have hdrain := hkind.of_head _ hdrain
    rw [hop] at hdrain
    cases hdrain
  · rw [htodo] at hdestroy
    have hdestroy := hkind.of_head _ hdestroy
    rw [hop] at hdestroy
    cases hdestroy

theorem Orderly.not_cleared (h : Orderly r) (htodo : r.todo = .startServer v discards :: rest) :
    (r.servers v).stage ≠ .cleared := by
  intro hstage
  have hmem : Op.startServer v discards ∈ r.todo := by simp [htodo]
  have hdestroyed := h.gone htodo rfl hstage
  rw [(h.targets _ hmem v List.mem_cons_self).2 rfl] at hdestroyed
  cases hdestroyed

/-- `start()` of server `v` leads from `r` to `t`, what is left to do apart. -/
structure StartLeads (r t : Router w ο) (v : ℕ) : Prop where
  proxies : t.proxyServers = r.proxyServers
  active : t.port.active = r.port.active
  next : t.nextServer = r.nextServer
  other : ∀ u, u ≠ v → t.servers u = r.servers u
  resting : (t.servers v).stage.resting = true
  uncleared : (t.servers v).stage ≠ .cleared
  destroyed : (t.servers v).destroyed = (r.servers v).destroyed

theorem StartLeads.same (h : StartLeads r t v) (u : ℕ) : (t.servers u).destroyed = (r.servers u).destroyed := by
  by_cases hu : u = v
  · rw [hu, h.destroyed]
  · rw [h.other u hu]

theorem StartLeads.rests (h : StartLeads r t v) (horderly : Orderly r) (htodo : r.todo = .startServer v discards :: rest)
    (u : ℕ) : (t.servers u).stage.resting = true := by
  by_cases hu : u = v
  · rw [hu]
    exact h.resting
  · rw [h.other u hu]
    exact horderly.rests htodo fun hop => hu (Option.some.inj hop).symm

theorem StartLeads.gone (h : StartLeads r t v) (horderly : Orderly r) (htodo : r.todo = .startServer v discards :: rest)
    {u : ℕ} (hu : (t.servers u).stage = .cleared) : (t.servers u).destroyed = true := by
  have huv : u ≠ v := by
    rintro rfl
    exact h.uncleared hu
  rw [h.other u huv] at hu ⊢
  exact horderly.gone htodo rfl hu

theorem StartLeads.fresh (h : StartLeads r t v) (horderly : Orderly r) (htodo : r.todo = .startServer v discards :: rest)
    {u : ℕ} (hu : r.nextServer ≤ u) : (t.servers u).stage = .idle ∧ (t.servers u).isTcp = true := by
  have hmem : Op.startServer v discards ∈ r.todo := by simp [htodo]
  have hlt := (horderly.targets _ hmem v List.mem_cons_self).1
  rw [h.other u (by omega)]
  exact horderly.fresh u hu

theorem StartLeads.orderly (h : StartLeads r t v) (horderly : Orderly r) (htodo : r.todo = .startServer v discards :: rest)
    (ht : t.todo = rest) : Orderly t := by
  have hsound := horderly.sound
  rw [htodo] at hsound
  refine horderly.pop htodo ht (h.rests horderly htodo) (fun u hu => .inl (h.gone horderly htodo hu)) ?_ ?_ h.same
    h.next fun u hu => h.fresh horderly htodo hu
  · rw [h.proxies, h.active]
    exact hsound.2
  · rw [h.proxies]
    exact horderly.kept

theorem StartLeads.failed (h : StartLeads r t v) (horderly : Orderly r)
    (htodo : r.todo = .startServer v discards :: rest) : Orderly (t.startFailed discards rest) := by
  by_cases hempty : discards = []
  · have hleads : StartLeads r (t.startFailed discards rest) v :=
      ⟨h.proxies, h.active, h.next, h.other, h.resting, h.uncleared, h.destroyed⟩
    exact hleads.orderly horderly htodo (by simp [Router.startFailed, hempty])
  · have hmem : Op.startServer v discards ∈ r.todo := by simp [htodo]
    have hv := horderly.targets _ hmem
    have hsound := horderly.sound
    rw [htodo] at hsound
    have hops : (t.startFailed discards rest).todo = discards.flatMap fun v => [Op.stopServer v, Op.destroy v] := by
      simp [Router.startFailed, hempty]
    have hstops : ∀ op ∈ discards.flatMap fun v => [Op.stopServer v, Op.destroy v],
        op.isStart = false ∧ ∀ u ∈ op.targets, u ∈ discards := by
      intro op hop
      obtain ⟨u, hu, hop⟩ := List.mem_flatMap.mp hop
      simp only [List.mem_cons, List.not_mem_nil, or_false] at hop
      obtain rfl | rfl := hop
      · exact ⟨rfl, fun x hx => List.mem_singleton.mp hx ▸ hu⟩
      · exact ⟨rfl, fun x hx => List.mem_singleton.mp hx ▸ hu⟩
    constructor
    · rw [hops]
      exact .inr fun op hop => (hstops op hop).1
    · exact fun u => attended_of_resting (h.rests horderly htodo u)
    · exact fun u hu => .inl (h.gone horderly htodo hu)
    · rw [hops]
      simp only [Router.startFailed, h.proxies, h.active]
      exact sound_discards hsound.1
    · simp only [Router.startFailed, h.proxies, h.next, h.same]
      exact horderly.kept
    · rw [hops]
      intro op hop u hu
      obtain ⟨hstop, htargets⟩ := hstops op hop
      simp only [Router.startFailed, h.next]
      refine ⟨(hv u (List.mem_cons_of_mem v (htargets u hu))).1, fun hstart => ?_⟩
      rw [hstop] at hstart
      cases hstart
    · simp only [Router.startFailed, h.next]
      exact fun u hu => h.fresh horderly htodo hu

/-- A server that rests holds no handler, except where it runs. -/
theorem TcpOk.unregistered {p : IoCompletionPort w ο ℕ Phase} (h : TcpOk p v server)
    (hstage : server.stage = .idle ∨ server.stage = .starting) (k : BitVec w) : p.handlers k ≠ some v := by
  intro hk
  obtain ⟨-, hreserved | ⟨hrunning | hending, -⟩⟩ := h.registered k hk
  · rw [hreserved] at hstage
    simp at hstage
  · rw [hrunning] at hstage
    simp at hstage
  · rw [hending] at hstage
    simp at hstage

theorem TcpOk.no_calls {p : IoCompletionPort w ο ℕ Phase} (h : TcpOk p v server) (hquiet : server.stage.quiet = true)
    (c : Completion w ο) (phase : Phase) : .calling v c phase ∉ p.threads := by
  intro hmem
  rw [(h.calls c phase hmem).2] at hquiet
  cases hquiet

theorem WorldOk.begin (h : WorldOk r) (htodo : r.todo = .startServer v discards :: rest)
    (hstage : (r.servers v).stage = .idle) :
    WorldOk (r.setServer v { r.servers v with
      endServer := false, stage := .starting, proxySockets := true, gaveUp := false }) := by
  have hmem : Op.startServer v discards ∈ r.todo := by simp [htodo]
  have hv := (h.orderly.targets _ hmem v List.mem_cons_self).1
  refine ⟨h.orderly.stay rfl rfl rfl rfl hv (fun u hu => Function.update_of_ne hu _ _) ?_ ?_ ?_,
    servers_update (fun u _ => h.servers u) ?_, fun hnone => h.settled fun u hu => hnone u ?_⟩
  · simp only [Router.setServer, Function.update_self]
    exact ⟨discards, rest, htodo⟩
  · simp [Router.setServer]
  · simp [Router.setServer]
  · refine ⟨rfl, fun hcontra => (by cases hcontra), fun htcp => ?_⟩
    have hok := (h.servers v).tcp htcp
    have hcalls := hok.no_calls (by rw [hstage]; rfl)
    exact ⟨fun k hk => absurd hk (hok.unregistered (.inl hstage) k), hok.counted,
      fun c phase hc => absurd hc (hcalls c phase), fun _ c hc => absurd hc (hcalls c _), fun _ => rfl⟩
  · have huv : u ≠ v := by
      rintro rfl
      rw [hstage] at hu
      cases hu
    simp only [Router.setServer, Function.update_of_ne huv]
    exact hu

theorem WorldOk.reserve (h : WorldOk r) (hregistry : RegistryOk r.port) (htodo : r.todo = .startServer v discards :: rest)
    (hstage : (r.servers v).stage = .starting) (hdrawn : (r.reserveKey v discards).port.drawn < 2 ^ w) :
    WorldOk (r.reserveKey v discards) := by
  have hdrawn' : (r.port.reserve v).drawn < 2 ^ w := by
    unfold Router.reserveKey at hdrawn
    simp only at hdrawn
    split at hdrawn <;> exact hdrawn
  have hgenerated := generateKey_eq hregistry hdrawn'
  have hport := reserve_eq hregistry hdrawn'
  have heq : r.reserveKey v discards = { r.setServer v { r.servers v with
      stage := .reserved, sessionKey := r.port.nextKey } with port := r.port.reserve v } := by
    unfold Router.reserveKey
    simp only [hgenerated]
    rfl
  have hmem : Op.startServer v discards ∈ r.todo := by simp [htodo]
  have hv := (h.orderly.targets _ hmem v List.mem_cons_self).1
  have hrests : ∀ u, u ≠ v → (r.servers u).stage.resting = true := fun u hu =>
    h.orderly.rests htodo fun hop => hu (Option.some.inj hop).symm
  have hempty : r.port.associating = [] := by
    refine h.settled fun u => ?_
    by_cases hu : u = v
    · rw [hu, hstage]
      simp
    · exact Stage.ne_reserved (hrests u hu)
  rw [heq, hport]
  refine ⟨h.orderly.stay rfl rfl rfl rfl hv (fun u hu => Function.update_of_ne hu _ _) ?_ ?_ ?_,
    servers_update (fun u hu => ?_) ?_, fun hnone => ?_⟩
  · simp only [Router.setServer, Function.update_self]
    exact ⟨discards, rest, htodo⟩
  · simp [Router.setServer]
  · simp [Router.setServer]
  · refine (h.servers u).frame rfl (fun k hk => ?_) fun hcontra => absurd hcontra (Stage.ne_reserved (hrests u hu))
    change Function.update r.port.handlers r.port.nextKey (some v) k = some u at hk
    by_cases hsame : k = r.port.nextKey
    · rw [hsame, Function.update_self] at hk
      exact absurd (Option.some.inj hk).symm hu
    · rwa [Function.update_of_ne hsame] at hk
  · refine ⟨?_, fun _ => by rw [hempty]; rfl, fun htcp => ?_⟩
    · rw [(h.servers v).ended, hstage]
      rfl
    · have hok := (h.servers v).tcp htcp
      have hcalls := hok.no_calls (by rw [hstage]; rfl)
      refine ⟨fun k hk => ⟨?_, .inl rfl⟩, hok.counted, fun c phase hc => absurd hc (hcalls c phase),
        fun _ c hc => absurd hc (hcalls c _), fun _ => hok.sockets (by rw [hstage]; rfl)⟩
      change Function.update r.port.handlers r.port.nextKey (some v) k = some v at hk
      by_contra hsame
      rw [Function.update_of_ne hsame] at hk
      exact hok.unregistered (.inr hstage) k hk
  · have hcontra := hnone v
    simp [Router.setServer] at hcontra

theorem leads_setServer {q : IoCompletionPort w ο ℕ Phase} {todo : List Op} (hactive : q.active = r.port.active)
    (hresting : server.stage.resting = true) (hcleared : server.stage ≠ .cleared)
    (hdestroyed : server.destroyed = (r.servers v).destroyed) :
    StartLeads r { r.setServer v server with port := q, todo := todo } v := by
  refine ⟨rfl, hactive, rfl, fun u hu => Function.update_of_ne hu _ _, ?_, ?_, ?_⟩
  · simpa only [Router.setServer, Function.update_self] using hresting
  · simpa only [Router.setServer, Function.update_self] using hcleared
  · simpa only [Router.setServer, Function.update_self] using hdestroyed

theorem WorldOk.runKeyless (h : WorldOk r) (htodo : r.todo = .startServer v discards :: rest)
    (hstage : (r.servers v).stage = .starting) :
    WorldOk { r.setServer v { r.servers v with stage := .running } with todo := rest } := by
  have hleads : StartLeads r { r.setServer v { r.servers v with stage := .running } with port := r.port, todo := rest } v :=
    leads_setServer rfl rfl (by simp) rfl
  refine ⟨hleads.orderly h.orderly htodo rfl, servers_update (fun u _ => h.servers u) ?_,
    fun hnone => h.settled fun u hu => hnone u ?_⟩
  · refine ⟨?_, fun hcontra => (by cases hcontra), fun htcp => ?_⟩
    · rw [(h.servers v).ended, hstage]
      rfl
    · have hok := (h.servers v).tcp htcp
      have hcalls := hok.no_calls (by rw [hstage]; rfl)
      exact ⟨fun k hk => absurd hk (hok.unregistered (.inr hstage) k), hok.counted,
        fun c phase hc => absurd hc (hcalls c phase), fun _ c hc => absurd hc (hcalls c _),
        fun _ => hok.sockets (by rw [hstage]; rfl)⟩
  · have huv : u ≠ v := by
      rintro rfl
      rw [hstage] at hu
      cases hu
    simp only [Router.setServer, Function.update_of_ne huv]
    exact hu

theorem answered_eq (h : WorldOk r) (hstage : (r.servers v).stage = .reserved) (success : Bool) :
    r.answered success = r.port.associated 0 (r.servers v).sessionKey v success := by
  simp only [Router.answered, (h.servers v).reserved hstage]

theorem WorldOk.associate (h : WorldOk r) (htodo : r.todo = .startServer v discards :: rest)
    (hstage : (r.servers v).stage = .reserved) (success posted : Bool) :
    WorldOk (r.associated v discards rest success posted) := by
  have hreserved := (h.servers v).reserved hstage
  have hanswered := answered_eq h hstage success
  have hempty : (r.answered success).associating = [] := by
    rw [hanswered]
    cases success <;> simp [IoCompletionPort.associated, hreserved]
  have hactive : (r.answered success).active = r.port.active := by
    rw [hanswered]
    cases success <;> rfl
  have hthreads : (r.answered success).threads = r.port.threads := by
    rw [hanswered]
    cases success <;> rfl
  have hhandlers : ∀ u k, (r.answered success).handlers k = some u → r.port.handlers k = some u ∧
      (success = false → k ≠ (r.servers v).sessionKey) := by
    intro u k hk
    rw [hanswered] at hk
    cases success with
    | true => exact ⟨hk, fun hcontra => by cases hcontra⟩
    | false =>
      change Function.update r.port.handlers (r.servers v).sessionKey none k = some u at hk
      by_cases hsame : k = (r.servers v).sessionKey
      · rw [hsame, Function.update_self] at hk
        cases hk
      · rw [Function.update_of_ne hsame] at hk
        exact ⟨hk, fun _ => hsame⟩
  have hother : ∀ u, u ≠ v → ServerOk (r.answered success) u (r.servers u) := fun u hu =>
    (h.servers u).frame hthreads (fun k hk => (hhandlers u k hk).1) fun hcontra =>
      absurd hcontra (Stage.ne_reserved (h.orderly.rests htodo fun hop => hu (Option.some.inj hop).symm))
  have hended := (h.servers v).ended
  rw [hstage] at hended
  have hquiet : (r.servers v).isTcp = true → ∀ c phase, .calling v c phase ∉ (r.answered success).threads := by
    intro htcp c phase
    rw [hthreads]
    exact ((h.servers v).tcp htcp).no_calls (by rw [hstage]; rfl) c phase
  have hcounted : (r.servers v).isTcp = true →
      (r.servers v).activeIocpOperations = inside v (r.answered success).threads := by
    intro htcp
    rw [hthreads]
    exact ((h.servers v).tcp htcp).counted
  have hsockets : (r.servers v).isTcp = true → (r.servers v).proxySockets = true := fun htcp =>
    ((h.servers v).tcp htcp).sockets (by rw [hstage]; rfl)
  unfold Router.associated
  simp only
  split_ifs with hsuccess htcp hposted
  · subst hsuccess
    have hleads : StartLeads r { r.setServer v { r.servers v with
        completionKey := (r.servers v).sessionKey, stage := .running } with
        port := r.answered true, todo := rest } v := leads_setServer hactive rfl (by simp) rfl
    refine ⟨hleads.orderly h.orderly htodo rfl, servers_update hother ?_, fun _ => hempty⟩
    refine ⟨hended, fun hcontra => (by cases hcontra), fun _ => ⟨fun k hk => ?_, hcounted htcp,
      fun c phase hc => absurd hc (hquiet htcp c phase), fun _ c hc => absurd hc (hquiet htcp c _), fun _ => hsockets htcp⟩⟩
    obtain ⟨hkey, -⟩ := ((h.servers v).tcp htcp).registered k (hhandlers v k hk).1
    exact ⟨hkey, .inr ⟨.inl rfl, hkey.symm⟩⟩
  · subst hsuccess
    have hleads : StartLeads r { r.setServer v { r.servers v with
        completionKey := (r.servers v).sessionKey, stage := .running
        activeIocpOperations := (r.servers v).activeIocpOperations + 1 } with
        port := r.answered true, todo := rest } v := leads_setServer hactive rfl (by simp) rfl
    refine ⟨hleads.orderly h.orderly htodo rfl, servers_update hother ?_, fun _ => hempty⟩
    exact ⟨hended, fun hcontra => (by cases hcontra), fun hcontra => absurd hcontra htcp⟩
  · subst hsuccess
    have hleads : StartLeads r { r.setServer v { r.servers v with
        completionKey := (r.servers v).sessionKey, stage := .idle, endServer := true } with
        port := r.answered true, todo := r.todo } v := leads_setServer hactive rfl (by simp) rfl
    refine ⟨hleads.failed h.orderly htodo, servers_update hother ?_, fun _ => hempty⟩
    exact ⟨rfl, fun hcontra => (by cases hcontra), fun hcontra => absurd hcontra htcp⟩
  · have hfalse := Bool.eq_false_of_not_eq_true hsuccess
    subst hfalse
    have hleads : StartLeads r { r.setServer v { r.servers v with stage := .idle, endServer := true } with
        port := r.answered false, todo := r.todo } v := leads_setServer hactive rfl (by simp) rfl
    refine ⟨hleads.failed h.orderly htodo, servers_update hother ?_, fun _ => hempty⟩
    refine ⟨rfl, fun hcontra => (by cases hcontra), fun htcp => ⟨fun k hk => ?_, hcounted htcp,
      fun c phase hc => absurd hc (hquiet htcp c phase), fun _ c hc => absurd hc (hquiet htcp c _),
      fun hcontra => (by cases hcontra)⟩⟩
    obtain ⟨hold, hne⟩ := hhandlers v k hk
    exact absurd (((h.servers v).tcp htcp).registered k hold).1 (hne rfl)

theorem WorldOk.startServer (h : WorldOk r) (hregistry : RegistryOk r.port)
    (htodo : r.todo = .startServer v discards :: rest) {outcome posted : Bool}
    (hdrawn : (r.startServer v discards rest outcome posted).port.drawn < 2 ^ w) :
    WorldOk (r.startServer v discards rest outcome posted) := by
  have hended := (h.servers v).ended
  have hattended := h.orderly.attended v
  unfold Router.startServer at hdrawn ⊢
  cases hstage : (r.servers v).stage with
  | idle =>
    rw [hstage] at hended
    simp only [hstage, hended, Stage.ended, if_true]
    exact h.begin htodo hstage
  | starting =>
    simp only [hstage] at hdrawn ⊢
    split_ifs at hdrawn ⊢ with hsocket
    · exact h.reserve hregistry htodo hstage hdrawn
    · exact h.runKeyless htodo hstage
    · exact h.reserve hregistry htodo hstage hdrawn
    · exact h.runKeyless htodo hstage
  | reserved =>
    simp only [hstage]
    exact h.associate htodo hstage outcome posted
  | running =>
    rw [hstage] at hended
    simp only [hstage, hended, Stage.ended, Bool.false_eq_true, if_false]
    have hleads : StartLeads r { r with todo := rest } v :=
      ⟨rfl, rfl, rfl, fun u _ => rfl, by simp only [hstage]; rfl, by simp only [hstage]; simp, rfl⟩
    exact ⟨hleads.orderly h.orderly htodo rfl, h.servers, h.settled⟩
  | ending | waiting _ | waited =>
    rw [hstage] at hattended
    obtain ⟨rest', htodo'⟩ := hattended
    rw [htodo] at htodo'
    cases (List.cons.inj htodo').1
  | cleared => exact absurd hstage (h.orderly.not_cleared htodo)

end Starting

/-! ### Stopping a server -/

section Stopping

variable {r : Router w ο} {rest : List Op} {v : ℕ} {server : Server w}

theorem WorldOk.none_reserved (h : WorldOk r) (htodo : r.todo = .stopServer v :: rest) :
    r.port.associating = [] := by
  refine h.settled fun u hu => ?_
  have hattended := h.orderly.attended u
  rw [hu] at hattended
  obtain ⟨discards, rest', htodo'⟩ := hattended
  rw [htodo] at htodo'
  cases (List.cons.inj htodo').1

theorem WorldOk.stopping (h : WorldOk r) (htodo : r.todo = .stopServer v :: rest) {q : IoCompletionPort w ο ℕ Phase}
    (hactive : q.active = r.port.active) (hassociating : q.associating = r.port.associating)
    (hother : ∀ u, u ≠ v → ServerOk q u (r.servers u)) (hv : ServerOk q v server)
    (hstage : Attended r.todo v server.stage) (hcleared : server.stage ≠ .cleared)
    (hdestroyed : server.destroyed = (r.servers v).destroyed) :
    WorldOk { r.setServer v server with port := q } := by
  have hmem : Op.stopServer v ∈ r.todo := by simp [htodo]
  have hlt := (h.orderly.targets _ hmem v List.mem_cons_self).1
  refine ⟨h.orderly.stay rfl rfl hactive rfl hlt (fun u hu => Function.update_of_ne hu _ _) ?_ ?_ ?_,
    servers_update hother hv, fun _ => hassociating.trans (h.none_reserved htodo)⟩
  · simpa only [Router.setServer, Function.update_self] using hstage
  · simpa only [Router.setServer, Function.update_self] using hcleared
  · simpa only [Router.setServer, Function.update_self] using hdestroyed

theorem WorldOk.end (h : WorldOk r) (htodo : r.todo = .stopServer v :: rest) (hstage : (r.servers v).stage = .running) :
    WorldOk (r.setServer v { r.servers v with endServer := true, stage := .ending }) := by
  refine h.stopping htodo (q := r.port) rfl rfl (fun u _ => h.servers u) ?_ ⟨rest, htodo⟩ (by simp) rfl
  refine ⟨rfl, fun hcontra => (by cases hcontra), fun htcp => ?_⟩
  have hok := (h.servers v).tcp htcp
  refine ⟨fun k hk => ?_, hok.counted, fun c phase hc => ⟨(hok.calls c phase hc).1, rfl⟩, fun _ c hc => rfl,
    fun _ => hok.sockets (by rw [hstage]; rfl)⟩
  obtain ⟨hkey, hreserved | ⟨-, hsame⟩⟩ := hok.registered k hk
  · rw [hstage] at hreserved
    cases hreserved
  · exact ⟨hkey, .inr ⟨.inr rfl, hsame⟩⟩

theorem unregisterHandler_frame (p : IoCompletionPort w ο ℕ Phase) (key : BitVec w) :
    (p.unregisterHandler key).active = p.active ∧ (p.unregisterHandler key).associating = p.associating ∧
      (p.unregisterHandler key).threads = p.threads ∧
      ∀ u k, (p.unregisterHandler key).handlers k = some u → p.handlers k = some u ∧ k ≠ key := by
  unfold IoCompletionPort.unregisterHandler
  split_ifs with hkey
  · refine ⟨rfl, rfl, rfl, fun u k hk => ?_⟩
    by_cases hsame : k = key
    · simp [hsame] at hk
    · simp only [Function.update_of_ne hsame] at hk
      exact ⟨hk, hsame⟩
  · refine ⟨rfl, rfl, rfl, fun u k hk => ⟨hk, ?_⟩⟩
    rintro rfl
    rw [hk] at hkey
    exact hkey rfl

theorem unregistered_frame {p : IoCompletionPort w ο ℕ Phase} (h : RegistryOk p) (key : BitVec w) :
    (if key = 0 then p else p.unregisterHandler key).active = p.active ∧
      (if key = 0 then p else p.unregisterHandler key).associating = p.associating ∧
      (if key = 0 then p else p.unregisterHandler key).threads = p.threads ∧
      ∀ u k, (if key = 0 then p else p.unregisterHandler key).handlers k = some u → p.handlers k = some u ∧ k ≠ key := by
  split_ifs with hzero
  · refine ⟨rfl, rfl, rfl, fun u k hk => ⟨hk, ?_⟩⟩
    rw [hzero]
    exact (h.small _ (h.registered k u hk)).1
  · exact unregisterHandler_frame p key

theorem WorldOk.unregister (h : WorldOk r) (hregistry : RegistryOk r.port) (htodo : r.todo = .stopServer v :: rest)
    (hstage : (r.servers v).stage = .ending) : WorldOk (r.unregister v) := by
  obtain ⟨hactive, hassociating, hthreads, hhandlers⟩ := unregistered_frame hregistry (r.servers v).completionKey
  have hended := (h.servers v).ended
  rw [hstage] at hended
  refine h.stopping htodo hactive hassociating (fun u hu => ?_) ?_ ⟨rest, htodo⟩ (by simp) rfl
  · exact (h.servers u).frame hthreads (fun k hk => (hhandlers u k hk).1) fun _ => hassociating
  · refine ⟨hended, fun hcontra => (by cases hcontra), fun htcp => ?_⟩
    have hok := (h.servers v).tcp htcp
    refine ⟨fun k hk => ?_, hthreads ▸ hok.counted, fun c phase hc => ?_, fun _ c hc => rfl, fun _ => ?_⟩
    · obtain ⟨hold, hne⟩ := hhandlers v k hk
      obtain ⟨-, hreserved | ⟨-, hsame⟩⟩ := hok.registered k hold
      · rw [hstage] at hreserved
        cases hreserved
      · exact absurd hsame.symm hne
    · rw [hthreads] at hc
      exact ⟨(hok.calls c phase hc).1, rfl⟩
    · rw [htcp, hok.sockets (by rw [hstage]; rfl)]
      rfl

/-- One look at the counter. Where it is not positive nobody is inside the handler. -/
theorem WorldOk.wait (h : WorldOk r) (htodo : r.todo = .stopServer v :: rest) {iterations : ℕ}
    (hstage : (r.servers v).stage = .waiting iterations) : WorldOk (r.setServer v (
      if 0 < (r.servers v).activeIocpOperations then
        if Router.maxWaitIterations < iterations + 1 then { r.servers v with stage := .waited, gaveUp := true }
        else { r.servers v with stage := .waiting (iterations + 1) }
      else { r.servers v with stage := .waited })) := by
  have hended := (h.servers v).ended
  rw [hstage] at hended
  have hregistered : (r.servers v).isTcp = true → ∀ k, r.port.handlers k ≠ some v := by
    intro htcp k hk
    obtain ⟨-, hreserved | ⟨hrunning | hending, -⟩⟩ := ((h.servers v).tcp htcp).registered k hk
    · rw [hstage] at hreserved
      cases hreserved
    · rw [hstage] at hrunning
      cases hrunning
    · rw [hstage] at hending
      cases hending
  split_ifs with hpositive hlast
  · refine h.stopping htodo (q := r.port) rfl rfl (fun u _ => h.servers u) ?_ ⟨rest, htodo⟩ (by simp) rfl
    refine ⟨hended, fun hcontra => (by cases hcontra), fun htcp => ?_⟩
    have hok := (h.servers v).tcp htcp
    exact ⟨fun k hk => absurd hk (hregistered htcp k), hok.counted, fun c phase hc => ⟨(hok.calls c phase hc).1, rfl⟩,
      fun hcontra => (by cases hcontra), fun _ => hok.sockets (by rw [hstage]; rfl)⟩
  · refine h.stopping htodo (q := r.port) rfl rfl (fun u _ => h.servers u) ?_ ⟨rest, htodo⟩ (by simp) rfl
    refine ⟨hended, fun hcontra => (by cases hcontra), fun htcp => ?_⟩
    have hok := (h.servers v).tcp htcp
    exact ⟨fun k hk => absurd hk (hregistered htcp k), hok.counted, fun c phase hc => ⟨(hok.calls c phase hc).1, rfl⟩,
      fun _ c hc => rfl, fun _ => hok.sockets (by rw [hstage]; rfl)⟩
  · refine h.stopping htodo (q := r.port) rfl rfl (fun u _ => h.servers u) ?_ ⟨rest, htodo⟩ (by simp) rfl
    refine ⟨hended, fun hcontra => (by cases hcontra), fun htcp => ?_⟩
    have hok := (h.servers v).tcp htcp
    refine ⟨fun k hk => absurd hk (hregistered htcp k), hok.counted, fun c phase hc => ⟨(hok.calls c phase hc).1, rfl⟩,
      fun _ c hc => ?_, fun _ => hok.sockets (by rw [hstage]; rfl)⟩
    have hzero : inside v r.port.threads = 0 := by
      have hcounted := hok.counted
      omega
    have hnone := List.countP_eq_zero.mp hzero _ hc
    exact absurd (isInside_self (by decide)) hnone

/-- What is cleared stays accounted for by an operation that neither drains nor destroys. -/
theorem Orderly.cleared_tail (h : Orderly r) {op : Op} {u : ℕ} (htodo : r.todo = op :: rest) (hdrain : op ≠ .drain)
    (hdestroy : op ≠ .destroy u) (hu : (r.servers u).stage = .cleared) :
    (r.servers u).destroyed = true ∨ .drain ∈ rest ∨ .destroy u ∈ rest := by
  have hcleared := h.cleared u hu
  rw [htodo] at hcleared
  refine hcleared.imp_right fun hlater => hlater.imp (fun hmem => ?_) fun hmem => ?_
  · exact (List.mem_cons.mp hmem).resolve_left fun hsame => hdrain hsame.symm
  · exact (List.mem_cons.mp hmem).resolve_left fun hsame => hdestroy hsame.symm

theorem WorldOk.skip (h : WorldOk r) {op : Op} (htodo : r.todo = op :: rest) (hdrain : op ≠ .drain)
    (hdestroy : ∀ u, op ≠ .destroy u) (hresting : ∀ u, (r.servers u).stage.resting = true)
    (hsound : Sound r.proxyServers r.port.active rest) (isActive : Bool) :
    WorldOk { r with isActive, todo := rest } :=
  ⟨h.orderly.pop htodo rfl hresting (fun u hu => h.orderly.cleared_tail htodo hdrain (hdestroy u) hu) hsound h.orderly.kept
    (fun _ => rfl) rfl h.orderly.fresh, h.servers, h.settled⟩

theorem WorldOk.clear (h : WorldOk r) (htodo : r.todo = .stopServer v :: rest) (hstage : (r.servers v).stage = .waited) :
    WorldOk { r.setServer v { r.servers v with stage := .cleared, proxySockets := false } with todo := rest } := by
  have hmem : Op.stopServer v ∈ r.todo := by simp [htodo]
  have hlt := (h.orderly.targets _ hmem v List.mem_cons_self).1
  have hended := (h.servers v).ended
  rw [hstage] at hended
  have hsound := h.orderly.sound
  rw [htodo] at hsound
  refine ⟨h.orderly.pop htodo rfl (fun u => ?_) (fun u hu => ?_) hsound.2 h.orderly.kept (fun u => ?_) rfl
    (fun u hu => ?_), servers_update (fun u _ => h.servers u) ?_, fun _ => h.none_reserved htodo⟩
  · by_cases huv : u = v
    · simp only [huv, Router.setServer, Function.update_self]
      rfl
    · simp only [Router.setServer, Function.update_of_ne huv]
      exact h.orderly.rests htodo fun hop => huv (Option.some.inj hop).symm
  · by_cases huv : u = v
    · rw [huv]
      exact .inr hsound.1
    · simp only [Router.setServer, Function.update_of_ne huv] at hu ⊢
      exact h.orderly.cleared_tail htodo (by simp) (by simp) hu
  · by_cases huv : u = v
    · simp [huv, Router.setServer]
    · simp [Router.setServer, Function.update_of_ne huv]
  · have huv : u ≠ v := by omega
    simp only [Router.setServer, Function.update_of_ne huv]
    exact h.orderly.fresh u hu
  · refine ⟨hended, fun hcontra => (by cases hcontra), fun htcp => ?_⟩
    have hok := (h.servers v).tcp htcp
    refine ⟨fun k hk => ?_, hok.counted, fun c phase hc => ⟨(hok.calls c phase hc).1, rfl⟩, fun hgave c hc => ?_,
      fun hcontra => (by cases hcontra)⟩
    · obtain ⟨-, hreserved | ⟨hrunning | hending, -⟩⟩ := hok.registered k hk
      · rw [hstage] at hreserved
        cases hreserved
      · rw [hstage] at hrunning
        cases hrunning
      · rw [hstage] at hending
        cases hending
    · have hlive := hok.processing hgave c hc
      rw [hstage] at hlive
      cases hlive

theorem WorldOk.stopServer (h : WorldOk r) (hregistry : RegistryOk r.port) (htodo : r.todo = .stopServer v :: rest) :
    WorldOk (r.stopServer v rest) := by
  have hended := (h.servers v).ended
  have hattended := h.orderly.attended v
  have hsound := h.orderly.sound
  rw [htodo] at hsound
  have hpop : (r.servers v).stage.resting = true → WorldOk { r with todo := rest } := by
    intro hstage
    refine h.skip htodo (by simp) (by simp) (fun u => ?_) hsound.2 r.isActive
    by_cases huv : u = v
    · rw [huv]
      exact hstage
    · exact h.orderly.rests htodo fun hop => huv (Option.some.inj hop).symm
  unfold Router.stopServer
  cases hstage : (r.servers v).stage with
  | idle | cleared =>
    rw [hstage] at hended hpop
    simp only [hstage, hended, Stage.ended, if_true]
    exact hpop rfl
  | running =>
    rw [hstage] at hended
    simp only [hstage, hended, Stage.ended, Bool.false_eq_true, if_false]
    exact h.end htodo hstage
  | ending =>
    simp only [hstage]
    exact h.unregister hregistry htodo hstage
  | waiting iterations =>
    simp only [hstage]
    exact h.wait htodo hstage
  | waited =>
    simp only [hstage]
    exact h.clear htodo hstage
  | starting | reserved =>
    rw [hstage] at hattended
    obtain ⟨discards, rest', htodo'⟩ := hattended
    rw [htodo] at htodo'
    cases (List.cons.inj htodo').1

end Stopping

end ProxySwitch.RouterLifecycle
