import ProxySwitch.ServerOrder

set_option autoImplicit false

namespace ProxySwitch.RouterLifecycle
open CompletionPort TransitionRuns

variable {w : ℕ} {ο : Type} {n : ℕ}

/-! ### The other operations -/

section Others

variable {r t : Router w ο} {rest : List Op} {op : Op} {v : ℕ}

theorem WorldOk.no_association (h : WorldOk r) (hresting : ∀ u, (r.servers u).stage.resting = true) :
    r.port.associating = [] := h.settled fun u => Stage.ne_reserved (hresting u)

theorem WorldOk.pool (h : WorldOk r) {q : IoCompletionPort w ο ℕ Phase} {todo : List Op} (hthreads : q.threads = r.port.threads)
    (hhandlers : q.handlers = r.port.handlers) (hassociating : q.associating = r.port.associating)
    (horderly : Orderly { r with port := q, todo }) : WorldOk { r with port := q, todo } :=
  ⟨horderly, fun u => (h.servers u).frame hthreads (fun _ hk => hhandlers ▸ hk) fun _ => hassociating,
    fun hnone => hassociating.trans (h.settled hnone)⟩

theorem WorldOk.startPool (h : WorldOk r) (htodo : r.todo = .startPool :: rest) {q : IoCompletionPort w ο ℕ Phase}
    (hstep : CompletionPort.step n .entering r.port .startThreadPool = some q) :
    WorldOk { r with port := q, todo := rest } := by
  have hsound := h.orderly.sound
  rw [htodo] at hsound
  have hresting := fun u => h.orderly.rests (v := u) htodo (by simp [Op.subject])
  have horderly : ∀ p : IoCompletionPort w ο ℕ Phase, p.active = true → Orderly { r with port := p, todo := rest } := by
    intro p hactive
    refine h.orderly.pop htodo rfl hresting (fun u hu => h.orderly.cleared_tail htodo (by simp) (by simp) hu) ?_
      h.orderly.kept (fun _ => rfl) rfl h.orderly.fresh
    change Sound r.proxyServers p.active rest
    rw [hactive]
    exact hsound.2
  cases step_does hstep with
  | alreadyStarted hactive => exact h.pool rfl rfl rfl (horderly _ hactive)
  | started hactive hidle => exact h.pool rfl rfl rfl (horderly _ rfl)

theorem WorldOk.stopPool (h : WorldOk r) (htodo : r.todo = .stopPool :: rest) {q : IoCompletionPort w ο ℕ Phase}
    (hstep : CompletionPort.step n .entering r.port .stopThreadPool = some q) :
    WorldOk { r with port := q, todo := rest } := by
  have hsound := h.orderly.sound
  rw [htodo] at hsound
  have hresting := fun u => h.orderly.rests (v := u) htodo (by simp [Op.subject])
  have horderly : ∀ p : IoCompletionPort w ο ℕ Phase, p.active = false → Orderly { r with port := p, todo := rest } := by
    intro p hactive
    refine h.orderly.pop htodo rfl hresting (fun u hu => h.orderly.cleared_tail htodo (by simp) (by simp) hu) ?_
      h.orderly.kept (fun _ => rfl) rfl h.orderly.fresh
    change Sound r.proxyServers p.active rest
    rw [hactive]
    exact hsound
  cases step_does hstep with
  | alreadyStopped hactive => exact h.pool rfl rfl rfl (horderly _ hactive)
  | stopped hactive hidle => exact h.pool rfl rfl rfl (horderly _ rfl)

/-- All workers have left, so no handler of a stopped server is held any more. -/
theorem WorldOk.drain (h : WorldOk r) (hpool : PoolOk n r.port) (htodo : r.todo = .drain :: rest)
    (hidle : r.port.caller = .idle) : WorldOk { r with servers := fun v => Router.drained (r.servers v), todo := rest } := by
  have hsound := h.orderly.sound
  rw [htodo] at hsound
  have hresting := fun u => h.orderly.rests (v := u) htodo (by simp [Op.subject])
  have hempty := hpool.empty hsound.1 hidle
  have hstage : ∀ u, (Router.drained (r.servers u)).stage =
      if (r.servers u).stage = .cleared then .idle else (r.servers u).stage := by
    intro u
    unfold Router.drained
    split_ifs with hu
    · rfl
    · rfl
  refine ⟨h.orderly.pop htodo rfl (fun u => ?_) (fun u hu => ?_) hsound.2 h.orderly.kept (fun u => ?_) rfl
    (fun u hu => ?_), fun u => ?_, fun _ => h.no_association hresting⟩
  · rw [hstage]
    split_ifs
    · rfl
    · exact hresting u
  · rw [hstage] at hu
    split_ifs at hu with hcleared
    · exact absurd hu hcleared
  · simp only [Router.drained]
    split_ifs <;> rfl
  · have hfresh := h.orderly.fresh u hu
    rw [hstage, hfresh.1]
    refine ⟨rfl, ?_⟩
    simp only [Router.drained]
    split_ifs <;> exact hfresh.2
  · simp only [Router.drained]
    split_ifs with hcleared
    · have hended := (h.servers u).ended
      rw [hcleared] at hended
      refine ⟨hended, fun hcontra => (by cases hcontra), fun htcp => ?_⟩
      have hok := (h.servers u).tcp htcp
      refine ⟨fun k hk => ?_, hok.counted, fun c phase hc => ?_, fun _ c hc => ?_, fun hcontra => (by cases hcontra)⟩
      · obtain ⟨-, hreserved | ⟨hrunning | hending, -⟩⟩ := hok.registered k hk
        · rw [hcleared] at hreserved
          cases hreserved
        · rw [hcleared] at hrunning
          cases hrunning
        · rw [hcleared] at hending
          cases hending
      · rw [hempty] at hc
        cases hc
      · rw [hempty] at hc
        cases hc
    · exact h.servers u

theorem WorldOk.retask (h : WorldOk r) {todo : List Op} (isActive : Bool)
    (hresting : ∀ u, (r.servers u).stage.resting = true) (hkind : OneKind todo)
    (hcleared : ∀ u, (r.servers u).stage = .cleared →
      (r.servers u).destroyed = true ∨ .drain ∈ todo ∨ .destroy u ∈ todo)
    (hsound : Sound r.proxyServers r.port.active todo)
    (htargets : ∀ op ∈ todo, ∀ u ∈ op.targets, u ∈ r.proxyServers) : WorldOk { r with isActive, todo } := by
  refine ⟨⟨hkind, fun u => attended_of_resting (hresting u), hcleared, hsound, h.orderly.kept, fun o ho u hu => ?_,
    h.orderly.fresh⟩, h.servers, h.settled⟩
  have hkept := h.orderly.kept u (htargets o ho u hu)
  exact ⟨hkept.1, fun _ => hkept.2⟩

theorem stops_kind (servers : List ℕ) {tail : List Op} (htail : ∀ op ∈ tail, op.isStart = false ∧ op.targets = []) :
    ∀ op ∈ servers.map Op.stopServer ++ tail, op.isStart = false ∧ ∀ u ∈ op.targets, u ∈ servers := by
  intro op hop
  obtain hop | hop := List.mem_append.mp hop
  · obtain ⟨u, hu, rfl⟩ := List.mem_map.mp hop
    exact ⟨rfl, fun x hx => List.mem_singleton.mp hx ▸ hu⟩
  · obtain ⟨hstart, htargets⟩ := htail op hop
    rw [htargets]
    exact ⟨hstart, fun u hu => absurd hu List.not_mem_nil⟩

theorem WorldOk.stopAll (h : WorldOk r) {tail : List Op} (isActive : Bool)
    (hresting : ∀ u, (r.servers u).stage.resting = true) (hsound : Sound r.proxyServers r.port.active tail)
    (hdrain : .drain ∈ tail) (htail : ∀ op ∈ tail, op.isStart = false ∧ op.targets = []) :
    WorldOk { r with isActive, todo := r.stopServers ++ tail } := by
  have hkind := stops_kind r.proxyServers htail
  refine h.retask isActive hresting (.inr fun op hop => (hkind op hop).1) (fun u _ => ?_)
    (sound_stops r.proxyServers tail hsound hdrain) fun op hop => (hkind op hop).2
  exact .inr (.inl (List.mem_append.mpr (.inr hdrain)))

theorem WorldOk.startFilter (h : WorldOk r) (htodo : r.todo = .startFilter :: rest) (outcome : Bool) :
    WorldOk { r with todo := if outcome then rest else r.stopServers ++ [.stopPool, .drain, .deactivate] } := by
  have hsound := h.orderly.sound
  rw [htodo] at hsound
  have hresting := fun u => h.orderly.rests (v := u) htodo (by simp [Op.subject])
  cases outcome with
  | true => exact h.skip htodo (by simp) (by simp) hresting hsound r.isActive
  | false => exact h.stopAll r.isActive hresting ⟨rfl, trivial⟩ (by simp) (by simp [Op.isStart, Op.targets])

theorem WorldOk.register (h : WorldOk r) {servers : List ℕ} (htodo : r.todo = .register servers :: rest) :
    WorldOk { r with proxyServers := r.proxyServers ++ servers, todo := rest } := by
  have hsound := h.orderly.sound
  rw [htodo] at hsound
  have hresting := fun u => h.orderly.rests (v := u) htodo (by simp [Op.subject])
  have hmem : Op.register servers ∈ r.todo := by simp [htodo]
  refine ⟨h.orderly.pop htodo rfl hresting (fun u hu => h.orderly.cleared_tail htodo (by simp) (by simp) hu) ?_
    (fun u hu => ?_) (fun _ => rfl) rfl h.orderly.fresh, h.servers, h.settled⟩
  · rw [hsound]
    trivial
  · obtain hu | hu := List.mem_append.mp hu
    · exact h.orderly.kept u hu
    · have hnew := h.orderly.targets _ hmem u hu
      exact ⟨hnew.1, hnew.2 rfl⟩

theorem destroyed_stage (servers : ℕ → Server w) (v u : ℕ) :
    (Function.update servers v { servers v with destroyed := true } u).stage = (servers u).stage := by
  by_cases hu : u = v
  · rw [hu, Function.update_self]
  · rw [Function.update_of_ne hu]

theorem WorldOk.destroy (h : WorldOk r) (htodo : r.todo = .destroy v :: rest) :
    WorldOk { r.setServer v { r.servers v with destroyed := true } with todo := rest } := by
  have hsound := h.orderly.sound
  have hkind := h.orderly.kind
  rw [htodo] at hsound hkind
  have hresting := fun u => h.orderly.rests (v := u) htodo (by simp [Op.subject])
  have hmem : Op.destroy v ∈ r.todo := by simp [htodo]
  have hlt := (h.orderly.targets _ hmem v List.mem_cons_self).1
  have hstage := fun u => destroyed_stage r.servers v u
  refine ⟨⟨hkind.tail, fun u => attended_of_resting ?_, fun u hu => ?_, hsound.2, fun u hu => ?_, fun o ho u hu => ?_,
    fun u (hu : r.nextServer ≤ u) => ?_⟩, servers_update (fun u _ => h.servers u) ?_, fun _ => h.no_association hresting⟩
  · exact (hstage u).symm ▸ hresting u
  · by_cases huv : u = v
    · rw [huv]
      exact .inl (by simp [Router.setServer])
    · simp only [Router.setServer, Function.update_of_ne huv] at hu ⊢
      refine h.orderly.cleared_tail htodo (by simp) (fun hsame => huv ?_) hu
      exact (Op.destroy.inj hsame).symm
  · have huv : u ≠ v := by
      rintro rfl
      exact hsound.1 hu
    simp only [Router.setServer, Function.update_of_ne huv]
    exact h.orderly.kept u hu
  · have hold := h.orderly.targets o (htodo ▸ List.mem_cons_of_mem _ ho) u hu
    refine ⟨hold.1, fun hstart => ?_⟩
    rw [hkind.of_head o (List.mem_cons_of_mem _ ho)] at hstart
    cases hstart
  · have huv : u ≠ v := by omega
    simp only [Router.setServer, Function.update_of_ne huv]
    exact h.orderly.fresh u hu
  · obtain ⟨hended, hreserved, htcp⟩ := h.servers v
    refine ⟨hended, hreserved, fun hisTcp => ?_⟩
    obtain ⟨hregistered, hcounted, hcalls, hprocessing, hsockets⟩ := htcp hisTcp
    exact ⟨hregistered, hcounted, hcalls, hprocessing, hsockets⟩

end Others

/-! ### The calls of the router -/

section Calls

variable {r t : Router w ο}

theorem WorldOk.all_rest (h : WorldOk r) (htodo : r.todo = []) (u : ℕ) : (r.servers u).stage.resting = true :=
  resting_of_attended (h.orderly.attended u) (by simp [htodo]) (by simp [htodo])

theorem WorldOk.all_gone (h : WorldOk r) (htodo : r.todo = []) {u : ℕ} (hu : (r.servers u).stage = .cleared) :
    (r.servers u).destroyed = true := by
  have hcleared := h.orderly.cleared u hu
  simpa [htodo] using hcleared

theorem WorldOk.nothing (h : WorldOk r) (htodo : r.todo = []) (isActive : Bool) :
    WorldOk { r with isActive, todo := [] } :=
  h.retask isActive (h.all_rest htodo) (.inl (by simp)) (fun _ hu => .inl (h.all_gone htodo hu)) trivial (by simp)

theorem starts_kind {servers discards : List ℕ} {op : Op} (h : op ∈ servers.map fun v => Op.startServer v discards) :
    op.isStart = true ∧ ∀ u ∈ op.targets, u ∈ servers ∨ u ∈ discards := by
  obtain ⟨v, hv, rfl⟩ := List.mem_map.mp h
  refine ⟨rfl, fun u hu => ?_⟩
  obtain rfl | hu := List.mem_cons.mp hu
  · exact .inl hv
  · exact .inr hu

theorem WorldOk.start (h : WorldOk r) (htodo : r.todo = []) : WorldOk { r with isActive := true, todo := r.startProgram } := by
  have hkind : ∀ op ∈ r.startProgram, op.isStart = true ∧ ∀ u ∈ op.targets, u ∈ r.proxyServers := by
    intro op hop
    simp only [Router.startProgram, List.cons_append, List.nil_append, List.mem_cons, List.mem_append,
      List.not_mem_nil, or_false] at hop
    obtain rfl | rfl | hop | rfl := hop
    · exact ⟨rfl, by simp [Op.targets]⟩
    · exact ⟨rfl, by simp [Op.targets]⟩
    · obtain ⟨hstart, htargets⟩ := starts_kind hop
      exact ⟨hstart, fun u hu => (htargets u hu).resolve_right List.not_mem_nil⟩
    · exact ⟨rfl, by simp [Op.targets]⟩
  refine h.retask true (h.all_rest htodo) (.inl fun op hop => (hkind op hop).1) (fun u hu => .inl (h.all_gone htodo hu))
    ⟨⟨_, rfl⟩, ?_⟩ fun op hop => (hkind op hop).2
  exact sound_starts r.proxyServers [] [.startFilter] (by simp) trivial

theorem WorldOk.stop (h : WorldOk r) (htodo : r.todo = []) : WorldOk { r with isActive := false, todo := r.stopProgram } :=
  h.stopAll false (h.all_rest htodo) ⟨rfl, trivial⟩ (by simp) (by simp [Op.isStart, Op.targets])

theorem mem_newServers {tcp udp : Bool} {u : ℕ} (h : u ∈ r.newServers tcp udp) :
    u = r.nextServer ∨ u = r.nextServer + 1 := by
  unfold Router.newServers at h
  obtain h | h := List.mem_append.mp h
  · split_ifs at h with htcp
    · exact .inl (List.mem_singleton.mp h)
    · cases h
  · split_ifs at h with hudp
    · exact .inr (List.mem_singleton.mp h)
    · cases h

theorem add_kind {servers : List ℕ} {start : Bool} {op : Op} (h : op ∈ addProgram servers start) :
    op.isStart = true ∧ ∀ u ∈ op.targets, u ∈ servers := by
  unfold addProgram at h
  obtain h | h := List.mem_append.mp h
  · split_ifs at h with hstart
    · obtain ⟨hop, htargets⟩ := starts_kind h
      exact ⟨hop, fun u hu => (htargets u hu).elim id List.mem_reverse.mp⟩
    · cases h
  · rw [List.mem_singleton.mp h]
    exact ⟨rfl, fun u hu => hu⟩

theorem add_sound {kept servers : List ℕ} {active start : Bool} (hnew : ∀ u ∈ servers, u ∉ kept) :
    Sound kept active (addProgram servers start) := by
  unfold addProgram
  split_ifs with hstart
  · exact sound_starts servers servers.reverse _ (fun u hu => hnew u (List.mem_reverse.mp hu)) rfl
  · exact rfl

theorem newServer_ok {p : IoCompletionPort w ο ℕ Phase} {v : ℕ} {isTcp : Bool}
    (hregistered : ∀ k, p.handlers k ≠ some v) (hcalls : ∀ c phase, .calling v c phase ∉ p.threads) :
    ServerOk p v (newServer w isTcp) := by
  refine ⟨rfl, fun hcontra => (by cases hcontra), fun _ => ⟨fun k hk => absurd hk (hregistered k), ?_,
    fun c phase hc => absurd hc (hcalls c phase), fun _ c hc => absurd hc (hcalls c _), fun hcontra => (by cases hcontra)⟩⟩
  have hzero : inside v p.threads = 0 := by
    refine List.countP_eq_zero.mpr fun x hx hinside => ?_
    cases x with
    | calling u c phase =>
      simp only [isInside, Bool.and_eq_true, beq_iff_eq] at hinside
      obtain rfl := hinside.1
      exact hcalls c phase hx
    | _ => cases hinside
  rw [hzero]
  rfl

theorem WorldOk.unused (h : WorldOk r) {v : ℕ} (hv : r.nextServer ≤ v) :
    (∀ k, r.port.handlers k ≠ some v) ∧ ∀ c phase, .calling v c phase ∉ r.port.threads := by
  obtain ⟨hstage, htcp⟩ := h.orderly.fresh v hv
  have hok := (h.servers v).tcp htcp
  exact ⟨hok.unregistered (.inl hstage), hok.no_calls (by rw [hstage]; rfl)⟩

theorem WorldOk.add (h : WorldOk r) (htodo : r.todo = []) {tcp udp start : Bool} :
    WorldOk { r with
      todo := addProgram (r.newServers tcp udp) start
      servers := Function.update (Function.update r.servers r.nextServer (newServer w true))
        (r.nextServer + 1) (newServer w false)
      nextServer := r.nextServer + 2 } := by
  have hcases : ∀ u, (u = r.nextServer ∨ u = r.nextServer + 1) ∧
      (∃ isTcp, Function.update (Function.update r.servers r.nextServer (newServer w true))
        (r.nextServer + 1) (newServer w false) u = newServer w isTcp) ∨
      (u ≠ r.nextServer ∧ u ≠ r.nextServer + 1) ∧ Function.update (Function.update r.servers r.nextServer
        (newServer w true)) (r.nextServer + 1) (newServer w false) u = r.servers u := by
    intro u
    by_cases hudp : u = r.nextServer + 1
    · rw [hudp]
      exact .inl ⟨.inr rfl, false, Function.update_self _ _ _⟩
    · by_cases htcp : u = r.nextServer
      · refine .inl ⟨.inl htcp, true, ?_⟩
        rw [Function.update_of_ne hudp, htcp, Function.update_self]
      · refine .inr ⟨⟨htcp, hudp⟩, ?_⟩
        rw [Function.update_of_ne hudp, Function.update_of_ne htcp]
  have hold : ∀ v ∈ r.proxyServers, v < r.nextServer := fun v hv => (h.orderly.kept v hv).1
  refine ⟨⟨.inl fun op hop => (add_kind hop).1, fun u => attended_of_resting ?_, fun u hu => .inl ?_, ?_, fun u hu => ?_,
    fun op hop u hu => ?_, fun u hu => ?_⟩, fun u => ?_, fun _ => h.no_association (h.all_rest htodo)⟩
  · obtain ⟨-, isTcp, hnew⟩ | ⟨-, hsame⟩ := hcases u
    · simp only [hnew]
      rfl
    · simp only [hsame]
      exact h.all_rest htodo u
  · obtain ⟨-, isTcp, hnew⟩ | ⟨-, hsame⟩ := hcases u
    · simp only [hnew] at hu
      cases hu
    · simp only [hsame] at hu ⊢
      exact h.all_gone htodo hu
  · refine add_sound fun u hu hkept => ?_
    have hlt := hold u hkept
    have hnew := mem_newServers hu
    omega
  · have hlt := hold u hu
    obtain ⟨hnew, -⟩ | ⟨-, hsame⟩ := hcases u
    · omega
    · simp only [hsame]
      exact ⟨by omega, (h.orderly.kept u hu).2⟩
  · have hnew := mem_newServers ((add_kind hop).2 u hu)
    obtain ⟨-, isTcp, hserver⟩ | ⟨hother, -⟩ := hcases u
    · simp only [hserver]
      exact ⟨by omega, fun _ => rfl⟩
    · omega
  · simp only at hu
    obtain ⟨hnew, -⟩ | ⟨-, hsame⟩ := hcases u
    · omega
    · simp only [hsame]
      exact h.orderly.fresh u (by omega)
  · obtain ⟨hnew, isTcp, hserver⟩ | ⟨-, hsame⟩ := hcases u
    · obtain ⟨hregistered, hcalls⟩ := h.unused (v := u) (by omega)
      simp only [hserver]
      exact newServer_ok hregistered hcalls
    · simp only [hsame]
      exact h.servers u

end Calls

/-! ### The workers and the kernel -/

section Turns

variable {r t : Router w ο}

theorem Orderly.congr (h : Orderly r) (htodo : t.todo = r.todo) (hproxies : t.proxyServers = r.proxyServers)
    (hactive : t.port.active = r.port.active) (hnext : t.nextServer = r.nextServer)
    (hservers : ∀ u, (t.servers u).stage = (r.servers u).stage ∧ (t.servers u).destroyed = (r.servers u).destroyed ∧
      (t.servers u).isTcp = (r.servers u).isTcp) : Orderly t := by
  have hstage := fun u => (hservers u).1
  have hdestroyed := fun u => (hservers u).2.1
  have hisTcp := fun u => (hservers u).2.2
  obtain ⟨hkind, hattended, hcleared, hsound, hkept, htargets, hfresh⟩ := h
  constructor
  · rwa [htodo]
  · simpa only [htodo, hstage] using hattended
  · simpa only [htodo, hstage, hdestroyed] using hcleared
  · rwa [htodo, hproxies, hactive]
  · simpa only [hproxies, hnext, hdestroyed] using hkept
  · simpa only [htodo, hnext, hdestroyed] using htargets
  · simpa only [hnext, hstage, hisTcp] using hfresh

theorem WorldOk.worker (h : WorldOk r) {a : CompletionPort.Label w ο ℕ Phase} {q : IoCompletionPort w ο ℕ Phase}
    (hinvariant : CompletionPort.Invariant n r.port) (hdispatch : DispatchOk r.port) (ha : isWorkers a = true)
    (hstep : Does n .entering r.port a q) : WorldOk { r with port := q } := by
  obtain ⟨-, hassociating, -, hactive⟩ := workers_frame ha hstep
  refine ⟨h.orderly.congr rfl rfl hactive rfl fun _ => ⟨rfl, rfl, rfl⟩, fun v => ?_, fun hnone => ?_⟩
  · exact (h.servers v).workers hinvariant hdispatch ha hstep
  · exact hassociating.trans (h.settled hnone)

/-- A handler changes the counter of its server and its own place, unless the server was destroyed. -/
theorem handler_turn {i : ℕ} {reposted : Bool} (hstep : r.handler i reposted = some t) :
    t = { r with usedDestroyed := true } ∨
    ∃ (v : ℕ) (operations : ℤ) (y : Worker w ο ℕ Phase), t = r.turn v operations i y ∧
      ∃ b, Does n .entering r.port b (r.port.goto i y) := by
  unfold Router.handler at hstep
  split at hstep
  swap
  · cases hstep
  rename_i v c phase hthread
  by_cases hdestroyed : (r.servers v).destroyed = true
  · rw [if_pos hdestroyed] at hstep
    exact .inl (Option.some.inj hstep).symm
  rw [if_neg hdestroyed] at hstep
  right
  cases phase with
  | entering =>
    simp only at hstep
    split_ifs at hstep with htcp
    · exact ⟨v, _, _, (Option.some.inj hstep).symm, _, .handles i v c .entering _ hthread⟩
    · exact ⟨v, _, _, (Option.some.inj hstep).symm, _, .handles i v c .entering _ hthread⟩
    · exact ⟨v, _, _, (Option.some.inj hstep).symm, _, .handles i v c .entering _ hthread⟩
  | counted => exact ⟨v, _, _, (Option.some.inj hstep).symm, _, .handles i v c .counted _ hthread⟩
  | processing =>
    simp only at hstep
    split_ifs at hstep with hreposted
    · exact ⟨v, _, _, (Option.some.inj hstep).symm, _, .handles i v c .processing _ hthread⟩
    · exact ⟨v, _, _, (Option.some.inj hstep).symm, _, .handles i v c .processing _ hthread⟩
  | leaving => exact ⟨v, _, _, (Option.some.inj hstep).symm, _, .handled i v c .leaving hthread⟩

theorem turn_same {v i : ℕ} {operations : ℤ} {y : Worker w ο ℕ Phase} (u : ℕ) :
    ((r.turn v operations i y).servers u).stage = (r.servers u).stage ∧
      ((r.turn v operations i y).servers u).destroyed = (r.servers u).destroyed ∧
      ((r.turn v operations i y).servers u).isTcp = (r.servers u).isTcp := by
  by_cases hu : u = v
  · simp [hu, Router.turn, Router.setServer]
  · simp [Router.turn, Router.setServer, Function.update_of_ne hu]

theorem WorldOk.handler (h : WorldOk r) {i : ℕ} {reposted : Bool} (hstep : r.handler i reposted = some t) :
    WorldOk t := by
  obtain rfl | ⟨v, operations, y, rfl, -⟩ := handler_turn (n := 0) hstep
  · exact ⟨h.orderly.congr rfl rfl rfl rfl fun _ => ⟨rfl, rfl, rfl⟩, h.servers, h.settled⟩
  · refine ⟨h.orderly.congr rfl rfl rfl rfl turn_same, handler_servers h.servers hstep, fun hnone => ?_⟩
    exact h.settled fun u hu => hnone u ((turn_same u).1.trans hu)

end Turns

/-! ### What each step does to the port -/

section Ports

variable {r t : Router w ο} {rest : List Op} {discards : List ℕ} {v : ℕ} {op : Op} {outcome posted : Bool}

theorem reserveKey_port : (r.reserveKey v discards).port = r.port.reserve v := by
  unfold Router.reserveKey
  simp only
  split <;> rfl

theorem associated_port : (r.associated v discards rest outcome posted).port = r.answered outcome := by
  unfold Router.associated
  simp only
  split_ifs <;> rfl

theorem answered_does (outcome : Bool) :
    r.answered outcome = r.port ∨ ∃ b, Does n .entering r.port b (r.answered outcome) := by
  unfold Router.answered
  split
  · rename_i key ioHandler calls hassociating
    exact .inr ⟨_, .associated 0 key ioHandler outcome (by rw [hassociating]; rfl)⟩
  · exact .inl rfl

theorem startServer_port (r : Router w ο) (v : ℕ) (discards : List ℕ) (rest : List Op) (outcome posted : Bool) :
    (r.startServer v discards rest outcome posted).port = r.port ∨
    (r.startServer v discards rest outcome posted).port = r.port.reserve v ∨
    (r.startServer v discards rest outcome posted).port = r.answered outcome := by
  unfold Router.startServer
  simp only
  split
  · split_ifs
    · exact .inr (.inl reserveKey_port)
    · exact .inl rfl
    · exact .inr (.inl reserveKey_port)
    · exact .inl rfl
  · exact .inr (.inr associated_port)
  · split_ifs
    · exact .inl rfl
    · exact .inl rfl

theorem stopServer_port (r : Router w ο) (v : ℕ) (rest : List Op) : (r.stopServer v rest).port = r.port ∨
    ∃ key, (r.stopServer v rest).port = r.port.unregisterHandler key := by
  unfold Router.stopServer
  simp only
  split
  · unfold Router.unregister
    simp only
    split_ifs with hkey
    · exact .inl rfl
    · exact .inr ⟨_, rfl⟩
  · exact .inl rfl
  · exact .inl rfl
  · split_ifs
    · exact .inl rfl
    · exact .inl rfl

theorem control_port (hstep : r.control n op rest outcome posted = some t) :
    t.port = r.port ∨ ∃ b, Does n .entering r.port b t.port := by
  cases op with
  | startPool | stopPool =>
    obtain ⟨q, hq, rfl⟩ := Option.map_eq_some_iff.mp hstep
    exact .inr ⟨_, step_does hq⟩
  | poolStarted | drain =>
    simp only [Router.control] at hstep
    split_ifs at hstep
    obtain rfl := Option.some.inj hstep
    exact .inl rfl
  | startServer u ds =>
    obtain rfl := Option.some.inj hstep
    obtain hport | hport | hport := startServer_port r u ds rest outcome posted
    · exact .inl hport
    · rw [hport]
      exact .inr ⟨_, .reserved u⟩
    · rw [hport]
      exact answered_does outcome
  | stopServer u =>
    obtain rfl := Option.some.inj hstep
    obtain hport | ⟨key, hport⟩ := stopServer_port r u rest
    · exact .inl hport
    · rw [hport]
      exact .inr ⟨_, .unregistered key⟩
  | startFilter | deactivate | register _ | destroy _ =>
    obtain rfl := Option.some.inj hstep
    exact .inl rfl

theorem call_eq {isActive : Bool} {todo : List Op} (hstep : r.call isActive todo = some t) :
    r.todo = [] ∧ t = { r with isActive, todo } := by
  unfold Router.call at hstep
  split_ifs at hstep with htodo
  exact ⟨htodo, (Option.some.inj hstep).symm⟩

theorem step_port {a : Label w ο} (hstep : step n r a = some t) :
    t.port = r.port ∨ ∃ b, Does n .entering r.port b t.port := by
  cases a with
  | start | stop =>
    simp only [step] at hstep
    split_ifs at hstep
    · obtain ⟨-, rfl⟩ := call_eq hstep
      exact .inl rfl
    · obtain ⟨-, rfl⟩ := call_eq hstep
      exact .inl rfl
  | addSocks5Proxy tcp udp start =>
    obtain ⟨called, hcalled, rfl⟩ := Option.map_eq_some_iff.mp hstep
    obtain ⟨-, rfl⟩ := call_eq hcalled
    exact .inl rfl
  | control outcome posted =>
    simp only [step] at hstep
    split at hstep
    · exact control_port hstep
    · cases hstep
  | createThreadFails =>
    obtain ⟨q, hq, rfl⟩ := Option.map_eq_some_iff.mp hstep
    exact .inr ⟨_, step_does hq⟩
  | worker b =>
    simp only [step] at hstep
    split_ifs at hstep
    obtain ⟨q, hq, rfl⟩ := Option.map_eq_some_iff.mp hstep
    exact .inr ⟨_, step_does hq⟩
  | handler i reposted =>
    obtain rfl | ⟨v, operations, y, rfl, hdoes⟩ := handler_turn (n := n) hstep
    · exact .inl rfl
    · exact .inr hdoes

end Ports

/-! ### The pool's caller -/

section Pool

variable {r t : Router w ο} {rest : List Op} {op : Op} {outcome posted : Bool}

def PoolAttended (r : Router w ο) : Prop :=
  ∀ left, r.port.caller = .creating left → ∃ rest, r.todo = .poolStarted :: rest

theorem PoolAttended.of_caller (h : PoolAttended r) (htodo : t.todo = r.todo)
    (hcaller : ∀ left, t.port.caller = .creating left → ∃ left', r.port.caller = .creating left') :
    PoolAttended t := by
  intro left hleft
  obtain ⟨left', hcreating⟩ := hcaller left hleft
  rw [htodo]
  exact h left' hcreating

theorem workers_creating {a : CompletionPort.Label w ο ℕ Phase} {p q : IoCompletionPort w ο ℕ Phase} {left : ℕ}
    (ha : isWorkers a = true) (hstep : Does n .entering p a q) (hleft : q.caller = .creating left) :
    ∃ left', p.caller = .creating left' := by
  cases hstep with
  | created _ hcaller => exact ⟨_, hcaller⟩
  | allCreated _ | woken _ _ _ | wakeUpLost _ _ | allWoken _ | joined _ _ _ | allJoined _ _ _ => cases hleft
  | checked _ _ | dequeued _ _ _ _ _ | timedOut _ _ | posted _ _ | keyShared _ _ _ _ => exact ⟨left, hleft⟩
  | keyFound key _ => exact ⟨left, associateWithKey_frame.2.2.2.2.2 ▸ hleft⟩
  | examined i status _ =>
    unfold IoCompletionPort.examined at hleft
    split_ifs at hleft
    · cases status with
      | none => exact ⟨left, hleft⟩
      | some c =>
        simp only at hleft
        split_ifs at hleft
        · exact ⟨left, hleft⟩
        · exact ⟨left, hleft⟩
    · exact ⟨left, hleft⟩
  | looked i c _ =>
    unfold IoCompletionPort.looked at hleft
    split at hleft
    · exact ⟨left, hleft⟩
    · exact ⟨left, hleft⟩
  | _ => cases ha

theorem answered_caller (outcome : Bool) : (r.answered outcome).caller = r.port.caller := by
  unfold Router.answered
  split
  · unfold IoCompletionPort.associated
    simp only
    split_ifs <;> rfl
  · rfl

theorem reserve_caller (p : IoCompletionPort w ο ℕ Phase) (v : ℕ) : (p.reserve v).caller = p.caller := by
  unfold IoCompletionPort.reserve
  simp only
  split <;> rfl

theorem unregisterHandler_caller (p : IoCompletionPort w ο ℕ Phase) (key : BitVec w) :
    (p.unregisterHandler key).caller = p.caller := by
  unfold IoCompletionPort.unregisterHandler
  split_ifs <;> rfl

/-- Only the start of the pool makes a caller that creates threads. -/
theorem control_caller {left : ℕ} (hstep : r.control n op rest outcome posted = some t) (hop : op ≠ .startPool)
    (hleft : t.port.caller = .creating left) : r.port.caller = .creating left ∧ op ≠ .poolStarted := by
  cases op with
  | startPool => exact absurd rfl hop
  | poolStarted =>
    simp only [Router.control] at hstep
    split_ifs at hstep with hidle
    obtain rfl := Option.some.inj hstep
    simp only [hidle] at hleft
    cases hleft
  | drain =>
    simp only [Router.control] at hstep
    split_ifs at hstep with hidle
    obtain rfl := Option.some.inj hstep
    exact ⟨hleft, by simp⟩
  | stopPool =>
    obtain ⟨q, hq, rfl⟩ := Option.map_eq_some_iff.mp hstep
    refine ⟨?_, by simp⟩
    cases step_does hq with
    | alreadyStopped _ => exact hleft
    | stopped _ _ => cases hleft
  | startServer u ds =>
    obtain rfl := Option.some.inj hstep
    refine ⟨?_, by simp⟩
    obtain hport | hport | hport := startServer_port r u ds rest outcome posted
    · rwa [hport] at hleft
    · rwa [hport, reserve_caller] at hleft
    · rwa [hport, answered_caller] at hleft
  | stopServer u =>
    obtain rfl := Option.some.inj hstep
    refine ⟨?_, by simp⟩
    obtain hport | ⟨key, hport⟩ := stopServer_port r u rest
    · rwa [hport] at hleft
    · rwa [hport, unregisterHandler_caller] at hleft
  | startFilter | deactivate | register _ | destroy _ =>
    obtain rfl := Option.some.inj hstep
    exact ⟨hleft, by simp⟩

theorem PoolAttended.control (h : PoolAttended r) (hworld : WorldOk r) (htodo : r.todo = op :: rest)
    (hstep : r.control n op rest outcome posted = some t) : PoolAttended t := by
  intro left hleft
  by_cases hop : op = .startPool
  · subst hop
    have hsound := hworld.orderly.sound
    rw [htodo] at hsound
    obtain ⟨q, -, rfl⟩ := Option.map_eq_some_iff.mp hstep
    exact hsound.1
  · -- somebody creates threads, so the router is still waiting for them
    obtain ⟨hcreating, hne⟩ := control_caller hstep hop hleft
    obtain ⟨rest', htodo'⟩ := h left hcreating
    rw [htodo] at htodo'
    exact absurd (List.cons.inj htodo').1 hne

theorem WorldOk.createThreadFails (h : WorldOk r) (hattended : PoolAttended r) {q : IoCompletionPort w ο ℕ Phase}
    (hstep : CompletionPort.step n .entering r.port .createThreadFails = some q) :
    WorldOk { r with port := q, todo := [.poolStarted] } := by
  cases step_does hstep with
  | createFailed left hcreating =>
    obtain ⟨rest, htodo⟩ := hattended _ hcreating
    have hresting := fun u => h.orderly.rests (v := u) htodo (by simp [Op.subject])
    exact h.pool rfl rfl rfl ⟨.inl (by simp [Op.isStart]), fun u => attended_of_resting (hresting u),
      fun u hu => .inl (h.orderly.gone htodo rfl hu), trivial, h.orderly.kept, by simp [Op.targets], h.orderly.fresh⟩

end Pool

/-! ### Destroyed servers -/

section Gone

variable {r t : Router w ο} {rest : List Op} {discards : List ℕ} {v : ℕ} {op : Op} {outcome posted : Bool}

def Stage.shut : Stage → Bool
  | .idle | .cleared => true
  | _ => false

def Doomed (shut : ℕ → Prop) : List Op → Prop
  | [] => True
  | .stopServer v :: rest => Doomed (fun u => u = v ∨ shut u) rest
  | .destroy v :: rest => shut v ∧ Doomed shut rest
  | _ :: rest => Doomed shut rest

theorem Doomed.mono {shut shut' : ℕ → Prop} {todo : List Op} (h : Doomed shut todo) (hshut : ∀ u, shut u → shut' u) :
    Doomed shut' todo := by
  induction todo generalizing shut shut' with
  | nil => trivial
  | cons op todo ih =>
    cases op with
    | stopServer v => exact ih h fun u hu => hu.imp_right (hshut u)
    | destroy v => exact ⟨hshut v h.1, ih h.2 hshut⟩
    | _ => exact ih h hshut

theorem doomed_of_none {shut : ℕ → Prop} {todo : List Op} (h : ∀ u, .destroy u ∉ todo) : Doomed shut todo := by
  induction todo generalizing shut with
  | nil => trivial
  | cons op todo ih =>
    have hrest : ∀ u, .destroy u ∉ todo := fun u hu => h u (List.mem_cons_of_mem op hu)
    cases op with
    | destroy v => exact absurd List.mem_cons_self (h v)
    | _ => exact ih hrest

theorem doomed_discards {shut : ℕ → Prop} : Doomed shut (discards.flatMap fun v => [Op.stopServer v, Op.destroy v]) := by
  induction discards generalizing shut with
  | nil => trivial
  | cons v discards ih => exact ⟨.inl rfl, ih⟩

theorem Doomed.tail {shut : ℕ → Prop} (h : Doomed shut (op :: rest)) (hstop : ∀ v, op ≠ .stopServer v) :
    Doomed shut rest := by
  cases op with
  | stopServer v => exact absurd rfl (hstop v)
  | destroy v => exact h.2
  | _ => exact h

structure Gone (r : Router w ο) : Prop where
  destroyed : ∀ v, (r.servers v).destroyed = true → (r.servers v).stage.shut = true
  doomed : Doomed (fun v => (r.servers v).stage.shut = true) r.todo

theorem startServer_frame (r : Router w ο) (v : ℕ) (discards : List ℕ) (rest : List Op) (outcome posted : Bool) :
    (∀ u, u ≠ v → (r.startServer v discards rest outcome posted).servers u = r.servers u) ∧
      ((r.startServer v discards rest outcome posted).servers v).destroyed = (r.servers v).destroyed := by
  have hset : ∀ server : Server w, server.destroyed = (r.servers v).destroyed →
      (∀ u, u ≠ v → (r.setServer v server).servers u = r.servers u) ∧
        ((r.setServer v server).servers v).destroyed = (r.servers v).destroyed := by
    intro server hserver
    refine ⟨fun u hu => Function.update_of_ne hu _ _, ?_⟩
    simpa only [Router.setServer, Function.update_self] using hserver
  unfold Router.startServer
  simp only
  split
  · split_ifs
    · unfold Router.reserveKey
      simp only
      split
      · exact hset _ rfl
      · exact hset _ rfl
    · exact hset _ rfl
    · unfold Router.reserveKey
      simp only
      split
      · exact hset _ rfl
      · exact hset _ rfl
    · exact hset _ rfl
  · unfold Router.associated
    simp only
    split_ifs
    · exact hset _ rfl
    · exact hset _ rfl
    · exact hset _ rfl
    · exact hset _ rfl
  · split_ifs
    · exact hset _ rfl
    · exact ⟨fun u _ => rfl, rfl⟩

theorem startFailed_todo (r : Router w ο) (discards : List ℕ) (rest : List Op) :
    (∀ o ∈ (r.startFailed discards rest).todo, o ∈ rest) ∨
      (r.startFailed discards rest).todo = discards.flatMap fun v => [Op.stopServer v, Op.destroy v] := by
  unfold Router.startFailed
  simp only
  split_ifs
  · exact .inl fun o ho => ho
  · exact .inr rfl

theorem startServer_todo (outcome posted : Bool) (htodo : r.todo = .startServer v discards :: rest) :
    (∀ o ∈ (r.startServer v discards rest outcome posted).todo, o ∈ r.todo) ∨
      (r.startServer v discards rest outcome posted).todo =
        discards.flatMap fun v => [Op.stopServer v, Op.destroy v] := by
  have hrest : ∀ o ∈ rest, o ∈ r.todo := fun o ho => htodo ▸ List.mem_cons_of_mem _ ho
  have hreserve : (∀ o ∈ (r.reserveKey v discards).todo, o ∈ r.todo) ∨
      (r.reserveKey v discards).todo = discards.flatMap fun v => [Op.stopServer v, Op.destroy v] := by
    unfold Router.reserveKey
    simp only
    split
    · exact .inl fun o ho => ho
    · refine (startFailed_todo _ discards []).imp_left fun hnone o ho => ?_
      exact absurd (hnone o ho) List.not_mem_nil
  unfold Router.startServer
  simp only
  split
  · split_ifs
    · exact hreserve
    · exact .inl hrest
    · exact hreserve
    · exact .inl hrest
  · unfold Router.associated
    simp only
    split_ifs
    · exact .inl hrest
    · exact .inl hrest
    · exact (startFailed_todo _ discards rest).imp_left fun hsub o ho => hrest o (hsub o ho)
    · exact (startFailed_todo _ discards rest).imp_left fun hsub o ho => hrest o (hsub o ho)
  · split_ifs
    · exact .inl fun o ho => ho
    · exact .inl hrest

theorem Gone.startServer (h : Gone r) (hworld : WorldOk r) (htodo : r.todo = .startServer v discards :: rest) :
    Gone (r.startServer v discards rest outcome posted) := by
  obtain ⟨hother, hdestroyed⟩ := startServer_frame r v discards rest outcome posted
  have hkind := hworld.orderly.kind
  have hmem : Op.startServer v discards ∈ r.todo := by simp [htodo]
  rw [htodo] at hkind
  refine ⟨fun u hu => ?_, ?_⟩
  · by_cases huv : u = v
    · rw [huv, hdestroyed, (hworld.orderly.targets _ hmem v List.mem_cons_self).2 rfl] at hu
      cases hu
    · rw [hother u huv] at hu ⊢
      exact h.destroyed u hu
  · obtain hsub | heq := startServer_todo outcome posted htodo
    · refine doomed_of_none fun u hu => ?_
      have hdestroy := hsub _ hu
      rw [htodo] at hdestroy
      cases hkind.of_head _ hdestroy
    · rw [heq]
      exact doomed_discards

theorem stopServer_frame (rest : List Op) (hended : (r.servers v).endServer = (r.servers v).stage.ended) :
    (∀ u, u ≠ v → (r.stopServer v rest).servers u = r.servers u) ∧
      ((r.stopServer v rest).servers v).destroyed = (r.servers v).destroyed ∧
      ((r.servers v).stage.shut = true → ((r.stopServer v rest).servers v).stage.shut = true) ∧
      ((r.stopServer v rest).todo = r.todo ∨
        (r.stopServer v rest).todo = rest ∧ ((r.stopServer v rest).servers v).stage.shut = true) := by
  have hother : ∀ (server : Server w) (u : ℕ), u ≠ v → (r.setServer v server).servers u = r.servers u :=
    fun server u hu => Function.update_of_ne hu _ _
  unfold Router.stopServer
  cases hstage : (r.servers v).stage with
  | idle | cleared =>
    rw [hstage] at hended
    simp only [hstage, hended, Stage.ended, if_true]
    exact ⟨fun _ _ => trivial, trivial, fun _ => rfl, .inr ⟨trivial, rfl⟩⟩
  | running | starting | reserved =>
    rw [hstage] at hended
    simp only [hstage, hended, Stage.ended, Bool.false_eq_true, if_false]
    refine ⟨hother _, ?_, fun hshut => (by cases hshut), .inl rfl⟩
    simp [Router.setServer]
  | ending =>
    simp only [hstage]
    refine ⟨hother _, ?_, fun hshut => (by cases hshut), .inl rfl⟩
    simp [Router.unregister, Router.setServer]
  | waiting iterations =>
    simp only [hstage]
    refine ⟨hother _, ?_, fun hshut => (by cases hshut), .inl rfl⟩
    simp only [Router.setServer, Function.update_self]
    split_ifs <;> rfl
  | waited =>
    simp only [hstage]
    refine ⟨hother _, ?_, fun hshut => (by cases hshut), .inr ⟨trivial, ?_⟩⟩
    · simp [Router.setServer]
    · simp only [Router.setServer, Function.update_self]
      rfl

theorem Gone.stopServer (h : Gone r) (hworld : WorldOk r) (htodo : r.todo = .stopServer v :: rest) :
    Gone (r.stopServer v rest) := by
  obtain ⟨hother, hdestroyed, hshut, hnext⟩ := stopServer_frame rest (hworld.servers v).ended
  have hstage : ∀ u, (r.servers u).stage.shut = true → ((r.stopServer v rest).servers u).stage.shut = true := by
    intro u hu
    by_cases huv : u = v
    · rw [huv] at hu ⊢
      exact hshut hu
    · rwa [hother u huv]
  have hdoomed := h.doomed
  rw [htodo] at hdoomed
  refine ⟨fun u hu => hstage u (h.destroyed u ?_), ?_⟩
  · by_cases huv : u = v
    · rw [huv] at hu ⊢
      rwa [← hdestroyed]
    · rwa [hother u huv] at hu
  · obtain hsame | ⟨hrest, hdone⟩ := hnext
    · rw [hsame, htodo]
      exact Doomed.mono hdoomed hstage
    · rw [hrest]
      refine Doomed.mono hdoomed fun u hu => ?_
      obtain rfl | hu := hu
      · exact hdone
      · exact hstage u hu

theorem Gone.congr (h : Gone r) (hservers : t.servers = r.servers)
    (hdoomed : Doomed (fun v => (r.servers v).stage.shut = true) t.todo) : Gone t := by
  constructor
  · rw [hservers]
    exact h.destroyed
  · rw [hservers]
    exact hdoomed

theorem Gone.control (h : Gone r) (hworld : WorldOk r) (htodo : r.todo = op :: rest)
    (hstep : r.control n op rest outcome posted = some t) : Gone t := by
  have hdoomed := h.doomed
  rw [htodo] at hdoomed
  cases op with
  | startPool | stopPool =>
    obtain ⟨q, -, rfl⟩ := Option.map_eq_some_iff.mp hstep
    exact h.congr rfl hdoomed
  | poolStarted =>
    simp only [Router.control] at hstep
    split_ifs at hstep
    obtain rfl := Option.some.inj hstep
    exact h.congr rfl hdoomed
  | startServer u ds =>
    obtain rfl := Option.some.inj hstep
    exact h.startServer hworld htodo
  | startFilter =>
    obtain rfl := Option.some.inj hstep
    refine h.congr rfl ?_
    simp only
    split_ifs
    · exact hdoomed
    · exact doomed_of_none fun u hu => by simp [Router.stopServers] at hu
  | stopServer u =>
    obtain rfl := Option.some.inj hstep
    exact h.stopServer hworld htodo
  | drain =>
    simp only [Router.control] at hstep
    split_ifs at hstep
    obtain rfl := Option.some.inj hstep
    have hstage : ∀ u, (r.servers u).stage.shut = true → (Router.drained (r.servers u)).stage.shut = true := by
      intro u hu
      unfold Router.drained
      split_ifs
      · rfl
      · exact hu
    refine ⟨fun u hu => hstage u (h.destroyed u ?_), Doomed.mono hdoomed hstage⟩
    simp only [Router.drained] at hu
    split_ifs at hu
    · exact hu
    · exact hu
  | deactivate | register _ =>
    obtain rfl := Option.some.inj hstep
    exact h.congr rfl hdoomed
  | destroy v =>
    obtain rfl := Option.some.inj hstep
    have hstage := fun u => destroyed_stage r.servers v u
    refine ⟨fun u hu => ?_, ?_⟩
    · by_cases huv : u = v
      · rw [huv]
        exact (hstage v).symm ▸ hdoomed.1
      · simp only [Router.setServer, Function.update_of_ne huv] at hu ⊢
        exact h.destroyed u hu
    · refine Doomed.mono hdoomed.2 fun u hu => ?_
      exact (hstage u).symm ▸ hu

theorem Gone.add (h : Gone r) {tcp udp start : Bool} :
    Gone { r with
      todo := addProgram (r.newServers tcp udp) start
      servers := Function.update (Function.update r.servers r.nextServer (newServer w true))
        (r.nextServer + 1) (newServer w false)
      nextServer := r.nextServer + 2 } := by
  refine ⟨fun u hu => ?_, doomed_of_none fun u hu => by cases (add_kind hu).1⟩
  by_cases hudp : u = r.nextServer + 1
  · simp only [hudp, Function.update_self] at hu
    cases hu
  · by_cases htcp : u = r.nextServer
    · subst htcp
      simp only [Function.update_of_ne hudp, Function.update_self] at hu
      cases hu
    · simp only [Function.update_of_ne hudp, Function.update_of_ne htcp] at hu ⊢
      exact h.destroyed u hu

end Gone

/-! ### Every run -/

section Runs

variable {r t : Router w ο} {rest : List Op} {op : Op} {outcome posted : Bool}

structure LifeOk (r : Router w ο) : Prop where
  world : WorldOk r
  pool : PoolAttended r
  gone : Gone r

theorem WorldOk.control (h : WorldOk r) (hpool : PoolOk n r.port) (hregistry : RegistryOk r.port)
    (htodo : r.todo = op :: rest) (hstep : r.control n op rest outcome posted = some t) (hdrawn : t.port.drawn < 2 ^ w) :
    WorldOk t := by
  have hsound := h.orderly.sound
  rw [htodo] at hsound
  have hskip : (∀ u, op.subject ≠ some u) → ∀ u, (r.servers u).stage.resting = true :=
    fun hop u => h.orderly.rests htodo (hop u)
  cases op with
  | startPool =>
    obtain ⟨q, hq, rfl⟩ := Option.map_eq_some_iff.mp hstep
    exact h.startPool htodo hq
  | stopPool =>
    obtain ⟨q, hq, rfl⟩ := Option.map_eq_some_iff.mp hstep
    exact h.stopPool htodo hq
  | poolStarted =>
    simp only [Router.control] at hstep
    split_ifs at hstep
    obtain rfl := Option.some.inj hstep
    exact h.skip htodo (by simp) (by simp) (hskip (by simp [Op.subject])) hsound r.isActive
  | startServer u ds =>
    obtain rfl := Option.some.inj hstep
    exact h.startServer hregistry htodo hdrawn
  | startFilter =>
    obtain rfl := Option.some.inj hstep
    exact h.startFilter htodo outcome
  | stopServer u =>
    obtain rfl := Option.some.inj hstep
    exact h.stopServer hregistry htodo
  | drain =>
    simp only [Router.control] at hstep
    split_ifs at hstep with hidle
    obtain rfl := Option.some.inj hstep
    exact h.drain hpool htodo hidle
  | deactivate =>
    obtain rfl := Option.some.inj hstep
    exact h.skip htodo (by simp) (by simp) (hskip (by simp [Op.subject])) hsound false
  | register servers =>
    obtain rfl := Option.some.inj hstep
    exact h.register htodo
  | destroy v =>
    obtain rfl := Option.some.inj hstep
    exact h.destroy htodo

theorem LifeOk.called (h : LifeOk r) (htodo : r.todo = []) {isActive : Bool} {todo : List Op}
    (hworld : WorldOk { r with isActive, todo }) (hnone : ∀ u, .destroy u ∉ todo) :
    LifeOk { r with isActive, todo } := by
  refine ⟨hworld, fun left hleft => ?_, h.gone.congr rfl (doomed_of_none hnone)⟩
  obtain ⟨rest, hcontra⟩ := h.pool left hleft
  rw [htodo] at hcontra
  cases hcontra

theorem LifeOk.step {a : Label w ο} (h : LifeOk r) (hinvariant : CompletionPort.Invariant n r.port)
    (hdispatch : DispatchOk r.port) (hstep : step n r a = some t) (hdrawn : t.port.drawn < 2 ^ w) : LifeOk t := by
  cases a with
  | start =>
    simp only [RouterLifecycle.step] at hstep
    split_ifs at hstep
    · obtain ⟨htodo, rfl⟩ := call_eq hstep
      exact h.called htodo (h.world.nothing htodo true) (by simp)
    · obtain ⟨htodo, rfl⟩ := call_eq hstep
      exact h.called htodo (h.world.start htodo) (by simp [Router.startProgram])
  | stop =>
    simp only [RouterLifecycle.step] at hstep
    split_ifs at hstep
    · obtain ⟨htodo, rfl⟩ := call_eq hstep
      exact h.called htodo (h.world.stop htodo) (by simp [Router.stopProgram, Router.stopServers])
    · obtain ⟨htodo, rfl⟩ := call_eq hstep
      exact h.called htodo (h.world.nothing htodo false) (by simp)
  | addSocks5Proxy tcp udp start =>
    obtain ⟨called, hcalled, rfl⟩ := Option.map_eq_some_iff.mp hstep
    obtain ⟨htodo, rfl⟩ := call_eq hcalled
    refine ⟨h.world.add htodo, fun left hleft => ?_, h.gone.add⟩
    obtain ⟨rest, hcontra⟩ := h.pool left hleft
    rw [htodo] at hcontra
    cases hcontra
  | control outcome posted =>
    simp only [RouterLifecycle.step] at hstep
    split at hstep
    · rename_i op rest htodo
      exact ⟨h.world.control hinvariant.pool hdispatch.registry htodo hstep hdrawn, h.pool.control h.world htodo hstep,
        h.gone.control h.world htodo hstep⟩
    · cases hstep
  | createThreadFails =>
    obtain ⟨q, hq, rfl⟩ := Option.map_eq_some_iff.mp hstep
    refine ⟨h.world.createThreadFails h.pool hq, fun left _ => ⟨[], rfl⟩, h.gone.congr rfl trivial⟩
  | worker b =>
    simp only [RouterLifecycle.step] at hstep
    split_ifs at hstep with hb
    obtain ⟨q, hq, rfl⟩ := Option.map_eq_some_iff.mp hstep
    have hdoes := step_does hq
    exact ⟨h.world.worker hinvariant hdispatch hb hdoes,
      h.pool.of_caller rfl fun left hleft => workers_creating hb hdoes hleft, h.gone.congr rfl h.gone.doomed⟩
  | handler i reposted =>
    have hworld := h.world.handler hstep
    obtain rfl | ⟨v, operations, y, rfl, -⟩ := handler_turn (n := 0) hstep
    · exact ⟨hworld, h.pool, h.gone.congr rfl h.gone.doomed⟩
    · have hshut : ∀ u, ((r.turn v operations i y).servers u).stage.shut = (r.servers u).stage.shut :=
        fun u => congrArg Stage.shut (turn_same u).1
      refine ⟨hworld, h.pool.of_caller rfl fun left hleft => ⟨left, hleft⟩, fun u hu => ?_, ?_⟩
      · rw [hshut]
        exact h.gone.destroyed u ((turn_same u).2.1.symm.trans hu)
      · exact Doomed.mono h.gone.doomed fun u hu => (hshut u).trans hu

structure Invariant (n : ℕ) (r : Router w ο) : Prop where
  port : CompletionPort.Invariant n r.port
  life : r.port.drawn < 2 ^ w → LifeOk r

theorem invariant_step (a : Label w ο) (h : Invariant n r) (hstep : step n r a = some t) : Invariant n t := by
  have hport := step_port hstep
  have hle : r.port.drawn ≤ t.port.drawn := by
    obtain hsame | ⟨b, hdoes⟩ := hport
    · rw [hsame]
    · exact drawn_le hdoes
  constructor
  · obtain hsame | ⟨b, hdoes⟩ := hport
    · rw [hsame]
      exact h.port
    · exact h.port.does hdoes
  · intro hdrawn
    have hdrawn' := Nat.lt_of_le_of_lt hle hdrawn
    exact (h.life hdrawn').step h.port (h.port.dispatch hdrawn') hstep hdrawn

theorem invariant_initial : Invariant n (initial w ο) := by
  refine ⟨CompletionPort.invariant_initial n, fun _ => ⟨⟨⟨.inl (by simp [initial]), fun _ => trivial, ?_, trivial,
    by simp [initial], by simp [initial], fun _ _ => ⟨rfl, rfl⟩⟩, fun _ => ?_, fun _ => rfl⟩, ?_, ?_, trivial⟩⟩
  · intro v hv
    cases hv
  · exact newServer_ok (fun k hk => (by cases hk)) fun c phase hc => (by cases hc)
  · intro left hleft
    cases hleft
  · intro v hv
    cases hv

/-- The counter of a TCP server counts the workers inside its handler, and whoever is past the test of
    `end_server_` works on a completion of the session that is open. -/
structure Guards (r : Router w ο) : Prop where
  counted : ∀ v, (r.servers v).isTcp = true → (r.servers v).activeIocpOperations = inside v r.port.threads
  working : ∀ v c, .calling v c .processing ∈ r.port.threads → (r.servers v).isTcp = true →
    (r.servers v).gaveUp = false → (r.servers v).proxySockets = true ∧ (r.servers v).destroyed = false ∧
      c.completionKey = (r.servers v).sessionKey

theorem LifeOk.guards (h : LifeOk r) : Guards r := by
  refine ⟨fun v htcp => ((h.world.servers v).tcp htcp).counted, fun v c hc htcp hgave => ?_⟩
  have hok := (h.world.servers v).tcp htcp
  have hlive := hok.processing hgave c hc
  refine ⟨hok.sockets ?_, Bool.eq_false_of_not_eq_true fun hdestroyed => ?_, (hok.calls c _ hc).1⟩
  · cases hstage : (r.servers v).stage <;> simp_all [Stage.live, Stage.opened]
  · have hshut := h.gone.destroyed v hdestroyed
    cases hstage : (r.servers v).stage <;> simp_all [Stage.live, Stage.shut]

/-- However the calls of the router, the workers and the kernel interleave, as long as no worker has used a
    destroyed server. -/
theorem always_guards (n : ℕ) (labels : List (Label w ο)) :
    Always (step n) (fun r => r.port.drawn < 2 ^ w → r.usedDestroyed = false → Guards r) (initial w ο) labels := by
  have hinvariant : Always (step n) (Invariant n) (initial w ο) labels :=
    always_of_invariant (fun _ a _ h hstep => invariant_step a h hstep) labels invariant_initial
  exact always_mono (fun r h hdrawn _ => (h.life hdrawn).guards) hinvariant

end Runs

end ProxySwitch.RouterLifecycle
