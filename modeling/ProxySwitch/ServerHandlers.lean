import ProxySwitch.RouterLifecycle

set_option autoImplicit false

namespace ProxySwitch.RouterLifecycle
open CompletionPort

variable {w : ℕ} {ο : Type} {n : ℕ}

/-! ### What the workers leave alone -/

section Workers

variable {η φ : Type} {entry : φ} {p q : IoCompletionPort w ο η φ} {b : CompletionPort.Label w ο η φ}

theorem looked_frame {i : ℕ} {c : Completion w ο} :
    (p.looked entry i c).handlers = p.handlers ∧ (p.looked entry i c).associating = p.associating ∧
      (p.looked entry i c).associations = p.associations ∧ (p.looked entry i c).active = p.active := by
  unfold IoCompletionPort.looked
  split <;> exact ⟨rfl, rfl, rfl, rfl⟩

theorem examined_frame {i : ℕ} {status : Option (Completion w ο)} :
    (p.examined i status).handlers = p.handlers ∧ (p.examined i status).associating = p.associating ∧
      (p.examined i status).associations = p.associations ∧ (p.examined i status).active = p.active := by
  unfold IoCompletionPort.examined
  split_ifs
  · cases status with
    | none => exact ⟨rfl, rfl, rfl, rfl⟩
    | some c =>
      simp only
      split_ifs <;> exact ⟨rfl, rfl, rfl, rfl⟩
  · exact ⟨rfl, rfl, rfl, rfl⟩

theorem associateWithKey_frame {key : BitVec w} :
    (p.associateWithKey key).handlers = p.handlers ∧ (p.associateWithKey key).associating = p.associating ∧
      (p.associateWithKey key).associations = p.associations ∧ (p.associateWithKey key).active = p.active ∧
      (p.associateWithKey key).threads = p.threads ∧ (p.associateWithKey key).caller = p.caller := by
  unfold IoCompletionPort.associateWithKey
  split_ifs <;> exact ⟨rfl, rfl, rfl, rfl, rfl, rfl⟩

theorem workers_frame (hb : isWorkers b = true) (hstep : Does n entry p b q) :
    q.handlers = p.handlers ∧ q.associating = p.associating ∧ q.associations = p.associations ∧
      q.active = p.active := by
  cases hstep with
  | created _ _ | allCreated _ | woken _ _ _ | wakeUpLost _ _ | allWoken _ | joined _ _ _ | allJoined _ _ _
  | checked _ _ | dequeued _ _ _ _ _ | timedOut _ _ | posted _ _ | keyShared _ _ _ _ => exact ⟨rfl, rfl, rfl, rfl⟩
  | keyFound key _ =>
    obtain ⟨hhandlers, hassociating, hassociations, hactive, -⟩ := associateWithKey_frame (p := p)
    exact ⟨hhandlers, hassociating, hassociations, hactive⟩
  | examined i status _ => exact examined_frame
  | looked i c _ => exact looked_frame
  | _ => cases hb

/-- A handler is called in its first phase only, for a completion that is being looked up. -/
theorem workers_calling {v : η} {c : Completion w ο} {phase : φ} (hb : isWorkers b = true)
    (hstep : Does n entry p b q) (hmem : .calling v c phase ∈ q.threads) :
    .calling v c phase ∈ p.threads ∨ phase = entry ∧ p.handlers c.completionKey = some v ∧
      ∃ i : ℕ, p.threads[i]? = some (.looking c) := by
  have hgoto : ∀ {i : ℕ} {x : Worker w ο η φ}, .calling v c phase ∈ (p.goto i x).threads →
      (∀ v c phase, x ≠ .calling v c phase) → .calling v c phase ∈ p.threads := by
    intro i x hmem hx
    obtain hmem | hmem := mem_goto hmem
    · exact hmem
    · exact absurd hmem.symm (hx v c phase)
  cases hstep with
  | created _ _ =>
    obtain hmem | hmem := List.mem_append.mp hmem
    · exact .inl hmem
    · cases List.mem_singleton.mp hmem
  | allCreated _ | woken _ _ _ | wakeUpLost _ _ | allWoken _ | joined _ _ _ | posted _ _ | keyShared _ _ _ _ =>
    exact .inl hmem
  | keyFound key _ => exact .inl (associateWithKey_frame.2.2.2.2.1 ▸ hmem)
  | allJoined _ _ _ => exact absurd hmem List.not_mem_nil
  | checked i _ =>
    refine .inl (hgoto hmem fun v c phase => ?_)
    split_ifs <;> simp
  | dequeued i d rest _ _ => exact .inl (hgoto hmem (by simp))
  | timedOut i _ => exact .inl (hgoto hmem (by simp))
  | examined i status _ =>
    unfold IoCompletionPort.examined at hmem
    split_ifs at hmem
    · cases status with
      | none => exact .inl (hgoto hmem (by simp))
      | some d =>
        simp only at hmem
        split_ifs at hmem
        · exact .inl (hgoto hmem (by simp))
        · exact .inl (hgoto hmem (by simp))
    · exact .inl (hgoto hmem (by simp))
  | looked i d hthread =>
    unfold IoCompletionPort.looked at hmem
    split at hmem
    · rename_i handler hfound
      obtain hmem | hmem := mem_goto hmem
      · exact .inl hmem
      · obtain ⟨rfl, rfl, rfl⟩ := Worker.calling.inj hmem
        exact .inr ⟨rfl, hfound, i, hthread⟩
    · exact .inl (hgoto hmem (by simp))
  | _ => cases hb

end Workers

/-! ### The workers inside a handler -/

section Inside

variable {p q : IoCompletionPort w ο ℕ Phase} {b : CompletionPort.Label w ο ℕ Phase} {v : ℕ}

/-- Whether the worker has passed the increment of `v`'s counter and not yet the decrement. -/
def isInside (v : ℕ) : Worker w ο ℕ Phase → Bool
  | .calling u _ phase => u == v && phase != .entering
  | _ => false

theorem isInside_self {c : Completion w ο} {phase : Phase} (h : phase ≠ .entering) :
    isInside v (.calling v c phase) = true := by
  simp [isInside, h]

theorem isInside_entering (u : ℕ) (c : Completion w ο) : isInside v (.calling u c .entering) = false := by
  simp [isInside]

def inside (v : ℕ) (threads : List (Worker w ο ℕ Phase)) : ℕ := threads.countP (isInside v)

theorem inside_set {threads : List (Worker w ο ℕ Phase)} {i : ℕ} {x y : Worker w ο ℕ Phase}
    (hthread : threads[i]? = some x) : inside v (threads.set i y) + (isInside v x).toNat =
      inside v threads + (isInside v y).toNat := by
  obtain ⟨hlt, rfl⟩ := List.getElem?_eq_some_iff.mp hthread
  have hle := List.boole_getElem_le_countP (p := isInside v) hlt
  rw [inside, inside, List.countP_set hlt]
  cases hx : isInside v threads[i] <;> cases isInside v y <;>
    simp only [hx, Bool.toNat_false, Bool.toNat_true, Bool.false_eq_true, if_false, if_true] at hle ⊢ <;> omega

theorem inside_set_same {threads : List (Worker w ο ℕ Phase)} {i : ℕ} {x y : Worker w ο ℕ Phase}
    (hthread : threads[i]? = some x) (hsame : isInside v y = isInside v x) :
    inside v (threads.set i y) = inside v threads := by
  have hset := inside_set (v := v) (y := y) hthread
  rw [hsame] at hset
  exact Nat.add_right_cancel hset

theorem workers_inside (hpool : PoolOk n p) (hb : isWorkers b = true) (hstep : Does n .entering p b q) :
    inside v q.threads = inside v p.threads := by
  cases hstep with
  | created _ _ => simp [inside, isInside]
  | allCreated _ | woken _ _ _ | wakeUpLost _ _ | allWoken _ | joined _ _ _ | posted _ _ | keyShared _ _ _ _ => rfl
  | keyFound key _ => rw [associateWithKey_frame.2.2.2.2.1]
  | allJoined j hjoining hthread =>
    have hcaller := hpool.caller
    simp only [CallerOk, hjoining] at hcaller
    refine (List.countP_eq_zero.mpr fun x hx => ?_).symm
    rw [threads_exited hcaller.2.2 hthread x hx]
    exact Bool.false_ne_true
  | checked i hthread =>
    refine inside_set_same hthread ?_
    split_ifs <;> rfl
  | dequeued i d rest hthread _ => exact inside_set_same hthread rfl
  | timedOut i hthread => exact inside_set_same hthread rfl
  | examined i status hthread =>
    unfold IoCompletionPort.examined
    split_ifs
    · cases status with
      | none => exact inside_set_same hthread rfl
      | some d =>
        simp only
        split_ifs
        · exact inside_set_same hthread rfl
        · exact inside_set_same hthread rfl
    · exact inside_set_same hthread rfl
  | looked i d hthread =>
    unfold IoCompletionPort.looked
    split
    · exact inside_set_same hthread (by simp [isInside])
    · exact inside_set_same hthread rfl
  | _ => cases hb

end Inside

/-! ### A server -/

section Servers

def Stage.ended : Stage → Bool
  | .starting | .reserved | .running => false
  | _ => true

def Stage.quiet : Stage → Bool
  | .idle | .starting | .reserved => true
  | _ => false

def Stage.live : Stage → Bool
  | .running | .ending | .waiting _ => true
  | _ => false

def Stage.opened : Stage → Bool
  | .idle | .cleared => false
  | _ => true

structure TcpOk (port : IoCompletionPort w ο ℕ Phase) (v : ℕ) (server : Server w) : Prop where
  registered : ∀ k, port.handlers k = some v → k = server.sessionKey ∧
    (server.stage = .reserved ∨ (server.stage = .running ∨ server.stage = .ending) ∧ server.completionKey = k)
  counted : server.activeIocpOperations = inside v port.threads
  calls : ∀ c phase, .calling v c phase ∈ port.threads →
    c.completionKey = server.sessionKey ∧ server.stage.quiet = false
  processing : server.gaveUp = false → ∀ c, .calling v c .processing ∈ port.threads → server.stage.live = true
  sockets : server.stage.opened = true → server.proxySockets = true

structure ServerOk (port : IoCompletionPort w ο ℕ Phase) (v : ℕ) (server : Server w) : Prop where
  ended : server.endServer = server.stage.ended
  reserved : server.stage = .reserved → port.associating = [(server.sessionKey, v)]
  tcp : server.isTcp = true → TcpOk port v server

variable {p q : IoCompletionPort w ο ℕ Phase} {b : CompletionPort.Label w ο ℕ Phase} {v : ℕ} {server : Server w}

theorem ServerOk.frame (h : ServerOk p v server) (hthreads : q.threads = p.threads)
    (hhandlers : ∀ k, q.handlers k = some v → p.handlers k = some v)
    (hreserved : server.stage = .reserved → q.associating = p.associating) : ServerOk q v server := by
  refine ⟨h.ended, fun hstage => (hreserved hstage).trans (h.reserved hstage), fun htcp => ?_⟩
  obtain ⟨hregistered, hcounted, hcalls, hprocessing, hsockets⟩ := h.tcp htcp
  exact ⟨fun k hk => hregistered k (hhandlers k hk), hthreads ▸ hcounted, hthreads ▸ hcalls, hthreads ▸ hprocessing,
    hsockets⟩

/-- A handler is found under the key of the session that is open. -/
theorem look_stage (h : TcpOk p v server) (hreserved : server.stage = .reserved → p.associating = [(server.sessionKey, v)])
    (hregistry : RegistryOk p) {c : Completion w ο} (hfound : p.handlers c.completionKey = some v)
    (howner : (c.completionKey, v) ∈ p.associations) :
    c.completionKey = server.sessionKey ∧ server.stage.quiet = false := by
  obtain ⟨hkey, hstage⟩ := h.registered _ hfound
  refine ⟨hkey, ?_⟩
  obtain hstage | ⟨hstage | hstage, -⟩ := hstage
  · -- the key of a call under way has no completions yet
    have hnodup := hregistry.nodup
    rw [given, hreserved hstage, List.map_append] at hnodup
    exact absurd hkey ((List.nodup_append.mp hnodup).2.2 _ (List.mem_map_of_mem howner) _ (by simp))
  · rw [hstage]
    rfl
  · rw [hstage]
    rfl

theorem ServerOk.workers (h : ServerOk p v server) (hinvariant : CompletionPort.Invariant n p)
    (hdispatch : DispatchOk p) (hb : isWorkers b = true) (hstep : Does n .entering p b q) : ServerOk q v server := by
  obtain ⟨hhandlers, hassociating, hassociations, -⟩ := workers_frame hb hstep
  refine ⟨h.ended, fun hstage => hassociating.trans (h.reserved hstage), fun htcp => ?_⟩
  have hok := h.tcp htcp
  have ⟨hregistered, hcounted, hcalls, hprocessing, hsockets⟩ := hok
  refine ⟨fun k hk => hregistered k (hhandlers ▸ hk), ?_, fun c phase hmem => ?_, fun hgave c hmem => ?_, hsockets⟩
  · rw [hcounted, workers_inside hinvariant.pool hb hstep]
  · obtain hmem | ⟨-, hfound, i, hthread⟩ := workers_calling hb hstep hmem
    · exact hcalls c phase hmem
    · have hposted := mem_posted hinvariant.balanced hthread rfl
      exact look_stage hok h.reserved hdispatch.registry hfound
        (owner_of_look hdispatch.registry hdispatch.calls hposted hfound)
  · obtain hmem | ⟨hphase, -⟩ := workers_calling hb hstep hmem
    · exact hprocessing hgave c hmem
    · cases hphase

theorem TcpOk.handled (h : TcpOk p v server) {i : ℕ} {x y : Worker w ο ℕ Phase} {ops : ℤ} (hthread : p.threads[i]? = some x)
    (hcalls : ∀ c phase, y = .calling v c phase → ∃ phase', x = .calling v c phase')
    (hops : ops + (isInside v x).toNat = server.activeIocpOperations + (isInside v y).toNat)
    (hlive : ∀ c, y = .calling v c .processing → server.stage.live = true) :
    TcpOk (p.goto i y) v { server with activeIocpOperations := ops } := by
  have hmem : x ∈ p.threads := List.mem_of_getElem? hthread
  refine ⟨h.registered, ?_, fun c phase hc => ?_, fun hgave c hc => ?_, h.sockets⟩
  · have hset := inside_set (v := v) (y := y) hthread
    have hcounted := h.counted
    simp only [IoCompletionPort.goto]
    omega
  · obtain hc | hc := mem_goto hc
    · exact h.calls c phase hc
    · obtain ⟨phase', rfl⟩ := hcalls c phase hc.symm
      exact h.calls c phase' hmem
  · obtain hc | hc := mem_goto hc
    · exact h.processing hgave c hc
    · exact hlive c hc.symm

theorem ServerOk.other (h : ServerOk p v server) {i : ℕ} {x y : Worker w ο ℕ Phase} (hthread : p.threads[i]? = some x)
    (hx : isInside v x = false) (hy : ∀ c phase, y ≠ .calling v c phase) : ServerOk (p.goto i y) v server := by
  refine ⟨h.ended, h.reserved, fun htcp => ?_⟩
  have hyinside : isInside v y = false := by
    cases y with
    | calling u c phase =>
      have hne : u ≠ v := by
        rintro rfl
        exact hy c phase rfl
      simp [isInside, hne]
    | _ => rfl
  exact (h.tcp htcp).handled hthread (fun c phase hc => absurd hc (hy c phase)) (by rw [hx, hyinside])
    fun c hc => absurd hc (hy c _)

end Servers

/-! ### Turns of the handlers -/

section Handlers

variable {r t : Router w ο} {i v : ℕ} {c : Completion w ο} {phase : Phase}

theorem turn_servers {ops : ℤ} {y : Worker w ο ℕ Phase} (h : ∀ u, ServerOk r.port u (r.servers u))
    (hthread : r.port.threads[i]? = some (.calling v c phase))
    (hy : ∀ u d phase', y = .calling u d phase' → u = v ∧ d = c)
    (hops : (r.servers v).isTcp = true → ops + (isInside v (.calling v c phase : Worker w ο ℕ Phase)).toNat =
      (r.servers v).activeIocpOperations + (isInside v y).toNat)
    (hlive : (r.servers v).isTcp = true → ∀ d, y = .calling v d .processing → (r.servers v).stage.live = true) :
    ∀ u, ServerOk (r.turn v ops i y).port u ((r.turn v ops i y).servers u) := by
  intro u
  by_cases hu : u = v
  · subst hu
    simp only [Router.turn, Router.setServer, Function.update_self]
    refine ⟨(h u).ended, (h u).reserved, fun htcp => ?_⟩
    refine ((h u).tcp htcp).handled hthread (fun d phase' hd => ?_) (hops htcp) (hlive htcp)
    obtain ⟨-, rfl⟩ := hy u d phase' hd
    exact ⟨phase, rfl⟩
  · simp only [Router.turn, Router.setServer, Function.update_of_ne hu]
    refine (h u).other hthread ?_ fun d phase' hd => hu (hy u d phase' hd).1
    have hne : v ≠ u := fun hv => hu hv.symm
    simp [isInside, hne]

theorem calling_eq {phase' : Phase} (u : ℕ) (d : Completion w ο) (phase'' : Phase)
    (h : (Worker.calling v c phase' : Worker w ο ℕ Phase) = .calling u d phase'') : u = v ∧ d = c := by
  obtain ⟨rfl, rfl, -⟩ := Worker.calling.inj h
  exact ⟨rfl, rfl⟩

theorem handler_servers (h : ∀ u, ServerOk r.port u (r.servers u)) {reposted : Bool}
    (hstep : r.handler i reposted = some t) : ∀ u, ServerOk t.port u (t.servers u) := by
  unfold Router.handler at hstep
  split at hstep
  swap
  · cases hstep
  rename_i v c phase hthread
  by_cases hdestroyed : (r.servers v).destroyed = true
  · rw [if_pos hdestroyed] at hstep
    obtain rfl := Option.some.inj hstep
    exact h
  rw [if_neg hdestroyed] at hstep
  have hmem := List.mem_of_getElem? hthread
  have hlive : (r.servers v).isTcp = true → (r.servers v).endServer = false → (r.servers v).stage.live = true := by
    intro htcp hend
    have hquiet := (((h v).tcp htcp).calls c phase hmem).2
    rw [(h v).ended] at hend
    cases hstage : (r.servers v).stage <;> simp_all [Stage.ended, Stage.quiet, Stage.live]
  cases phase with
  | entering =>
    simp only at hstep
    split_ifs at hstep with htcp
    · obtain rfl := Option.some.inj hstep
      refine turn_servers h hthread calling_eq (fun _ => ?_) (by simp)
      rw [isInside_entering, isInside_self (by decide)]
      exact Int.add_zero _
    · obtain rfl := Option.some.inj hstep
      exact turn_servers h hthread calling_eq (fun h' => absurd h' htcp) fun h' => absurd h' htcp
    · obtain rfl := Option.some.inj hstep
      exact turn_servers h hthread calling_eq (fun h' => absurd h' htcp) fun h' => absurd h' htcp
  | counted =>
    simp only at hstep
    obtain rfl := Option.some.inj hstep
    refine turn_servers h hthread calling_eq (fun _ => ?_) fun htcp d hd => ?_
    · split_ifs <;> rfl
    · split_ifs at hd with hend
      · cases hd
      · exact hlive htcp (Bool.eq_false_of_not_eq_true hend)
  | processing =>
    simp only at hstep
    split_ifs at hstep with hreposted
    · obtain rfl := Option.some.inj hstep
      simp only [Bool.and_eq_true, Bool.not_eq_true'] at hreposted
      refine turn_servers h hthread calling_eq (fun htcp => ?_) (by simp)
      rw [hreposted.1.1] at htcp
      cases htcp
    · obtain rfl := Option.some.inj hstep
      exact turn_servers h hthread calling_eq (fun _ => rfl) (by simp)
  | leaving =>
    obtain rfl := Option.some.inj hstep
    refine turn_servers h hthread (by simp) (fun _ => ?_) (by simp)
    rw [isInside_self (by decide)]
    simp [isInside]

end Handlers

end ProxySwitch.RouterLifecycle
