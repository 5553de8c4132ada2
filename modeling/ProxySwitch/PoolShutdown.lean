import ProxySwitch.CompletionDispatch

set_option autoImplicit false

namespace ProxySwitch.CompletionPort
open TransitionRuns

variable {w : ℕ} {ο η φ : Type} {n : ℕ} {entry : φ} {s t : IoCompletionPort w ο η φ}

/-- What a shutdown waits for: the caller, the workers' turns and the return of a handler. -/
def Label.isClosing : Label w ο η φ → Bool
  | .stopThread _ | .join | .check _ | .dequeue _ | .timeout _ | .examine _ | .look _ | .handled _ => true
  | _ => false

def Caller.isHalting : Caller → Bool
  | .waking _ | .joining _ => true
  | _ => false

def Worker.rank : Worker w ο η φ → ℕ
  | .looking _ => 3
  | .waiting | .calling _ _ _ => 2
  | .checking | .returned _ => 1
  | .exited => 0

def Caller.rank (threads : ℕ) : Caller → ℕ
  | .waking left => left + threads + 2
  | .joining joined => threads + 1 - joined
  | _ => 0

def stopRank (s : IoCompletionPort w ο η φ) : ℕ :=
  (s.threads.map Worker.rank).sum + s.caller.rank s.threads.length

theorem stopRank_goto {i : ℕ} {p q : Worker w ο η φ} (hthread : s.threads[i]? = some p) :
    stopRank (s.goto i q) + p.rank = stopRank s + q.rank := by
  have hset := sum_map_set Worker.rank q hthread
  simp only [stopRank, IoCompletionPort.goto, List.length_set]
  omega

theorem stopRank_goto_lt {i : ℕ} {p q : Worker w ο η φ} (hthread : s.threads[i]? = some p)
    (hless : q.rank < p.rank) : stopRank (s.goto i q) < stopRank s := by
  have hset := stopRank_goto (q := q) hthread
  omega

theorem joined_le {joined : ℕ} (hfirst : ∀ i < joined, s.threads[i]? = some .exited) :
    joined ≤ s.threads.length := by
  by_contra hlt
  have hlast := hfirst s.threads.length (by omega)
  rw [List.getElem?_eq_none_iff.mpr (Nat.le_refl _)] at hlast
  cases hlast

theorem inactive_of_halting (h : PoolOk n s) (hhalting : s.caller.isHalting = true) : s.active = false := by
  have hcaller := h.caller
  unfold CallerOk at hcaller
  cases hc : s.caller with
  | idle | creating _ =>
    rw [hc] at hhalting
    cases hhalting
  | waking _ | joining _ =>
    simp only [hc] at hcaller
    exact hcaller.1

/-- A step of a shutdown lowers the rank or ends it; no other step raises the rank. -/
theorem stopRank_does {a : Label w ο η φ} (h : PoolOk n s) (hhalting : s.caller.isHalting = true)
    (hstep : Does n entry s a t) : s.stops < t.stops ∨
      t.stops = s.stops ∧ t.caller.isHalting = true ∧ stopRank t + a.isClosing.toNat ≤ stopRank s := by
  have hinactive := inactive_of_halting h hhalting
  have hcaller := h.caller
  unfold CallerOk at hcaller
  have hgoto : ∀ {i : ℕ} {p q : Worker w ο η φ}, s.threads[i]? = some p → q.rank < p.rank →
      stopRank (s.goto i q) + 1 ≤ stopRank s := fun hthread hless => stopRank_goto_lt hthread hless
  cases hstep with
  | alreadyStarted hactive =>
    rw [hinactive] at hactive
    cases hactive
  | alreadyStopped _ => exact .inr ⟨rfl, hhalting, Nat.le_refl _⟩
  | started _ hidle | stopped _ hidle | created _ hidle | createFailed _ hidle | allCreated hidle =>
    rw [hidle] at hhalting
    cases hhalting
  | woken left overlapped hwaking | wakeUpLost left hwaking =>
    refine .inr ⟨rfl, rfl, ?_⟩
    simp only [stopRank, hwaking, Caller.rank, IoCompletionPort.enqueue, Label.isClosing, Bool.toNat_true]
    omega
  | allWoken hwaking =>
    refine .inr ⟨rfl, rfl, ?_⟩
    simp only [stopRank, hwaking, Caller.rank, Label.isClosing, Bool.toNat_true]
    omega
  | joined j hjoining hthread =>
    simp only [hjoining] at hcaller
    have hle := joined_le hcaller.2.2
    obtain ⟨hlt, -⟩ := List.getElem?_eq_some_iff.mp hthread
    refine .inr ⟨rfl, rfl, ?_⟩
    simp only [stopRank, hjoining, Caller.rank, Label.isClosing, Bool.toNat_true]
    omega
  | allJoined j hjoining hthread => exact .inl (Nat.lt_succ_self _)
  | checked i hthread =>
    refine .inr ⟨rfl, hhalting, hgoto hthread ?_⟩
    simp [hinactive, Worker.rank]
  | dequeued i c rest hthread hqueue => exact .inr ⟨rfl, hhalting, hgoto hthread (Nat.lt_succ_self 1)⟩
  | timedOut i hthread => exact .inr ⟨rfl, hhalting, hgoto hthread (Nat.lt_succ_self 1)⟩
  | examined i status hthread =>
    simp only [IoCompletionPort.examined, hinactive, Bool.false_eq_true, if_false]
    exact .inr ⟨rfl, hhalting, hgoto hthread Nat.zero_lt_one⟩
  | looked i c hthread =>
    unfold IoCompletionPort.looked
    split
    · exact .inr ⟨rfl, hhalting, hgoto hthread (Nat.lt_succ_self 2)⟩
    · exact .inr ⟨rfl, hhalting, hgoto hthread (show 1 < 3 by decide)⟩
  | handles i handler c phase phase' hthread =>
    have hset := stopRank_goto (q := .calling handler c phase') hthread
    refine .inr ⟨rfl, hhalting, ?_⟩
    simp only [Worker.rank, Label.isClosing, Bool.toNat_false] at hset ⊢
    omega
  | handled i handler c phase hthread => exact .inr ⟨rfl, hhalting, hgoto hthread (Nat.lt_succ_self 1)⟩
  | posted c hkey => exact .inr ⟨rfl, hhalting, Nat.le_refl _⟩
  | reserved ioHandler =>
    unfold IoCompletionPort.reserve
    simp only
    split <;> exact .inr ⟨rfl, hhalting, Nat.le_refl _⟩
  | associated i key ioHandler success hassociating =>
    unfold IoCompletionPort.associated
    simp only
    split_ifs <;> exact .inr ⟨rfl, hhalting, Nat.le_refl _⟩
  | keyFound key _ =>
    unfold IoCompletionPort.associateWithKey
    split_ifs <;> exact .inr ⟨rfl, hhalting, Nat.le_refl _⟩
  | keyShared i key success _ => exact .inr ⟨rfl, hhalting, Nat.le_refl _⟩
  | unregistered key =>
    unfold IoCompletionPort.unregisterHandler
    split_ifs <;> exact .inr ⟨rfl, hhalting, Nat.le_refl _⟩

theorem stops_le {a : Label w ο η φ} (hstep : Does n entry s a t) : s.stops ≤ t.stops := by
  cases hstep with
  | allJoined _ _ _ => exact Nat.le_succ _
  | examined i status _ =>
    unfold IoCompletionPort.examined
    split_ifs
    · cases status with
      | none => exact Nat.le_refl _
      | some c =>
        simp only
        split_ifs <;> exact Nat.le_refl _
    · exact Nat.le_refl _
  | looked i c _ =>
    unfold IoCompletionPort.looked
    split <;> exact Nat.le_refl _
  | reserved ioHandler =>
    unfold IoCompletionPort.reserve
    simp only
    split <;> exact Nat.le_refl _
  | associated i key ioHandler success _ =>
    unfold IoCompletionPort.associated
    simp only
    split_ifs <;> exact Nat.le_refl _
  | keyFound key _ =>
    unfold IoCompletionPort.associateWithKey
    split_ifs <;> exact Nat.le_refl _
  | unregistered key =>
    unfold IoCompletionPort.unregisterHandler
    split_ifs <;> exact Nat.le_refl _
  | _ => exact Nat.le_refl _

theorem worker_enabled {i : ℕ} {p : Worker w ο η φ} (hthread : s.threads[i]? = some p) (hp : p ≠ .exited) :
    ∃ a : Label w ο η φ, a.isClosing = true ∧ (step n entry s a).isSome := by
  cases p with
  | checking => exact ⟨.check i, rfl, by simp [step, hthread]⟩
  | waiting => exact ⟨.timeout i, rfl, by simp [step, hthread]⟩
  | returned status => exact ⟨.examine i, rfl, by simp [step, hthread]⟩
  | looking c => exact ⟨.look i, rfl, by simp [step, hthread]⟩
  | calling handler c phase => exact ⟨.handled i, rfl, by simp [step, hthread]⟩
  | exited => exact absurd rfl hp

theorem closing_enabled (hhalting : s.caller.isHalting = true) :
    ∃ a : Label w ο η φ, a.isClosing = true ∧ (step n entry s a).isSome := by
  cases hcaller : s.caller with
  | idle | creating _ =>
    rw [hcaller] at hhalting
    cases hhalting
  | waking left =>
    refine ⟨.stopThread none, rfl, ?_⟩
    cases left <;> simp [step, hcaller]
  | joining joined =>
    cases hthread : s.threads[joined]? with
    | none => exact ⟨.join, rfl, by simp [step, hcaller, hthread]⟩
    | some p =>
      by_cases hp : p = .exited
      · subst hp
        exact ⟨.join, rfl, by simp [step, hcaller, hthread]⟩
      · exact worker_enabled hthread hp

/-- The shutdown that followed `before` others is over. -/
def HasStopped (before : ℕ) (s : IoCompletionPort w ο η φ) : Prop := before < s.stops

/-- While a shutdown is under way it can go on, and after `stopRank` more of its steps it is over,
    whatever happens in between. -/
def Returns (n : ℕ) (entry : φ) (s : IoCompletionPort w ο η φ) : Prop :=
  s.caller.isHalting = true →
    (∃ a : Label w ο η φ, a.isClosing = true ∧ (step n entry s a).isSome) ∧
    ∀ more t, exec (step n entry) s more = some t → stopRank s < more.countP Label.isClosing →
      HasStopped s.stops t

/-- The shutdown that follows `before` others is under way or over. -/
def StopsAfter (n before : ℕ) (s : IoCompletionPort w ο η φ) : Prop :=
  PoolOk n s ∧ (HasStopped before s ∨ s.stops = before ∧ s.caller.isHalting = true)

theorem PoolOk.returns (h : PoolOk n s) : Returns n entry s := by
  intro hhalting
  refine ⟨closing_enabled hhalting, fun more t hrun hcount => ?_⟩
  refine goal_of_count (I := StopsAfter n s.stops) Label.isClosing stopRank (fun u a v hu hstep => ?_)
    (fun u a v hu hstep => ?_) (fun u a v hu hstep => ?_) ⟨h, .inr ⟨rfl, hhalting⟩⟩ hrun hcount
  · have hdoes := step_does hstep
    refine ⟨hu.1.does hdoes, ?_⟩
    obtain hover | ⟨hsame, hunder⟩ := hu.2
    · exact .inl (Nat.lt_of_lt_of_le hover (stops_le hdoes))
    · obtain hless | ⟨hsame', hunder', -⟩ := stopRank_does hu.1 hunder hdoes
      · exact .inl (hsame ▸ hless)
      · exact .inr ⟨hsame'.trans hsame, hunder'⟩
  · exact Nat.lt_of_lt_of_le hu (stops_le (step_does hstep))
  · have hdoes := step_does hstep
    obtain hover | ⟨hsame, hunder⟩ := hu.2
    · exact .inl (Nat.lt_of_lt_of_le hover (stops_le hdoes))
    · obtain hless | ⟨-, -, hrank⟩ := stopRank_does hu.1 hunder hdoes
      · exact .inl (hsame ▸ hless)
      · exact .inr hrank

theorem PoolOk.empty (h : PoolOk n s) (hactive : s.active = false) (hidle : s.caller = .idle) : s.threads = [] := by
  have hcaller := h.caller
  simp only [CallerOk, hidle, hactive, Bool.false_eq_true, if_false] at hcaller
  exact List.eq_nil_of_length_eq_zero hcaller

/-- Every shutdown ends, that of a start that could not create its threads included, and leaves no
    thread that could call a handler. -/
theorem always_poolReturns (n : ℕ) (entry : φ) (labels : List (Label w ο η φ)) :
    Always (step n entry) (fun s => Returns n entry s ∧
      (s.active = false → s.caller = .idle → s.threads = [])) (initial w ο η φ) labels :=
  always_mono (fun _ h => ⟨h.pool.returns, h.pool.empty⟩)
    (always_of_invariant (fun _ a _ h hstep => invariant_step a h hstep) labels (invariant_initial n))

end ProxySwitch.CompletionPort
