import Mathlib.Data.List.Nodup
import Mathlib.Logic.Relation
import ProxySwitch.KeyedLists
import ProxySwitch.SessionLifecycle
import ProxySwitch.TaskPools

set_option autoImplicit false

namespace ProxySwitch.SessionStops
open KeyedLists TaskPools TransitionRuns
open Relation (ReflTransGen)
open SessionLifecycle (Status ended)

/-- `parent` is the PID that the system keeps with a process, whoever has it by now. -/
structure Process where
  pid : ℕ
  created : ℕ
  parent : Option ℕ := none
  deriving DecidableEq

structure TrackedProcess where
  process : Process
  exited : Bool := false
  deriving DecidableEq

abbrev TrackedProcess.processId (p : TrackedProcess) : ℕ := p.process.pid

/-- `reused` says that the tracked process was gone when its PID was opened as `root`. -/
structure Kill where
  target : TrackedProcess
  root : Process
  reused : Bool
  killed : Process
  deriving DecidableEq

/-- The processes of the system and the session. `gone`, `listed` and `kills` keep which
    processes ended, which ones a stop found tracked as live, and what it killed for them. -/
structure Machine where
  running : List Process
  gone : List Process
  processes : List TrackedProcess
  status : Status
  listed : List TrackedProcess
  kills : List Kill

namespace Machine
variable (m : Machine)

def getProcessById (pid : ℕ) : Option Process := m.running.find? (·.pid == pid)

def isAlive (pid : ℕ) : Bool := (m.getProcessById pid).isSome

/-- A process counts as a child if its parent's PID is the one and it is younger. -/
def childrenOf (process : Process) : List Process :=
  m.running.filter fun c => c.parent == some process.pid && process.created < c.created

def exit (process : Process) : Machine :=
  { m with running := m.running.erase process, gone := process :: m.gone }

/-- Sets `ExitedAt` of the first tracked process that the test accepts. -/
def recordExit (test : TrackedProcess → Bool) : Machine :=
  { m with processes := updateFirst test (fun p => { p with exited := true }) m.processes }

def markExited (process : Process) : Machine := m.recordExit (·.process == process)

/-- `TerminateProcess` on an open handle, which a process that has exited ignores. -/
def kill (entry : Kill) : Machine :=
  if entry.killed ∈ m.running then { m.exit entry.killed with kills := entry :: m.kills } else m

end Machine

/-- The steps of `StopSession`. `kill` opens the tracked PID, `terminate` and `children` are the
    walk of `Kill(entireProcessTree: true)` over the processes that it has opened, with whether
    the system refused to kill one of them. -/
inductive Action
  | stop
  | list
  | next (toKill : List TrackedProcess)
  | find (p : TrackedProcess) (toKill : List TrackedProcess)
  | kill (p : TrackedProcess) (toKill : List TrackedProcess)
  | terminate (p : TrackedProcess) (root : Process) (reused refused : Bool) (found : List Process)
    (toKill : List TrackedProcess)
  | children (p : TrackedProcess) (root : Process) (reused refused : Bool) (process : Process)
    (found : List Process) (toKill : List TrackedProcess)

/-- `holdsCaller` is the tree that contains the program itself, which only its root is killed of. -/
structure Choice where
  holdsCaller : Bool := false
  refused : Bool := false

abbrev World := Pool Machine Action

def act (m : Machine) (choice : Choice) : Action → Machine × List Action
  | .stop => if ended.contains m.status then (m, []) else ({ m with status := .exited }, [.list])
  | .list =>
    let toKill := m.processes.filter fun p => !p.exited
    ({ m with listed := m.listed ++ toKill }, [.next toKill])
  | .next [] => (m, [])
  | .next (p :: toKill) =>
    if m.isAlive p.processId then (m, [.find p toKill])
    else (m.markExited p.process, [.next toKill])
  | .find p toKill =>
    (m, [if m.isAlive p.processId then .kill p toKill else .next toKill])
  | .kill p toKill =>
    match m.getProcessById p.processId with
    | none => (m.markExited p.process, [.next toKill])
    | some root =>
      let reused := m.gone.contains p.process
      if choice.holdsCaller then
        ((if choice.refused then m else m.kill ⟨p, root, reused, root⟩).markExited p.process,
          [.next toKill])
      else (m, [.terminate p root reused false [root] toKill])
  | .terminate p root reused refused (process :: found) toKill =>
    (if choice.refused then m else m.kill ⟨p, root, reused, process⟩,
      [.children p root reused (refused || choice.refused) process found toKill])
  | .terminate p _ _ refused [] toKill =>
    (if refused then m else m.markExited p.process, [.next toKill])
  | .children p root reused refused process found toKill =>
    (m, [.terminate p root reused refused (m.childrenOf process ++ found) toKill])

def turn (w : World) (action : Action) (choice : Choice) : Option (Machine × List Action) :=
  some (act w.shared choice action)

/-- A process starts under a free PID or ends, the session tracks one that it was told of, an exit
    is recorded, or the session gets another status. -/
inductive Outside
  | start (process : Process)
  | exit (process : Process)
  | track (process : Process)
  | recordExit (pid : ℕ)
  | assign (status : Status)

def outside (m : Machine) : Outside → Option Machine
  | .start process =>
    if m.isAlive process.pid then none else some { m with running := process :: m.running }
  | .exit process => if process ∈ m.running then some (m.exit process) else none
  | .track process =>
    -- it may have exited by the time the session hears of it
    if process ∈ m.running ∨ process ∈ m.gone then
      some
        (if m.processes.any (·.processId == process.pid) then m
        else { m with processes := m.processes ++ [⟨process, false⟩] })
    else none
  | .recordExit pid => some (m.recordExit (·.processId == pid))
  | .assign status => some { m with status := status }

abbrev Event := Label Unit Choice Outside

def step : World → Event → Option World := TaskPools.step (fun _ => Action.stop) turn outside

def start : World where
  shared := ⟨[], [], [], .running, [], []⟩
  tasks := []

def OnlyTracked (w : World) : Prop :=
  ∀ k ∈ w.shared.kills, ∃ p ∈ w.shared.listed,
    p.process.pid = k.killed.pid ∧ p.process.created = k.killed.created

def ChildOf (process child : Process) : Prop :=
  child.parent = some process.pid ∧ process.created < child.created

/-- What is killed for a tracked process is the process under its PID and what descends from it,
    and this is the tracked process unless that one was gone. -/
structure OfTarget (m : Machine) (p : TrackedProcess) (root : Process) (reused : Bool) : Prop where
  listed : p ∈ m.listed
  samePid : root.pid = p.process.pid
  same : reused = false → root = p.process

def TreesOnly (w : World) : Prop :=
  ∀ k ∈ w.shared.kills, OfTarget w.shared k.target k.root k.reused ∧
    ReflTransGen ChildOf k.root k.killed

section Machine
variable {m n : Machine} {pid : ℕ} {process : Process}

structure Wf (m : Machine) : Prop where
  pids : (m.running.map Process.pid).Nodup
  seen : ∀ p ∈ m.processes, p.process ∈ m.running ∨ p.process ∈ m.gone

structure Later (m n : Machine) : Prop where
  seen : ∀ process, process ∈ m.running ∨ process ∈ m.gone →
    process ∈ n.running ∨ process ∈ n.gone
  listed : m.listed ⊆ n.listed

theorem later_refl (m : Machine) : Later m m := ⟨fun _ => id, List.Subset.refl _⟩

theorem getProcessById_some (h : m.getProcessById pid = some process) :
    process ∈ m.running ∧ process.pid = pid := by
  have hpid := List.find?_some h
  exact ⟨List.mem_of_find?_eq_some h, eq_of_beq hpid⟩

theorem mem_childrenOf {child : Process} (h : child ∈ m.childrenOf process) :
    ChildOf process child := by
  obtain ⟨-, htest⟩ := List.mem_filter.mp h
  simpa [ChildOf] using htest

theorem later_trans {k : Machine} (h : Later m n) (h' : Later n k) : Later m k :=
  ⟨fun process hprocess => h'.seen process (h.seen process hprocess),
    fun _ hp => h'.listed (h.listed hp)⟩

theorem later_exit (m : Machine) (process : Process) : Later m (m.exit process) := by
  refine ⟨fun q hq => ?_, List.Subset.refl _⟩
  by_cases heq : q = process
  · exact .inr (heq ▸ List.mem_cons_self)
  · exact hq.imp (List.mem_erase_of_ne heq).mpr (List.mem_cons_of_mem _)

theorem wf_exit (h : Wf m) (process : Process) : Wf (m.exit process) :=
  ⟨h.pids.sublist (List.erase_sublist.map _),
    fun p hp => (later_exit m process).seen _ (h.seen p hp)⟩

theorem wf_recordExit (h : Wf m) (test : TrackedProcess → Bool) : Wf (m.recordExit test) := by
  refine ⟨h.pids, fun p hp => ?_⟩
  obtain hold | ⟨q, hq, -, rfl⟩ := mem_updateFirst hp
  · exact h.seen p hold
  · exact h.seen q hq

theorem later_recordExit (m : Machine) (test : TrackedProcess → Bool) :
    Later m (m.recordExit test) :=
  ⟨fun _ hprocess => hprocess, List.Subset.refl _⟩

theorem wf_kill (h : Wf m) (entry : Kill) : Wf (m.kill entry) := by
  unfold Machine.kill
  split
  · exact ⟨(wf_exit h _).pids, (wf_exit h _).seen⟩
  · exact h

theorem later_kill (m : Machine) (entry : Kill) : Later m (m.kill entry) := by
  unfold Machine.kill
  split
  · exact ⟨(later_exit m _).seen, List.Subset.refl _⟩
  · exact later_refl m

theorem kill_log (m : Machine) (entry : Kill) : (m.kill entry).listed = m.listed ∧
    ∀ k ∈ (m.kill entry).kills, k ∈ m.kills ∨ k = entry := by
  unfold Machine.kill
  split
  · exact ⟨rfl, fun k hk => (List.mem_cons.mp hk).symm⟩
  · exact ⟨rfl, fun k hk => .inl hk⟩

theorem ofTarget_later {p : TrackedProcess} {root : Process} {reused : Bool}
    (h : OfTarget m p root reused) (hlater : Later m n) : OfTarget n p root reused :=
  { h with listed := hlater.listed h.listed }

/-- Two running processes do not share a PID, so the one that is opened is the tracked one unless
    that one is gone. -/
theorem ofTarget_opened (hwf : Wf m) {p : TrackedProcess} {root : Process} (hlisted : p ∈ m.listed)
    (hseen : p.process ∈ m.running ∨ p.process ∈ m.gone)
    (hroot : m.getProcessById p.processId = some root) :
    OfTarget m p root (m.gone.contains p.process) := by
  obtain ⟨hrunning, hpid⟩ := getProcessById_some hroot
  refine ⟨hlisted, hpid, fun hreused => ?_⟩
  have hthere : p.process ∈ m.running := by
    refine hseen.resolve_right fun hgone => ?_
    rw [List.contains_iff_mem.mpr hgone] at hreused
    cases hreused
  exact List.inj_on_of_nodup_map hwf.pids hrunning hthere hpid

end Machine

section Runs
variable {w v : World} {m n : Machine} {e : Event}

def ActionOk (m : Machine) : Action → Prop
  | .stop | .list => True
  | .next toKill => toKill ⊆ m.listed
  | .find p toKill | .kill p toKill => p ∈ m.listed ∧ toKill ⊆ m.listed
  | .terminate p root reused _ found toKill =>
    OfTarget m p root reused ∧ (∀ q ∈ found, ReflTransGen ChildOf root q) ∧ toKill ⊆ m.listed
  | .children p root reused _ process found toKill =>
    OfTarget m p root reused ∧ ReflTransGen ChildOf root process ∧
      (∀ q ∈ found, ReflTransGen ChildOf root q) ∧ toKill ⊆ m.listed

structure Inv (m : Machine) : Prop where
  wf : Wf m
  seen : ∀ p ∈ m.listed, p.process ∈ m.running ∨ p.process ∈ m.gone
  trees : ∀ k ∈ m.kills, OfTarget m k.target k.root k.reused ∧ ReflTransGen ChildOf k.root k.killed

theorem actionOk_later {action : Action} (h : ActionOk m action) (hlater : Later m n) :
    ActionOk n action := by
  have hlisted : ∀ {toKill}, toKill ⊆ m.listed → toKill ⊆ n.listed :=
    fun hsub _ hp => hlater.listed (hsub hp)
  cases action with
  | stop | list => trivial
  | next toKill => exact hlisted h
  | find p toKill | kill p toKill => exact ⟨hlater.listed h.1, hlisted h.2⟩
  | terminate p root reused refused found toKill =>
    exact ⟨ofTarget_later h.1 hlater, h.2.1, hlisted h.2.2⟩
  | children p root reused refused process found toKill =>
    exact ⟨ofTarget_later h.1 hlater, h.2.1, h.2.2.1, hlisted h.2.2.2⟩

theorem inv_of_later (h : Inv m) (hwf : Wf n) (hlater : Later m n) (hlisted : n.listed = m.listed)
    (hkills : n.kills = m.kills) : Inv n := by
  refine ⟨hwf, fun p hp => hlater.seen _ (h.seen p (hlisted ▸ hp)), fun k hk => ?_⟩
  obtain ⟨htarget, hdescends⟩ := h.trees k (hkills ▸ hk)
  exact ⟨ofTarget_later htarget hlater, hdescends⟩

theorem inv_recordExit (h : Inv m) (test : TrackedProcess → Bool) : Inv (m.recordExit test) :=
  inv_of_later h (wf_recordExit h.wf test) (later_recordExit m test) rfl rfl

theorem inv_kill (h : Inv m) {entry : Kill} (htarget : OfTarget m entry.target entry.root entry.reused)
    (hdescends : ReflTransGen ChildOf entry.root entry.killed) : Inv (m.kill entry) := by
  obtain ⟨hlisted, hkills⟩ := kill_log m entry
  have hlater := later_kill m entry
  refine ⟨wf_kill h.wf entry, fun p hp => hlater.seen _ (h.seen p (hlisted ▸ hp)), fun k hk => ?_⟩
  obtain hold | rfl := hkills k hk
  · exact ⟨ofTarget_later (h.trees k hold).1 hlater, (h.trees k hold).2⟩
  · exact ⟨ofTarget_later htarget hlater, hdescends⟩

structure Kept (m : Machine) (next : Machine × List Action) : Prop where
  inv : Inv next.1
  later : Later m next.1
  left : ∀ action ∈ next.2, ActionOk next.1 action

theorem kept_act (h : Inv m) {action : Action} (hok : ActionOk m action) (choice : Choice) :
    Kept m (act m choice action) := by
  have hsame : ∀ left : List Action, (∀ action ∈ left, ActionOk m action) → Kept m (m, left) :=
    fun left hleft => ⟨h, later_refl m, hleft⟩
  have hmarked : ∀ (p : TrackedProcess) (toKill : List TrackedProcess), toKill ⊆ m.listed →
      Kept m (m.markExited p.process, [.next toKill]) := fun p toKill hlisted =>
    ⟨inv_recordExit h _, later_recordExit m _, List.forall_mem_singleton.mpr hlisted⟩
  cases action with
  | stop =>
    simp only [act]
    split
    · exact hsame [] (List.forall_mem_nil _)
    · exact ⟨inv_of_later h ⟨h.wf.pids, h.wf.seen⟩ ⟨fun _ => id, List.Subset.refl _⟩ rfl rfl,
        ⟨fun _ => id, List.Subset.refl _⟩, List.forall_mem_singleton.mpr trivial⟩
  | list =>
    have hlater : Later m (act m choice .list).1 := ⟨fun _ => id, List.subset_append_left _ _⟩
    refine ⟨⟨⟨h.wf.pids, h.wf.seen⟩, fun p hp => ?_, fun k hk => ?_⟩, hlater,
      List.forall_mem_singleton.mpr (List.subset_append_right _ _)⟩
    · obtain hold | hnew := List.mem_append.mp hp
      · exact h.seen p hold
      · exact h.wf.seen p (List.mem_filter.mp hnew).1
    · exact ⟨ofTarget_later (h.trees k hk).1 hlater, (h.trees k hk).2⟩
  | next toKill =>
    cases toKill with
    | nil => exact hsame [] (List.forall_mem_nil _)
    | cons p rest =>
      obtain ⟨hp, hrest⟩ := List.cons_subset.mp hok
      simp only [act]
      split
      · exact hsame _ (List.forall_mem_singleton.mpr ⟨hp, hrest⟩)
      · exact hmarked p rest hrest
  | find p toKill =>
    refine hsame _ (List.forall_mem_singleton.mpr ?_)
    split
    · exact hok
    · exact hok.2
  | kill p toKill =>
    obtain ⟨hp, hlisted⟩ := hok
    simp only [act]
    cases hroot : m.getProcessById p.processId with
    | none => exact hmarked p toKill hlisted
    | some root =>
      have htarget := ofTarget_opened h.wf hp (h.seen p hp) hroot
      simp only
      split
      · have hkept : Kept m (if choice.refused then m else
            m.kill ⟨p, root, m.gone.contains p.process, root⟩, []) := by
          split
          · exact hsame [] (List.forall_mem_nil _)
          · exact ⟨inv_kill h htarget .refl, later_kill m _, List.forall_mem_nil _⟩
        have hlater := later_trans hkept.later (later_recordExit _ (·.process == p.process))
        exact ⟨inv_recordExit hkept.inv _, hlater,
          List.forall_mem_singleton.mpr fun _ hq => hlater.listed (hlisted hq)⟩
      · refine hsame _ (List.forall_mem_singleton.mpr ⟨htarget, ?_, hlisted⟩)
        exact List.forall_mem_singleton.mpr .refl
  | terminate p root reused refused found toKill =>
    obtain ⟨htarget, hfound, hlisted⟩ := hok
    cases found with
    | nil =>
      simp only [act]
      split
      · exact hsame _ (List.forall_mem_singleton.mpr hlisted)
      · exact hmarked p toKill hlisted
    | cons process rest =>
      obtain ⟨hdescends, hrest⟩ := List.forall_mem_cons.mp hfound
      simp only [act]
      split
      · exact hsame _ (List.forall_mem_singleton.mpr ⟨htarget, hdescends, hrest, hlisted⟩)
      · have hlater := later_kill m ⟨p, root, reused, process⟩
        exact ⟨inv_kill h htarget hdescends, hlater, List.forall_mem_singleton.mpr
          ⟨ofTarget_later htarget hlater, hdescends, hrest, fun _ hq => hlater.listed (hlisted hq)⟩⟩
  | children p root reused refused process found toKill =>
    obtain ⟨htarget, hdescends, hfound, hlisted⟩ := hok
    refine hsame _ (List.forall_mem_singleton.mpr ⟨htarget, fun q hq => ?_, hlisted⟩)
    obtain hchild | hold := List.mem_append.mp hq
    · exact hdescends.tail (mem_childrenOf hchild)
    · exact hfound q hold

theorem kept_outside {o : Outside} (h : Inv m) (hn : outside m o = some n) :
    Inv n ∧ Later m n := by
  cases o with
  | start process =>
    obtain ⟨hfree, hn⟩ := Option.ite_none_left_eq_some.mp hn
    cases hn
    have hlater : Later m { m with running := process :: m.running } :=
      ⟨fun _ hq => hq.imp (List.mem_cons_of_mem _) id, List.Subset.refl _⟩
    refine ⟨inv_of_later h ⟨?_, fun p hp => hlater.seen _ (h.wf.seen p hp)⟩ hlater rfl rfl, hlater⟩
    refine List.nodup_cons.mpr ⟨fun htaken => hfree ?_, h.wf.pids⟩
    obtain ⟨q, hq, hpid⟩ := List.mem_map.mp htaken
    exact List.find?_isSome.mpr ⟨q, hq, beq_iff_eq.mpr hpid⟩
  | exit process =>
    obtain ⟨-, hn⟩ := Option.ite_none_right_eq_some.mp hn
    cases hn
    have hlater := later_exit m process
    exact ⟨inv_of_later h (wf_exit h.wf process) hlater rfl rfl, hlater⟩
  | track process =>
    obtain ⟨hknown, hn⟩ := Option.ite_none_right_eq_some.mp hn
    cases hn
    split
    · exact ⟨h, later_refl m⟩
    · have hlater : Later m { m with processes := m.processes ++ [⟨process, false⟩] } :=
        ⟨fun _ => id, List.Subset.refl _⟩
      refine ⟨inv_of_later h ⟨h.wf.pids, fun p hp => ?_⟩ hlater rfl rfl, hlater⟩
      obtain hold | hnew := List.mem_append.mp hp
      · exact h.wf.seen p hold
      · obtain rfl := List.mem_singleton.mp hnew
        exact hknown
  | recordExit pid =>
    cases hn
    exact ⟨inv_recordExit h _, later_recordExit m _⟩
  | assign status =>
    cases hn
    have hlater : Later m { m with status := status } := ⟨fun _ => id, List.Subset.refl _⟩
    exact ⟨inv_of_later h ⟨h.wf.pids, h.wf.seen⟩ hlater rfl rfl, hlater⟩

structure WorldInv (w : World) : Prop where
  machine : Inv w.shared
  tasks : ∀ action ∈ w.tasks, ActionOk w.shared action

theorem worldInv_step (hw : WorldInv w) (h : step w e = some v) : WorldInv v := by
  cases e with
  | start entry =>
    cases h
    exact ⟨hw.machine, List.forall_mem_cons.mpr ⟨trivial, hw.tasks⟩⟩
  | run index choice =>
    obtain ⟨action, next, haction, hturn, rfl⟩ := step_run h
    cases hturn
    have hkept := kept_act hw.machine (hw.tasks action (List.mem_of_getElem? haction)) choice
    refine ⟨hkept.inv, fun left hleft => ?_⟩
    obtain hnew | hother := List.mem_append.mp hleft
    · exact hkept.left left hnew
    · have hbefore := hw.tasks left ((mem_tasks_iff haction left).mpr (.inr hother))
      exact actionOk_later hbefore hkept.later
  | change o =>
    obtain ⟨m, hm, rfl⟩ := Option.map_eq_some_iff.mp h
    obtain ⟨hinv, hlater⟩ := kept_outside hw.machine hm
    exact ⟨hinv, fun action haction => actionOk_later (hw.tasks action haction) hlater⟩

end Runs

/-- In every run, a stop kills only trees of processes under PIDs that it found tracked as live,
    each with the tracked process at its root unless that one was gone. -/
theorem always_treesOnly (events : List Event) : Always step TreesOnly start events := by
  have hwf : Wf start.shared := ⟨List.nodup_nil, List.forall_mem_nil _⟩
  have hstart : WorldInv start :=
    ⟨⟨hwf, List.forall_mem_nil _, List.forall_mem_nil _⟩, List.forall_mem_nil _⟩
  exact always_mono (fun _ hw => hw.machine.trees)
    (always_of_invariant (fun _ _ _ hw h => worldInv_step hw h) events hstart)

def helperStarted : List Event :=
  [.change (.start ⟨7, 1, none⟩), .change (.track ⟨7, 1, none⟩), .change (.start ⟨8, 2, some 7⟩),
    .start (), .run 0 {}, .run 0 {}, .run 0 {}, .run 0 {}, .run 0 {}, .run 0 {}, .run 0 {},
    .run 0 {}]

theorem untracked_child_killed : ¬∀ events : List Event, Always step OnlyTracked start events := by
  intro h
  have hrun : (exec step start helperStarted).map (fun w => (w.shared.kills, w.shared.listed)) =
      some ([⟨⟨⟨7, 1, none⟩, false⟩, ⟨7, 1, none⟩, false, ⟨8, 2, some 7⟩⟩,
        ⟨⟨⟨7, 1, none⟩, false⟩, ⟨7, 1, none⟩, false, ⟨7, 1, none⟩⟩],
        [⟨⟨7, 1, none⟩, false⟩]) := by decide
  obtain ⟨w, hexec, hlog⟩ := Option.map_eq_some_iff.mp hrun
  obtain ⟨hkills, hlisted⟩ := Prod.mk.inj hlog
  have honly := (always_iff_reached start helperStarted).mp (h helperStarted) helperStarted [] w
    (List.append_nil _).symm hexec
  obtain ⟨p, hp, hpid, -⟩ := honly _ (hkills ▸ List.mem_cons_self)
  rw [hlisted, List.mem_singleton] at hp
  rw [hp] at hpid
  cases hpid

end ProxySwitch.SessionStops
