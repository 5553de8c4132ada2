import Mathlib.Algebra.Ring.Int.Defs
import Mathlib.Data.List.Infix
import ProxySwitch.CorrelatedHandoff
import ProxySwitch.SessionMatching
import ProxySwitch.WindowsPaths

set_option autoImplicit false

/-!
# The scores of a correlated handoff

`HandoffScorer.Score` and what `TryCorrelatedHandoffAsync` does with its result. `List.Sort` is not
stable, so nothing is known of it but that it sorts: the order of equal scores is open. The times
are ticks of 100 nanoseconds.
-/
namespace ProxySwitch.HandoffScorer
open AppRoutes RuntimeStrings WindowsPaths
open CorrelatedHandoff (Confidence Verdict verdict)
open SessionMatching (startsWithIgnoreCase)

structure ProcessSnapshot where
  processId : ℕ
  name : Text := []
  executablePath : Option Text := none
  commandLine : Option Text := none
  createdAt : Option ℤ := none
  deriving DecidableEq

inductive Signal
  | systemBroker
  | sameDirectory
  | sameVendorRoot
  | commandLine
  | createdAfterLaunch (dt : ℤ)
  | createdTooLate (dt : ℤ)
  | launcherExited
  | sameCompany (company : Text)
  | similarName
  | visibleWindow
  deriving DecidableEq

def Signal.points : Signal → ℤ
  | .systemBroker => -40
  | .sameDirectory => 40
  | .sameVendorRoot => 30
  | .commandLine => 30
  | .createdAfterLaunch _ => 25
  | .createdTooLate _ => -20
  | .launcherExited => 20
  | .sameCompany _ => 15
  | .similarName => 10
  | .visibleWindow => 15

structure HandoffCandidate where
  process : ProcessSnapshot
  score : ℤ
  confidence : Confidence
  reasons : List Text
  deriving DecidableEq

/-- What the scorer asks the system. `companyName` may throw (`none`), and `formatSeconds` is the
    format `F1` of the current culture. -/
structure Probe where
  rt : Runtime
  lower : Char → Char
  companyName : Text → Option (Option Text)
  hasVisibleWindowWithTitle : ℕ → Bool
  isAlive : ℕ → Bool
  formatSeconds : ℤ → Text

def Signal.reason (probe : Probe) : Signal → Text
  | .systemBroker => "system broker (-40)".toList
  | .sameDirectory => "same directory (+40)".toList
  | .sameVendorRoot => "same vendor root (+30)".toList
  | .commandLine => "cmdline references launcher (+30)".toList
  | .createdAfterLaunch dt =>
    "created ".toList ++ probe.formatSeconds dt ++ "s after launch (+25)".toList
  | .createdTooLate dt =>
    "created ".toList ++ probe.formatSeconds dt ++ "s after launch, too late (-20)".toList
  | .launcherExited => "launcher exited within 3s after candidate (+20)".toList
  | .sameCompany company => "same company '".toList ++ company ++ "' (+15)".toList
  | .similarName => "similar process name (+10)".toList
  | .visibleWindow => "visible main window (+15)".toList

def ticksPerSecond : ℤ := 10000000

def systemBrokers : List Text :=
  ["explorer.exe".toList, "svchost.exe".toList, "RuntimeBroker.exe".toList,
    "ApplicationFrameHost.exe".toList, "ShellExperienceHost.exe".toList,
    "SearchHost.exe".toList, "StartMenuExperienceHost.exe".toList,
    "SearchApp.exe".toList, "TextInputHost.exe".toList,
    "conhost.exe".toList, "cmd.exe".toList, "powershell.exe".toList, "pwsh.exe".toList,
    "msiexec.exe".toList, "WerFault.exe".toList, "consent.exe".toList,
    "dllhost.exe".toList, "rundll32.exe".toList, "fontdrvhost.exe".toList,
    "sihost.exe".toList, "ctfmon.exe".toList, "taskhostw.exe".toList]

section VendorRoot

/-- `Path.IsPathRooted`. -/
def isPathRooted : Text → Bool
  | [] => false
  | [a] => isDirectorySeparator a
  | a :: b :: _ => isDirectorySeparator a || (isValidDriveChar a && b == ':')

/-- `Split` with `RemoveEmptyEntries`. -/
def splitDirectories (dir : Text) : List Text := (dir.splitOnP (· == '\\')).filter (· ≠ [])

def isProgramFiles (upper : Char → Char) (part : Text) : Bool :=
  startsWithIgnoreCase upper part "Program Files".toList

def guessVendorRoot (upper : Char → Char) (exePath : Text) : Text :=
  match getDirectoryName exePath with
  | none => []
  | some dir =>
    let parts := splitDirectories dir
    match parts.dropLast.findIdx? (isProgramFiles upper) with
    | some i =>
      let vendor := List.intercalate ['\\'] (parts.take (i + 2))
      if isPathRooted vendor then vendor else parts.headD [] ++ '\\' :: vendor
    | none => (getDirectoryName dir).getD dir

end VendorRoot

section Signals
variable (probe : Probe)

def looksSimilar (a b : Text) : Bool :=
  if a = [] ∨ b = [] then false
  else
    let aBase := (probe.rt.getFileNameWithoutExtension a).map probe.lower
    let bBase := (probe.rt.getFileNameWithoutExtension b).map probe.lower
    if aBase.length < 3 ∨ bBase.length < 3 then false
    else decide (bBase <:+: aBase ∨ aBase <:+: bBase)

def directoryOf (path : Text) : Text := (getDirectoryName path).getD []

def directorySignal (launcherExePath procPath : Text) : List Signal :=
  let launcherDir := directoryOf launcherExePath
  let launcherVendorRoot := guessVendorRoot probe.rt.upper launcherExePath
  let procDir := if procPath = [] then [] else directoryOf procPath
  if launcherDir ≠ [] ∧ procDir ≠ [] ∧ equalsIgnoreCase probe.rt.upper procDir launcherDir then
    [.sameDirectory]
  else if launcherVendorRoot ≠ [] ∧ procDir ≠ [] ∧
      startsWithIgnoreCase probe.rt.upper procDir launcherVendorRoot then
    [.sameVendorRoot]
  else []

def commandLineSignal (launcherExePath commandLine : Text) : List Signal :=
  let upper := List.map probe.rt.upper
  if commandLine ≠ [] ∧ (upper launcherExePath <:+: upper commandLine ∨
      upper (probe.rt.getFileName launcherExePath) <:+: upper commandLine) then
    [.commandLine]
  else []

def creationSignal (launcherStartedAt : ℤ) : Option ℤ → List Signal
  | none => []
  | some createdAt =>
    let dt := createdAt - launcherStartedAt
    if -ticksPerSecond ≤ dt ∧ dt ≤ 5 * ticksPerSecond then [.createdAfterLaunch dt]
    else if 15 * ticksPerSecond < dt then [.createdTooLate dt]
    else []

def exitSignal : Option ℤ → Option ℤ → List Signal
  | some rootExitedAt, some createdAt =>
    let dt := rootExitedAt - createdAt
    if 0 ≤ dt ∧ dt ≤ 3 * ticksPerSecond then [.launcherExited] else []
  | _, _ => []

/-- The companies of the two files; what comes after an exception is not read. -/
def companies (procPath launcherExePath : Text) : Option Text × Option Text :=
  let read path := if probe.rt.fileExists path then probe.companyName path else some none
  match read procPath with
  | none => (none, none)
  | some procCompany => (procCompany, (read launcherExePath).getD none)

def companySignal (procPath launcherExePath : Text) : List Signal :=
  match companies probe procPath launcherExePath with
  | (some procCompany, some launcherCompany) =>
    if procCompany ≠ [] ∧ launcherCompany ≠ [] ∧
        equalsIgnoreCase probe.rt.upper procCompany launcherCompany then
      [.sameCompany procCompany]
    else []
  | _ => []

/-- The signals of a process in the order of their tests. -/
def signals (launcherExePath : Text) (launcherStartedAt : ℤ) (rootExitedAt : Option ℤ)
    (proc : ProcessSnapshot) : List Signal :=
  let procPath := proc.executablePath.getD []
  (if systemBrokers.any (equalsIgnoreCase probe.rt.upper proc.name) then [.systemBroker] else []) ++
    directorySignal probe launcherExePath procPath ++
    commandLineSignal probe launcherExePath (proc.commandLine.getD []) ++
    creationSignal launcherStartedAt proc.createdAt ++
    exitSignal rootExitedAt proc.createdAt ++
    companySignal probe procPath launcherExePath ++
    (if looksSimilar probe (probe.rt.getFileName launcherExePath) proc.name then [.similarName]
      else []) ++
    (if probe.hasVisibleWindowWithTitle proc.processId then [.visibleWindow] else [])

def confidenceOf (score : ℤ) : Confidence :=
  if 70 ≤ score then .high else if 40 ≤ score then .medium else .low

def scoreProcess (launcherExePath : Text) (launcherStartedAt : ℤ) (rootExitedAt : Option ℤ)
    (proc : ProcessSnapshot) : HandoffCandidate :=
  let found := signals probe launcherExePath launcherStartedAt rootExitedAt proc
  let score := (found.map Signal.points).sum
  { process := proc
    score := score
    confidence := confidenceOf score
    reasons := found.map (Signal.reason probe) }

end Signals

structure DescendingSort where
  sort : List HandoffCandidate → List HandoffCandidate
  perm : ∀ candidates, (sort candidates).Perm candidates
  descending : ∀ candidates, (sort candidates).Pairwise fun a b => b.score ≤ a.score

def score (probe : Probe) (sorting : DescendingSort) (launcherExePath : Text)
    (launcherStartedAt : ℤ) (rootExitedAt : Option ℤ) (newProcesses : List ProcessSnapshot) :
    List HandoffCandidate :=
  sorting.sort
    (newProcesses.map (scoreProcess probe launcherExePath launcherStartedAt rootExitedAt))

section Handoff

/-- What the step reads of the session; `rootExitedAt` is the present if the root has no exit time. -/
structure LaunchedSession where
  exePath : Text
  startedAt : ℤ
  rootProcessId : Option ℕ
  rootExitedAt : ℤ

inductive Handoff
  | attachCorrelated (candidate : HandoffCandidate)
  | candidatesFound (candidates : List HandoffCandidate)
  | beginGraceWindowOrFinalize (reason : Text)
  deriving DecidableEq

def decideHandoff (candidates : List HandoffCandidate) : Handoff :=
  let high := candidates.filter fun c => c.confidence = .high
  let medium := candidates.filter fun c => c.confidence = .medium
  match high with
  | [candidate] => .attachCorrelated candidate
  | _ :: _ :: _ => .candidatesFound high
  | [] =>
    if 0 < medium.length then .candidatesFound medium
    else .beginGraceWindowOrFinalize
      ("only low-confidence candidates (".toList ++ (toString candidates.length).toList ++
        "), ignored".toList)

variable (probe : Probe) (sorting : DescendingSort) (session : LaunchedSession)

def handoffAmong (newProcesses : List ProcessSnapshot) : Handoff :=
  if newProcesses = [] then .beginGraceWindowOrFinalize "no correlated handoff found".toList
  else decideHandoff ((score probe sorting session.exePath session.startedAt
    (some session.rootExitedAt) newProcesses).filter fun c => probe.isAlive c.process.processId)

def newProcesses (baselinePids : List ℕ) (current : List ProcessSnapshot) :
    List ProcessSnapshot :=
  current.filter fun p => !baselinePids.contains p.processId &&
    some p.processId ≠ session.rootProcessId &&
      p.createdAt.all fun createdAt => session.startedAt - ticksPerSecond ≤ createdAt

def tryCorrelatedHandoff (baseline current : List ProcessSnapshot) : Handoff :=
  handoffAmong probe sorting session
    (newProcesses session (baseline.map ProcessSnapshot.processId) current)

end Handoff

section Order
variable {probe : Probe} {session : LaunchedSession} {candidates candidates' : List HandoffCandidate}
  {new new' : List ProcessSnapshot}

/-- The same process is attached, the same candidates are offered, or nothing comes of it for the
    same reason. -/
def Handoff.Same : Handoff → Handoff → Prop
  | .attachCorrelated candidate, .attachCorrelated candidate' => candidate = candidate'
  | .candidatesFound candidates, .candidatesFound candidates' => candidates.Perm candidates'
  | .beginGraceWindowOrFinalize reason, .beginGraceWindowOrFinalize reason' => reason = reason'
  | _, _ => False

theorem decideHandoff_perm (h : candidates.Perm candidates') :
    (decideHandoff candidates).Same (decideHandoff candidates') := by
  have hhigh := h.filter fun c => c.confidence = .high
  have hmedium := h.filter fun c => c.confidence = .medium
  simp only [decideHandoff]
  rw [← hmedium.length_eq, ← h.length_eq]
  generalize candidates.filter (fun c => c.confidence = .high) = high at hhigh
  generalize candidates'.filter (fun c => c.confidence = .high) = high' at hhigh
  cases high with
  | nil =>
    have hnil : high' = [] := hhigh.nil_eq.symm
    subst hnil
    by_cases hfound : 0 < (candidates.filter fun c => c.confidence = .medium).length
    · simp only [hfound, if_true]
      exact hmedium
    · simp only [hfound, if_false]
      rfl
  | cons first rest =>
    cases rest with
    | nil =>
      have hsame : high' = [first] := (List.singleton_perm.mp hhigh).symm
      subst hsame
      rfl
    | cons second rest =>
      -- two high candidates stay two in any order
      have hlength := hhigh.length_eq
      cases high' with
      | nil => cases hlength
      | cons first' rest' =>
        cases rest' with
        | nil => cases hlength
        | cons second' rest' => exact hhigh

theorem score_perm (sorting sorting' : DescendingSort) (launcherExePath : Text)
    (launcherStartedAt : ℤ) (rootExitedAt : Option ℤ) (h : new.Perm new') :
    (score probe sorting launcherExePath launcherStartedAt rootExitedAt new).Perm
      (score probe sorting' launcherExePath launcherStartedAt rootExitedAt new') :=
  ((sorting.perm _).trans (h.map _)).trans (sorting'.perm _).symm

theorem newProcesses_perm (baselinePids : List ℕ) (h : new.Perm new') :
    (newProcesses session baselinePids new).Perm (newProcesses session baselinePids new') :=
  h.filter _

/-- Neither the order of the new processes nor what the sort does with equal scores matters. -/
theorem handoffAmong_perm (probe : Probe) (sorting sorting' : DescendingSort)
    (session : LaunchedSession) (h : new.Perm new') :
    (handoffAmong probe sorting session new).Same (handoffAmong probe sorting' session new') := by
  unfold handoffAmong
  by_cases hnew : new = []
  · subst hnew
    have hnil : new' = [] := h.nil_eq.symm
    rw [hnil, if_pos rfl, if_pos rfl]
    rfl
  · have hnew' : new' ≠ [] := by
      intro hnil
      rw [hnil] at h
      exact hnew h.eq_nil
    rw [if_neg hnew, if_neg hnew']
    apply decideHandoff_perm
    exact (score_perm sorting sorting' _ _ _ h).filter _

def plainProbe : Probe where
  rt := plainRuntime
  lower := Char.toLower
  companyName _ := some none
  hasVisibleWindowWithTitle _ := true
  isAlive _ := true
  formatSeconds ticks := (toString (ticks / ticksPerSecond)).toList

def stableSort : DescendingSort where
  sort candidates := candidates.mergeSort fun a b => b.score ≤ a.score
  perm candidates := List.mergeSort_perm candidates _
  descending candidates := by
    have hsorted := @List.pairwise_mergeSort HandoffCandidate (fun a b => b.score ≤ a.score)
      (by
        intro a b c hab hbc
        rw [decide_eq_true_eq] at hab hbc ⊢
        omega)
      (by
        intro a b
        rw [Bool.or_eq_true, decide_eq_true_eq, decide_eq_true_eq]
        omega) candidates
    exact hsorted.imp fun h => of_decide_eq_true h

/-- For the newly started processes in any order the step decides the same. -/
theorem tryCorrelatedHandoff_order (probe : Probe) (sorting sorting' : DescendingSort)
    (session : LaunchedSession) (baseline baseline' current current' : List ProcessSnapshot)
    (h : (newProcesses session (baseline.map ProcessSnapshot.processId) current).Perm
      (newProcesses session (baseline'.map ProcessSnapshot.processId) current')) :
    (tryCorrelatedHandoff probe sorting session baseline current).Same
      (tryCorrelatedHandoff probe sorting' session baseline' current') :=
  handoffAmong_perm probe sorting sorting' session h

theorem tryCorrelatedHandoff_order_ties :
    (tryCorrelatedHandoff plainProbe stableSort ⟨"C:\\apps\\note.exe".toList, 0, none, 0⟩ []
      [{ processId := 4, name := "note.exe".toList, createdAt := some 0 },
        { processId := 5, name := "note.exe".toList, createdAt := some 0 }]).Same
    (tryCorrelatedHandoff plainProbe stableSort ⟨"C:\\apps\\note.exe".toList, 0, none, 0⟩ []
      [{ processId := 5, name := "note.exe".toList, createdAt := some 0 },
        { processId := 4, name := "note.exe".toList, createdAt := some 0 }]) :=
  tryCorrelatedHandoff_order plainProbe stableSort stableSort _ [] [] _ _
    (newProcesses_perm [] (List.Perm.swap _ _ []))

/-- The order in which the system lists its processes does not matter either. -/
theorem tryCorrelatedHandoff_perm (sorting sorting' : DescendingSort)
    {baseline baseline' current current' : List ProcessSnapshot}
    (hbaseline : baseline.Perm baseline') (hcurrent : current.Perm current') :
    (tryCorrelatedHandoff probe sorting session baseline current).Same
      (tryCorrelatedHandoff probe sorting' session baseline' current') := by
  have hpids : newProcesses session (baseline'.map ProcessSnapshot.processId) current' =
      newProcesses session (baseline.map ProcessSnapshot.processId) current' := by
    unfold newProcesses
    apply List.filter_congr
    intro p _
    have hmem := (hbaseline.map ProcessSnapshot.processId).mem_iff (a := p.processId)
    have hcontains : (baseline'.map ProcessSnapshot.processId).contains p.processId =
        (baseline.map ProcessSnapshot.processId).contains p.processId := by
      rw [Bool.eq_iff_iff, List.contains_iff_mem, List.contains_iff_mem]
      exact hmem.symm
    rw [hcontains]
  unfold tryCorrelatedHandoff
  rw [hpids]
  exact handoffAmong_perm probe sorting sorting' session (newProcesses_perm _ hcurrent)

def Handoff.verdict : Handoff → Verdict
  | .attachCorrelated _ => .attach
  | .candidatesFound _ => .ask
  | .beginGraceWindowOrFinalize _ => .wait

theorem verdict_decideHandoff (candidates : List HandoffCandidate) :
    (decideHandoff candidates).verdict =
      verdict (candidates.map HandoffCandidate.confidence) := by
  have hcount : ∀ level : Confidence,
      (candidates.map HandoffCandidate.confidence).count level =
        (candidates.filter fun c => c.confidence = level).length := by
    intro level
    rw [List.count_eq_countP, List.countP_map, List.countP_eq_length_filter]
    rfl
  simp only [decideHandoff, verdict, hcount]
  cases hhigh : candidates.filter fun c => c.confidence = .high with
  | nil =>
    by_cases hmedium : 0 < (candidates.filter fun c => c.confidence = .medium).length
    · simp [hmedium, Handoff.verdict]
    · simp [hmedium, Handoff.verdict]
  | cons first rest =>
    cases rest with
    | nil => rfl
    | cons second rest => simp [Handoff.verdict]

end Order

end ProxySwitch.HandoffScorer
