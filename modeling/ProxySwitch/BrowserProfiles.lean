import ProxySwitch.BrowserCommands

set_option autoImplicit false

namespace ProxySwitch.BrowserProfiles
open RuntimeStrings TextSearch BrowserCommands
open AppRoutes (equalsIgnoreCase)

structure BrowserProcess where
  processId : ℕ
  name : Text
  commandLine : Text

/-- What the code takes from its platform; `named` are the processes that a query for an executable
    name gives. -/
structure Platform where
  casing : OrdinalCasing
  getFileName : Text → Text
  named : Text → BrowserProcess → Bool

def normalizeDir (userDataDir : Text) : Text :=
  (trimWhiteSpace userDataDir).rdropWhile fun c => c = '\\' || c = '/'

section Attribution
variable (env : Platform)

/-- A process that `FindBrowserProcesses` looks at: one of the executable, not a child process. -/
def isSearched (exePath userDataDir : Text) (p : BrowserProcess) : Bool :=
  decide (exePath ≠ [] ∧ userDataDir ≠ []) && env.named (env.getFileName exePath) p &&
    decide (p.commandLine ≠ []) && !decide (Contains env.casing p.commandLine " --type=".toList)

def findBrowserProcesses (exePath userDataDir : Text) (processes : List BrowserProcess) :
    List BrowserProcess :=
  processes.filter fun p => isSearched env exePath userDataDir p &&
    decide (Contains env.casing p.commandLine (normalizeDir userDataDir))

/-- A process of `GetBrowserProcesses`; a profile without a directory is not tracked. -/
def isWatched (userDataDir : Text) (p : BrowserProcess) : Bool :=
  decide (userDataDir ≠ []) &&
    (env.named "chrome.exe".toList p || env.named "msedge.exe".toList p)

inductive BrowserLaunch
  | exeMissing
  | alreadyRunning (p : BrowserProcess)
  | profileInUse
  | started (arguments : Text)

/-- `LaunchBrowser` of `AppLauncher`, where a start succeeds. -/
def launchBrowser (exeExists : Bool) (proxies : List TypedProxy) (exePath : Text) (app : AppConfig)
    (processes : List BrowserProcess) : BrowserLaunch :=
  if exeExists then
    match findBrowserProcesses env exePath app.userDataDir processes with
    | [] => .started (buildBrowserArgs proxies app)
    | first :: rest =>
      match (first :: rest).find? fun p =>
          browserCommandMatchesMode env.casing proxies p.commandLine app with
      | some p => .alreadyRunning p
      | none => .profileInUse
  else .exeMissing

/-- The processes whose PIDs `OnTick` reports to the callback of a profile. -/
def trackedBrowsers (userDataDir : Text) (processes : List BrowserProcess) : List BrowserProcess :=
  processes.filter fun p => isWatched env userDataDir p &&
    decide (Contains env.casing p.commandLine userDataDir)

end Attribution

section Arguments

/-- Blanks outside quotation marks separate arguments. The state is whether one is open, and the
    number of backslashes just before, an odd one of which makes a mark part of the argument. -/
def scanArgument (state : Bool × ℕ) (c : Char) : Option (Bool × ℕ) :=
  if (c = ' ' ∨ c = '\t') ∧ state.1 = false then none
  else some (if c = '"' ∧ state.2 % 2 = 0 then !state.1 else state.1,
    if c = '\\' then state.2 + 1 else 0)

def rawArguments (commandLine : Text) : List Text :=
  pieces scanArgument (false, 0) (false, 0) commandLine

def unquote (backslashes : ℕ) : Text → Text
  | [] => List.replicate backslashes '\\'
  | c :: rest =>
    if c = '\\' then unquote (backslashes + 1) rest
    else if c = '"' then
      List.replicate (backslashes / 2) '\\' ++
        if backslashes % 2 = 0 then unquote 0 rest else '"' :: unquote 0 rest
    else List.replicate backslashes '\\' ++ c :: unquote 0 rest

def userDataDirIn (argument : Text) : Option Text :=
  if "--user-data-dir=".toList <+: unquote 0 argument then
    some ((unquote 0 argument).drop "--user-data-dir=".toList.length)
  else none

/-- The directory that a browser gets, the last one when there are several. -/
def userDataDirOf (commandLine : Text) : Option Text :=
  ((rawArguments commandLine).tail.filterMap userDataDirIn).getLast?

end Arguments

section Isolation
variable (casing : OrdinalCasing)

/-- The process is one of the profile, up to case and separators at the end. -/
def Denotes (commandLine userDataDir : Text) : Prop :=
  ∃ value, userDataDirOf commandLine = some value ∧
    equalsIgnoreCase casing.upper (normalizeDir value) (normalizeDir userDataDir) = true

structure Isolated (env : Platform) (processes : List BrowserProcess) (exePath userDataDir : Text) :
    Prop where
  found : ∀ p ∈ findBrowserProcesses env exePath userDataDir processes,
    Denotes env.casing p.commandLine userDataDir
  tracked : ∀ p ∈ trackedBrowsers env userDataDir processes,
    Denotes env.casing p.commandLine userDataDir

/-- The cases of `Contains`, of which there are no others (`contains_iff_stands`): within an argument that gives a
    directory, within another one, the path of the program among them, or across the blank between two. -/
inductive Stands (commandLine dir : Text) : Prop
  | inDirectory (argument : Text) (hargument : argument ∈ rawArguments commandLine)
      (hgives : userDataDirIn argument ≠ none) (hdir : Contains casing argument dir)
  | inOther (argument : Text) (hargument : argument ∈ rawArguments commandLine)
      (hgives : userDataDirIn argument = none) (hdir : Contains casing argument dir)
  | across (front back x y : Text) (blank : Char)
      (hcut : Cut scanArgument (false, 0) (false, 0) commandLine front blank back)
      (hdir : dir.map casing.upper = x ++ casing.upper blank :: y)
      (hfront : x <:+ front.map casing.upper) (hback : y <+: back.map casing.upper)

variable {casing}

theorem contains_iff_stands {commandLine dir : Text} :
    Contains casing commandLine dir ↔ Stands casing commandLine dir := by
  unfold Contains
  rw [@infix_pieces_iff (Bool × ℕ) Char Char scanArgument (false, 0) (false, 0) commandLine]
  constructor
  · rintro (⟨argument, hargument, hdir⟩ | ⟨front, blank, back, hcut, x, y, hdir, hfront, hback⟩)
    · by_cases hgives : userDataDirIn argument = none
      · exact .inOther argument hargument hgives hdir
      · exact .inDirectory argument hargument hgives hdir
    · exact .across front back x y blank hcut hdir hfront hback
  · rintro (⟨argument, hargument, -, hdir⟩ | ⟨argument, hargument, -, hdir⟩ |
      ⟨front, back, x, y, blank, hcut, hdir, hfront, hback⟩)
    · exact .inl ⟨argument, hargument, hdir⟩
    · exact .inl ⟨argument, hargument, hdir⟩
    · exact .inr ⟨front, blank, back, hcut, x, y, hdir, hfront, hback⟩

theorem normalizeDir_within (userDataDir : Text) : normalizeDir userDataDir <:+: userDataDir := by
  unfold normalizeDir trimWhiteSpace trimBy
  have hend := List.rdropWhile_prefix (fun c => c = '\\' || c = '/')
    ((userDataDir.dropWhile isWhiteSpace).rdropWhile isWhiteSpace)
  have hblanks := List.rdropWhile_prefix isWhiteSpace (userDataDir.dropWhile isWhiteSpace)
  exact (hend.trans hblanks).isInfix.trans (List.dropWhile_suffix isWhiteSpace).isInfix

/-- A browser that is started for an app is found for the app's profile, and for any other one with
    a text that is a part of the app's directory. -/
theorem started_found {env : Platform} {processes : List BrowserProcess}
    {exePath userDataDir : Text} {p : BrowserProcess} {proxies : List TypedProxy} {app : AppConfig} {program : Text}
    (hp : p ∈ processes) (hsearched : isSearched env exePath userDataDir p = true)
    (hline : p.commandLine = program ++ buildBrowserArgs proxies app)
    (hpart : userDataDir <:+: app.userDataDir) :
    p ∈ findBrowserProcesses env exePath userDataDir processes := by
  refine List.mem_filter.mpr ⟨hp, ?_⟩
  rw [hsearched, Bool.true_and, decide_eq_true_iff]
  have hargs : app.userDataDir <:+: buildBrowserArgs proxies app := by
    obtain ⟨tail, hargs, -⟩ := buildBrowserArgs_cases proxies app
    rw [hargs, List.append_assoc]
    exact List.infix_append _ _ _
  have hdir := (normalizeDir_within userDataDir).trans (hpart.trans hargs)
  rw [hline]
  exact (List.infix_append_of_infix_right hdir).map env.casing.upper

theorem launchBrowser_alreadyRunning {env : Platform} {processes : List BrowserProcess}
    {exePath : Text} {p : BrowserProcess} {proxies : List TypedProxy} {app : AppConfig}
    {exeExists : Bool} (hisolated : Isolated env processes exePath app.userDataDir)
    (h : launchBrowser env exeExists proxies exePath app processes = .alreadyRunning p) :
    Denotes env.casing p.commandLine app.userDataDir ∧
      browserCommandMatchesMode env.casing proxies p.commandLine app = true := by
  unfold launchBrowser at h
  cases exeExists with
  | false => cases h
  | true =>
    rw [if_pos rfl] at h
    cases hexisting : findBrowserProcesses env exePath app.userDataDir processes with
    | nil =>
      rw [hexisting] at h
      cases h
    | cons first rest =>
      rw [hexisting] at h
      dsimp only at h
      split at h
      · rename_i q hfind
        obtain rfl := BrowserLaunch.alreadyRunning.inj h
        have hmatches := List.find?_some hfind
        refine ⟨hisolated.found q ?_, hmatches⟩
        rw [hexisting]
        exact List.mem_of_find?_eq_some hfind
      · cases h

theorem attributed_scan_iff {looksAt : BrowserProcess → Bool} {dir userDataDir : Text}
    {processes : List BrowserProcess} :
    (∀ p ∈ processes.filter (fun p => looksAt p && decide (Contains casing p.commandLine dir)),
        Denotes casing p.commandLine userDataDir) ↔
      ∀ p ∈ processes, ¬ Denotes casing p.commandLine userDataDir → looksAt p = true →
        ¬ Stands casing p.commandLine dir := by
  simp only [List.mem_filter, Bool.and_eq_true, decide_eq_true_eq, contains_iff_stands]
  constructor
  · intro h p hp hother hlooks hstands
    exact hother (h p ⟨hp, hlooks, hstands⟩)
  · rintro h p ⟨hp, hlooks, hstands⟩
    exact Classical.byContradiction fun hother => h p hp hother hlooks hstands

/-- A profile is isolated when the processes of other profiles have its directory's text nowhere. -/
theorem profile_isolated_iff (env : Platform) (processes : List BrowserProcess)
    (exePath userDataDir : Text) : Isolated env processes exePath userDataDir ↔ ∀ p ∈ processes,
      ¬ Denotes env.casing p.commandLine userDataDir →
        (isSearched env exePath userDataDir p = true →
          ¬ Stands env.casing p.commandLine (normalizeDir userDataDir)) ∧
        (isWatched env userDataDir p = true → ¬ Stands env.casing p.commandLine userDataDir) := by
  constructor
  · rintro ⟨hfound, htracked⟩ p hp hother
    exact ⟨attributed_scan_iff.mp hfound p hp hother, attributed_scan_iff.mp htracked p hp hother⟩
  · intro h
    refine ⟨attributed_scan_iff.mpr fun p hp hother => ?_,
      attributed_scan_iff.mpr fun p hp hother => ?_⟩
    · exact (h p hp hother).1
    · exact (h p hp hother).2

def profile (name : Text) : AppConfig := { userDataDir := "C:\\profiles\\".toList ++ name }

def windows : Platform where
  casing := asciiCasing
  getFileName := AppRoutes.afterLastBackslash
  named name p := equalsIgnoreCase Char.toUpper p.name name

def longerProfile : BrowserProcess where
  processId := 40
  name := "chrome.exe".toList
  commandLine := "\"C:\\chrome.exe\" ".toList ++ buildBrowserArgs [] (profile "work2".toList)

theorem longer_profile_found : ¬ ∀ (env : Platform) (processes : List BrowserProcess)
    (exePath userDataDir : Text), Isolated env processes exePath userDataDir := by
  intro h
  have hisolated := h windows [longerProfile] "C:\\chrome.exe".toList
    (profile "work".toList).userDataDir
  have hfound : longerProfile ∈ findBrowserProcesses windows "C:\\chrome.exe".toList
      (profile "work".toList).userDataDir [longerProfile] := by
    refine @started_found windows _ _ _ _ [] (profile "work2".toList) "\"C:\\chrome.exe\" ".toList
      (List.mem_singleton_self _) (by decide +kernel) rfl (by decide)
  obtain ⟨value, hvalue, hsame⟩ := hisolated.found longerProfile hfound
  have hown : userDataDirOf longerProfile.commandLine =
      some (profile "work2".toList).userDataDir := by
    decide
  obtain rfl := Option.some.inj (hown.symm.trans hvalue)
  revert hsame
  decide

end Isolation

end ProxySwitch.BrowserProfiles
