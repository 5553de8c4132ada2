import ProxySwitch.HandoffScorer
import ProxySwitch.RuntimeRoots

set_option autoImplicit false

namespace ProxySwitch.VendorRoots
open AppRoutes HandoffScorer RuntimeRoots RuntimeStrings WindowsPaths
open SessionMatching (startsWithIgnoreCase)

section Containers
variable (upper : Char → Char) (others : List Text → Prop)

/-- A directory that holds applications of many vendors: the root of a drive or of the current
    one, the two Program Files directories of a drive, and whatever else counts as one. -/
inductive IsSharedContainer : List Text → Prop
  | currentDrive : IsSharedContainer []
  | drive (letter : Char) : isValidDriveChar letter = true → IsSharedContainer [[letter, ':']]
  | programFiles (letter : Char) (name : Text) : isValidDriveChar letter = true →
      (equalsIgnoreCase upper name "Program Files".toList = true ∨
        equalsIgnoreCase upper name "Program Files (x86)".toList = true) →
      IsSharedContainer [[letter, ':'], name]
  | other (dirs : List Text) : others dirs → IsSharedContainer dirs

def spelled (dirs : List Text) : Text :=
  let text := List.intercalate ['\\'] dirs
  if isPathRooted text then text else dirs.headD [] ++ '\\' :: text

/-- The vendor's directory, for an executable in `dir`. -/
inductive VendorDirectory (dir : Text) : Text → Prop
  | below (front : List Text) (programFiles vendor : Text) (rest : List Text) :
      components dir = front ++ programFiles :: vendor :: rest →
      (∀ part ∈ front, isProgramFiles upper part = false) →
      isProgramFiles upper programFiles = true →
      VendorDirectory dir (spelled (front ++ [programFiles, vendor]))
  | parent : (∀ part ∈ (components dir).dropLast, isProgramFiles upper part = false) →
      VendorDirectory dir ((getDirectoryName dir).getD dir)

/-- The signal is given only for a process in the vendor root, and that is no shared container. -/
structure VendorRootSound (probe : Probe) (exePath : Text) (proc : ProcessSnapshot) : Prop where
  contained : ∀ startedAt rootExitedAt,
    .sameVendorRoot ∈ signals probe exePath startedAt rootExitedAt proc →
      folders probe.rt.upper (guessVendorRoot probe.rt.upper exePath) <+:
        folders probe.rt.upper (directoryOf (proc.executablePath.getD []))
  unshared : guessVendorRoot probe.rt.upper exePath ≠ [] →
    ¬IsSharedContainer probe.rt.upper others
      (components (guessVendorRoot probe.rt.upper exePath))

/-- The vendor's directory is no shared container, and no other directory runs on after its text
    within a name. -/
def KeepsToVendor (exePath procDir : Text) : Prop :=
  ∀ dir vendor, getDirectoryName exePath = some dir → VendorDirectory upper dir vendor →
    vendor ≠ [] →
      ¬IsSharedContainer upper others (components vendor) ∧
        (equalsIgnoreCase upper procDir dir = false →
          startsWithIgnoreCase upper procDir vendor = true →
            separated vendor (procDir.drop vendor.length) = true)

end Containers

section Texts
variable {path dir : Text} {c : Char}

theorem collapseSeparators_backslash (path : Text) :
    ∀ c ∈ collapseSeparators path, isDirectorySeparator c = (c == '\\') := by
  induction path with
  | nil => exact List.forall_mem_nil _
  | cons c rest ih =>
    intro d hd
    unfold collapseSeparators at hd
    cases hc : isDirectorySeparator c with
    | false =>
      rw [hc, Bool.not_false, if_pos rfl] at hd
      obtain rfl | hd := List.mem_cons.mp hd
      · have hne : (d == '\\') = false := (Bool.or_eq_false_iff.mp hc).1
        rw [hc, hne]
      · exact ih d hd
    | true =>
      rw [hc, Bool.not_true, if_neg Bool.false_ne_true] at hd
      split at hd
      · exact ih d hd
      · obtain rfl | hd := List.mem_cons.mp hd
        · rfl
        · exact ih d hd

theorem normalize_backslash (path : Text) :
    ∀ c ∈ normalizeDirectorySeparators path, isDirectorySeparator c = (c == '\\') := by
  cases path with
  | nil => exact List.forall_mem_nil _
  | cons c rest =>
    intro d hd
    simp only [normalizeDirectorySeparators] at hd
    split at hd
    · obtain rfl | hd := List.mem_cons.mp hd
      · rfl
      · exact collapseSeparators_backslash rest d hd
    · exact collapseSeparators_backslash (c :: rest) d hd

theorem splitOnP_congr {p q : Char → Bool} (h : ∀ c ∈ path, p c = q c) :
    path.splitOnP p = path.splitOnP q := by
  induction path with
  | nil => rfl
  | cons c rest ih =>
    rw [List.splitOnP_cons_eq_if_modifyHead, List.splitOnP_cons_eq_if_modifyHead,
      h c List.mem_cons_self, ih fun d hd => h d (List.mem_cons_of_mem c hd)]

/-- The directory of a path has only backslashes, so `Split` finds its components. -/
theorem splitDirectories_eq (h : getDirectoryName path = some dir) :
    splitDirectories dir = components dir := by
  have hbackslash : ∀ c ∈ dir, (c == '\\') = isDirectorySeparator c := by
    unfold getDirectoryName at h
    split at h
    · cases h
    · rw [← Option.some.inj h]
      exact fun c hc => (normalize_backslash _ c hc).symm
  unfold splitDirectories components
  rw [splitOnP_congr hbackslash]

end Texts

section Guess
variable {upper : Char → Char} {exePath dir vendor : Text}

theorem findIdx_programFiles {front rest : List Text} {programFiles name : Text}
    (hfront : ∀ part ∈ front, isProgramFiles upper part = false)
    (hprogramFiles : isProgramFiles upper programFiles = true) :
    (front ++ programFiles :: name :: rest).dropLast.findIdx? (isProgramFiles upper) =
      some front.length := by
  have hdrop : (front ++ programFiles :: name :: rest).dropLast =
      front ++ programFiles :: (name :: rest).dropLast := by
    rw [List.dropLast_append_of_ne_nil (List.cons_ne_nil _ _), List.dropLast_cons_of_ne_nil
      (List.cons_ne_nil _ _)]
  have hnone : front.findIdx? (isProgramFiles upper) = none := List.findIdx?_eq_none_iff.mpr hfront
  rw [hdrop, List.findIdx?_append, hnone, List.findIdx?_cons, hprogramFiles]
  simp

theorem guess_eq (h : getDirectoryName exePath = some dir)
    (hvendor : VendorDirectory upper dir vendor) : guessVendorRoot upper exePath = vendor := by
  simp only [guessVendorRoot, h, splitDirectories_eq h]
  cases hvendor with
  | below front programFiles name rest hparts hfront hprogramFiles =>
    have htake : (front ++ programFiles :: name :: rest).take (front.length + 2) =
        front ++ [programFiles, name] := by
      rw [List.take_length_add_append]
      rfl
    have hhead : (front ++ programFiles :: name :: rest).headD [] =
        (front ++ [programFiles, name]).headD [] := by
      cases front <;> rfl
    rw [hparts, findIdx_programFiles hfront hprogramFiles]
    simp only [htake, hhead]
    rfl
  | parent hparts =>
    rw [List.findIdx?_eq_none_iff.mpr hparts]

theorem vendorDirectory_guess (h : getDirectoryName exePath = some dir) :
    VendorDirectory upper dir (guessVendorRoot upper exePath) := by
  by_cases hparts : ∀ part ∈ (components dir).dropLast, isProgramFiles upper part = false
  · rw [guess_eq h (.parent hparts)]
    exact .parent hparts
  · -- the first directory named like Program Files, which is not the last one
    have hsome : ((components dir).dropLast.find? (isProgramFiles upper)).isSome = true := by
      rw [List.find?_isSome]
      by_contra hnone
      exact hparts fun part hpart => eq_false_of_ne_true fun htrue => hnone ⟨part, hpart, htrue⟩
    obtain ⟨programFiles, hfind⟩ := Option.isSome_iff_exists.mp hsome
    obtain ⟨hprogramFiles, front, back, hsplit, hfront⟩ := List.find?_eq_some_iff_append.mp hfind
    have hne : components dir ≠ [] := by
      intro hnil
      rw [hnil] at hsplit
      exact absurd hsplit (by simp)
    have hall : components dir = front ++ programFiles :: (back ++ [(components dir).getLast hne]) := by
      conv_lhs => rw [← List.dropLast_append_getLast hne, hsplit]
      simp
    have hfront' : ∀ part ∈ front, isProgramFiles upper part = false := by
      intro part hpart
      simpa using hfront part hpart
    cases back with
    | nil =>
      have hbelow := VendorDirectory.below front programFiles _ [] hall hfront' hprogramFiles
      rw [guess_eq h hbelow]
      exact hbelow
    | cons name back =>
      have hbelow := VendorDirectory.below front programFiles name _ hall hfront' hprogramFiles
      rw [guess_eq h hbelow]
      exact hbelow

theorem guess_of_none (h : getDirectoryName exePath = none) : guessVendorRoot upper exePath = [] := by
  simp only [guessVendorRoot, h]

end Guess

section Signals
variable {probe : Probe} {exePath path : Text} {proc : ProcessSnapshot} {startedAt : ℤ}
  {rootExitedAt : Option ℤ}

/-- Only the comparison of the directories gives the signal. -/
theorem sameVendorRoot_mem_signals :
    .sameVendorRoot ∈ signals probe exePath startedAt rootExitedAt proc ↔
      .sameVendorRoot ∈ directorySignal probe exePath (proc.executablePath.getD []) := by
  have hcommandLine : ∀ text, Signal.sameVendorRoot ∉ commandLineSignal probe exePath text := by
    intro text
    simp only [commandLineSignal]
    split_ifs <;> simp
  have hcreation : ∀ createdAt, Signal.sameVendorRoot ∉ creationSignal startedAt createdAt := by
    intro createdAt
    cases createdAt with
    | none => simp [creationSignal]
    | some createdAt =>
      simp only [creationSignal]
      split_ifs <;> simp
  have hexit : ∀ createdAt, Signal.sameVendorRoot ∉ exitSignal rootExitedAt createdAt := by
    intro createdAt
    unfold exitSignal
    split
    · simp only
      split_ifs <;> simp
    · simp
  have hcompany : ∀ procPath, Signal.sameVendorRoot ∉ companySignal probe procPath exePath := by
    intro procPath
    unfold companySignal
    split
    · split_ifs <;> simp
    · simp
  simp only [signals, List.mem_append, hcommandLine, hcreation, hexit, hcompany, or_false]
  have hbroker : ∀ (b : Bool) (signal : Signal), signal ≠ .sameVendorRoot →
      Signal.sameVendorRoot ∉ (if b = true then [signal] else []) := by
    intro b signal hne
    split_ifs
    · simpa using hne.symm
    · simp
  constructor
  · rintro (((hmem | hmem) | hmem) | hmem)
    · exact absurd hmem (hbroker _ _ Signal.noConfusion)
    · exact hmem
    · exact absurd hmem (hbroker _ _ Signal.noConfusion)
    · exact absurd hmem (hbroker _ _ Signal.noConfusion)
  · exact fun hmem => .inl (.inl (.inr hmem))

theorem sameVendorRoot_mem_directorySignal :
    .sameVendorRoot ∈ directorySignal probe exePath path ↔
      ¬(directoryOf exePath ≠ [] ∧ directoryOf path ≠ [] ∧
          equalsIgnoreCase probe.rt.upper (directoryOf path) (directoryOf exePath) = true) ∧
        guessVendorRoot probe.rt.upper exePath ≠ [] ∧ directoryOf path ≠ [] ∧
          startsWithIgnoreCase probe.rt.upper (directoryOf path)
            (guessVendorRoot probe.rt.upper exePath) = true := by
  have hdir : (if path = [] then [] else directoryOf path) = directoryOf path := by
    split_ifs with hpath
    · rw [hpath]
      rfl
    · rfl
  simp only [directorySignal, hdir]
  split_ifs with hsame hroot
  · simp [hsame]
  · exact iff_of_true List.mem_cons_self ⟨hsame, hroot⟩
  · exact iff_of_false List.not_mem_nil fun h => hroot h.2

end Signals

section Soundness
variable {probe : Probe} {others : List Text → Prop} {exePath dir : Text} {proc : ProcessSnapshot}

theorem guess_ne_nil (h : getDirectoryName exePath = some dir)
    (hguess : guessVendorRoot probe.rt.upper exePath ≠ []) : dir ≠ [] := by
  rintro rfl
  exact hguess (guess_eq h (.parent (List.forall_mem_nil _)))

/-- The signal stands for the directory tree of a vendor precisely when the vendor's directory is
    none that is shared, and the process is in none that runs on after its text. -/
theorem vendorRootSound_iff
    (hupper : ∀ c, isDirectorySeparator (probe.rt.upper c) = isDirectorySeparator c) :
    VendorRootSound others probe exePath proc ↔
      KeepsToVendor probe.rt.upper others exePath
        (directoryOf (proc.executablePath.getD [])) := by
  generalize hprocDir : directoryOf (proc.executablePath.getD []) = procDir
  constructor
  · intro hsound dir vendor hdir hvendor hne
    obtain rfl := guess_eq hdir hvendor
    refine ⟨hsound.unshared hne, fun hother hstart => ?_⟩
    rw [← folders_prefix_iff hupper hstart, ← hprocDir]
    apply hsound.contained 0 none
    rw [sameVendorRoot_mem_signals, sameVendorRoot_mem_directorySignal, hprocDir]
    have hprocDirNe : procDir ≠ [] := by
      rintro rfl
      have hnil := List.isPrefixOf_iff_prefix.mp hstart
      exact hne (List.map_eq_nil_iff.mp (List.prefix_nil.mp hnil))
    refine ⟨?_, hne, hprocDirNe, hstart⟩
    rintro ⟨-, -, hsame⟩
    rw [directoryOf, hdir, Option.getD_some, hother] at hsame
    cases hsame
  · intro hkeeps
    have hkeeps' : ∀ dir, getDirectoryName exePath = some dir →
        guessVendorRoot probe.rt.upper exePath ≠ [] → _ := fun dir hdir =>
      hkeeps dir _ hdir (vendorDirectory_guess hdir)
    constructor
    · intro startedAt rootExitedAt hmem
      rw [sameVendorRoot_mem_signals, sameVendorRoot_mem_directorySignal, hprocDir] at hmem
      obtain ⟨hother, hne, hprocDirNe, hstart⟩ := hmem
      rw [hprocDir, folders_prefix_iff hupper hstart]
      cases hdir : getDirectoryName exePath with
      | none => exact absurd (guess_of_none hdir) hne
      | some dir =>
        apply (hkeeps' dir hdir hne).2 _ hstart
        apply eq_false_of_ne_true
        intro hsame
        rw [directoryOf, hdir, Option.getD_some] at hother
        exact hother ⟨guess_ne_nil hdir hne, hprocDirNe, hsame⟩
    · intro hne
      cases hdir : getDirectoryName exePath with
      | none => exact absurd (guess_of_none hdir) hne
      | some dir => exact (hkeeps' dir hdir hne).1

/-- Two products of one vendor. -/
theorem vendorRootSound_products :
    VendorRootSound (fun _ => False) plainProbe
        "C:\\Program Files\\Acme\\Launcher\\run.exe".toList
        { processId := 7, executablePath := some "C:\\Program Files\\Acme\\Game\\game.exe".toList } ↔
      KeepsToVendor Char.toUpper (fun _ => False)
        "C:\\Program Files\\Acme\\Launcher\\run.exe".toList
        (directoryOf "C:\\Program Files\\Acme\\Game\\game.exe".toList) :=
  @vendorRootSound_iff plainProbe _ _ _ toUpper_separator

/-- A vendor whose name another one's begins with, and a launcher in a directory of its own on the
    drive. -/
theorem vendorRootSound_fails :
    ¬VendorRootSound (fun _ => False) plainProbe
        "C:\\Program Files\\Acme\\run.exe".toList
        { processId := 7, executablePath := some "C:\\Program Files\\AcmeWorks\\tool.exe".toList } ∧
      ∀ proc, ¬VendorRootSound (fun _ => False) plainProbe "C:\\Tools\\run.exe".toList proc := by
  constructor
  · intro h
    have hcontained := h.contained 0 none (by decide)
    revert hcontained
    decide
  · intro proc h
    exact h.unshared (by decide) (.drive 'C' rfl)

end Soundness

end ProxySwitch.VendorRoots
