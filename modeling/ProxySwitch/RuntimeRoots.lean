import ProxySwitch.SessionMatching

set_option autoImplicit false

namespace ProxySwitch.RuntimeRoots
open AppRoutes RuntimeStrings SessionMatching WindowsPaths

/-- A null result is `none`. -/
def deriveStoreAppRuntimeRoot (exePath : Text) : Option Text :=
  if exePath = [] then none
  else (getDirectoryName exePath).map fun dir => (getDirectoryName dir).getD dir

/-- The session after `DiscoverStoreAppProcessesAsync` has found its best candidate. -/
def recordRuntimeRoot (s : LaunchSession) (exePath : Text) : LaunchSession :=
  match deriveStoreAppRuntimeRoot exePath with
  | some root => if root = [] then s else { s with storeAppRuntimeRoot := root }
  | none => s

section Packages
variable (upper : Char → Char)

def folders (path : Text) : List Text := (components path).map (List.map upper)

/-- The folder of a package under a `WindowsApps` directory, for a file in it. -/
def packageFolder : List Text → Option (List Text)
  | [] => none
  | dir :: rest =>
    if dir = "WindowsApps".toList.map upper then
      match rest with
      | package :: _ :: _ => some [dir, package]
      | _ => none
    else (packageFolder rest).map (dir :: ·)

/-- The executable lies in the runtime root, in the package of the discovered one if that has a
    package, and in no other package. -/
structure Confined (discovered path : Text) : Prop where
  runtimeRoot : ∀ root, deriveStoreAppRuntimeRoot discovered = some root →
    folders upper root <+: folders upper path
  ownPackage : ∀ folder, packageFolder upper (folders upper discovered) = some folder →
    folder <+: folders upper path
  noOtherPackage : ∀ folder, packageFolder upper (folders upper path) = some folder →
    packageFolder upper (folders upper discovered) = some folder

/-- A path that begins with the text of the root has a separator after it; the discovered
    executable lies below a subdirectory of its package folder, or the path is in that folder
    too; without a package folder the path has none either. -/
def KeepsToPackage (discovered path : Text) : Prop :=
  ∀ root, deriveStoreAppRuntimeRoot discovered = some root → root ≠ [] →
    startsWithIgnoreCase upper path root = true →
      separated root (path.drop root.length) = true ∧
        match packageFolder upper (folders upper discovered) with
        | some folder =>
          folder.length + 2 ≤ (folders upper discovered).length ∨ folder <+: folders upper path
        | none => packageFolder upper (folders upper path) = none

end Packages

section PackageFolders
variable {upper : Char → Char} {l l' folder folder' : List Text}

theorem packageFolder_congr (h : packageFolder upper l = some folder) (hin : folder <+: l')
    (h' : packageFolder upper l' = some folder') : folder' = folder := by
  induction l generalizing l' folder folder' with
  | nil => cases h
  | cons dir rest ih =>
    unfold packageFolder at h
    split at h
    · rename_i hdir
      split at h
      · obtain rfl := Option.some.inj h
        obtain ⟨tail, rfl⟩ := hin
        simp only [List.cons_append, List.nil_append, packageFolder, hdir, if_true] at h'
        split at h'
        · rename_i heq
          obtain ⟨rfl, -⟩ := List.cons.inj heq
          rw [hdir]
          exact (Option.some.inj h').symm
        · cases h'
      · cases h
    · rename_i hdir
      obtain ⟨inner, hinner, rfl⟩ := Option.map_eq_some_iff.mp h
      obtain ⟨tail, rfl⟩ := hin
      simp only [List.cons_append, packageFolder, hdir, if_false] at h'
      obtain ⟨inner', hinner', rfl⟩ := Option.map_eq_some_iff.mp h'
      rw [ih hinner (List.prefix_append _ _) hinner']

theorem packageFolder_prefix (h : packageFolder upper l = some folder) :
    folder <+: l ∧ 2 ≤ folder.length := by
  induction l generalizing folder with
  | nil => cases h
  | cons dir rest ih =>
    unfold packageFolder at h
    split at h
    · split at h
      · obtain rfl := Option.some.inj h
        exact ⟨⟨_, rfl⟩, le_rfl⟩
      · cases h
    · obtain ⟨inner, hinner, rfl⟩ := Option.map_eq_some_iff.mp h
      obtain ⟨hfront, hlong⟩ := ih hinner
      exact ⟨List.cons_prefix_cons.mpr ⟨rfl, hfront⟩, Nat.le_succ_of_le hlong⟩

end PackageFolders

section Roots
variable {upper : Char → Char} {discovered path root : Text}

/-- The derived root keeps all components but the last two. -/
theorem prefix_dropLast_folders (hroot : deriveStoreAppRuntimeRoot discovered = some root)
    (hlong : 3 ≤ (components discovered).length) :
    (components discovered).dropLast.dropLast <+: components root := by
  unfold deriveStoreAppRuntimeRoot at hroot
  split at hroot
  · cases hroot
  obtain ⟨dir, hdir, rfl⟩ := Option.map_eq_some_iff.mp hroot
  have hfirst := dropLast_components_prefix hdir (by omega)
  cases hparent : getDirectoryName dir with
  | none => exact (List.dropLast_prefix _).trans hfirst
  | some parent =>
    have hlongDir := hfirst.length_le
    rw [List.length_dropLast] at hlongDir
    have hsecond := dropLast_components_prefix hparent (by omega)
    refine List.IsPrefix.trans ?_ hsecond
    refine List.prefix_of_prefix_length_le ((List.dropLast_prefix _).trans hfirst)
      (List.dropLast_prefix _) ?_
    simp only [List.length_dropLast]
    omega

theorem separated_map (hupper : ∀ c, isDirectorySeparator (upper c) = isDirectorySeparator c)
    (a b : Text) : separated (a.map upper) (b.map upper) = separated a b := by
  simp only [separated, List.getLast?_map, List.head?_map, Option.all_map, hupper]

/-- Of a path that begins with the text of the root, the root is a directory where a separator
    follows. -/
theorem folders_prefix_iff
    (hupper : ∀ c, isDirectorySeparator (upper c) = isDirectorySeparator c)
    (hstart : startsWithIgnoreCase upper path root = true) :
    folders upper root <+: folders upper path ↔
      separated root (path.drop root.length) = true := by
  have hprefix : root.map upper <+: path.map upper := List.isPrefixOf_iff_prefix.mp hstart
  have hpath : path.map upper = root.map upper ++ (path.drop root.length).map upper := by
    rw [List.map_drop]
    conv_lhs => rw [← List.prefix_iff_eq_append.mp hprefix, List.length_map]
  rw [folders, folders, ← components_map hupper, ← components_map hupper, hpath,
    components_prefix_iff, separated_map hupper]

theorem confined_of_accepted
    (hupper : ∀ c, isDirectorySeparator (upper c) = isDirectorySeparator c)
    (hroot : deriveStoreAppRuntimeRoot discovered = some root) (hne : root ≠ [])
    (hstart : startsWithIgnoreCase upper path root = true) :
    Confined upper discovered path ↔ KeepsToPackage upper discovered path := by
  have htree := folders_prefix_iff hupper hstart
  constructor
  · intro h root' hroot' _ hstart'
    obtain rfl := Option.some.inj (hroot.symm.trans hroot')
    refine ⟨htree.mp (h.runtimeRoot root hroot), ?_⟩
    cases hpackage : packageFolder upper (folders upper discovered) with
    | some folder => exact .inr (h.ownPackage folder hpackage)
    | none =>
      dsimp only
      cases hother : packageFolder upper (folders upper path) with
      | none => rfl
      | some other =>
        rw [h.noOtherPackage other hother] at hpackage
        cases hpackage
  · intro h
    obtain ⟨hseparated, hpackage⟩ := h root hroot hne hstart
    have hin := htree.mpr hseparated
    have hown : ∀ folder, packageFolder upper (folders upper discovered) = some folder →
        folder <+: folders upper path := by
      intro folder hfolder
      rw [hfolder] at hpackage
      obtain hdeep | hsame := hpackage
      · -- the root lies in the package folder, and the path in the root
        obtain ⟨hfront, hlong⟩ := packageFolder_prefix hfolder
        have hlength : (folders upper discovered).length = (components discovered).length :=
          List.length_map _
        have hdropped := (prefix_dropLast_folders hroot (by omega)).map (List.map upper)
        refine List.IsPrefix.trans ?_ (hdropped.trans hin)
        refine List.prefix_of_prefix_length_le hfront
          (((List.dropLast_prefix _).trans (List.dropLast_prefix _)).map _) ?_
        simp only [List.length_map, List.length_dropLast]
        omega
      · exact hsame
    refine ⟨fun root' hroot' => ?_, hown, fun other hother => ?_⟩
    · obtain rfl := Option.some.inj (hroot.symm.trans hroot')
      exact hin
    · cases hfolder : packageFolder upper (folders upper discovered) with
      | some folder => rw [packageFolder_congr hfolder (hown folder hfolder) hother]
      | none =>
        rw [hfolder] at hpackage
        exact absurd (hother.symm.trans hpackage) nofun

end Roots

theorem runtimeRoot_accepts {env : Surroundings} {session : LaunchSession}
    {hit : ExternalProcessHit} {discovered : Text} (hfresh : session.storeAppRuntimeRoot = [])
    (h : mergeRule env (recordRuntimeRoot session discovered) hit = some .runtimeRoot) :
    ∃ root, deriveStoreAppRuntimeRoot discovered = some root ∧ root ≠ [] ∧
      startsWithIgnoreCase env.rt.upper hit.executablePath root = true := by
  have hunder : underRuntimeRoot env (recordRuntimeRoot session discovered) hit = true :=
    accepts_of_mergeRule h
  simp only [underRuntimeRoot, Bool.and_eq_true, decide_eq_true_eq] at hunder
  obtain ⟨⟨⟨-, hne⟩, -⟩, hstart⟩ := hunder
  unfold recordRuntimeRoot at hne hstart
  split at hne
  · rename_i root hroot
    split at hne
    · exact absurd hfresh hne
    · rename_i hroot'
      exact ⟨root, hroot, hroot', by simpa [hroot, hroot'] using hstart⟩
  · exact absurd hfresh hne

theorem runtimeRoot_only {rt : Runtime} {discovered path root : Text}
    (hroot : deriveStoreAppRuntimeRoot discovered = some root) (hne : root ≠ [])
    (hstart : startsWithIgnoreCase rt.upper path root = true) :
    mergeRule { rt := rt, routes := [] }
      (recordRuntimeRoot { id := 0, ipcManaged := true, routeKey := ['k'] } discovered)
      { processId := 0, executablePath := path } = some .runtimeRoot := by
  have hpath : path ≠ [] := by
    rintro rfl
    have hprefix := List.isPrefixOf_iff_prefix.mp hstart
    rw [List.map_nil, List.prefix_nil, List.map_eq_nil_iff] at hprefix
    exact hne hprefix
  have hroutes : ∀ session test, isSessionRoute { rt := rt, routes := [] } session test = false :=
    fun _ _ => rfl
  simp [mergeRule, accepts, parentChain, hroutes, sameDirectory,
    isPendingStoreAppConfirmationCandidate, underRuntimeRoot, recordRuntimeRoot, hroot, hne, hpath,
    hstart]

/-- Every process that a session merges by its runtime root is confined precisely when the two
    paths keep to the package. -/
theorem runtimeRoot_confined_iff (rt : Runtime)
    (hupper : ∀ c, isDirectorySeparator (rt.upper c) = isDirectorySeparator c)
    (discovered path : Text) :
    (∀ (env : Surroundings) (session : LaunchSession) (hit : ExternalProcessHit), env.rt = rt →
        session.storeAppRuntimeRoot = [] → hit.executablePath = path →
        mergeRule env (recordRuntimeRoot session discovered) hit = some .runtimeRoot →
        Confined rt.upper discovered path) ↔
      KeepsToPackage rt.upper discovered path := by
  constructor
  · intro h root hroot hne hstart
    have hconfined := h { rt := rt, routes := [] } { id := 0, ipcManaged := true, routeKey := ['k'] }
      { processId := 0, executablePath := path } rfl rfl rfl (runtimeRoot_only hroot hne hstart)
    exact (confined_of_accepted hupper hroot hne hstart).mp hconfined root hroot hne hstart
  · rintro h env session hit rfl hfresh rfl hmatch
    obtain ⟨root, hroot, hne, hstart⟩ := runtimeRoot_accepts hfresh hmatch
    exact (confined_of_accepted hupper hroot hne hstart).mpr h

theorem toUpper_separator (c : Char) :
    isDirectorySeparator c.toUpper = isDirectorySeparator c := by
  have hletters : ∀ n < 123, 97 ≤ n → isDirectorySeparator (Char.ofNat n).toUpper =
      isDirectorySeparator (Char.ofNat n) := by decide
  by_cases hlower : 97 ≤ c.toNat ∧ c.toNat ≤ 122
  · have h := hletters c.toNat (Nat.lt_succ_of_le hlower.2) hlower.1
    rwa [Char.ofNat_toNat] at h
  · have hsame : c.toUpper = c := dif_neg hlower
    rw [hsame]

theorem runtimeRoot_confined_package :
    (∀ (env : Surroundings) (session : LaunchSession) (hit : ExternalProcessHit),
        env.rt = plainRuntime → session.storeAppRuntimeRoot = [] →
        hit.executablePath = "C:\\WindowsApps\\App\\bin\\tool.exe".toList →
        mergeRule env
          (recordRuntimeRoot session "C:\\WindowsApps\\App\\bin\\app.exe".toList) hit =
            some .runtimeRoot →
        Confined Char.toUpper "C:\\WindowsApps\\App\\bin\\app.exe".toList
          "C:\\WindowsApps\\App\\bin\\tool.exe".toList) ↔
      KeepsToPackage Char.toUpper "C:\\WindowsApps\\App\\bin\\app.exe".toList
        "C:\\WindowsApps\\App\\bin\\tool.exe".toList :=
  runtimeRoot_confined_iff plainRuntime toUpper_separator _ _

/-- The root of an executable that lies directly in its package folder is the directory of all
    packages. -/
theorem runtimeRoot_other_package : ¬∀ (rt : Runtime) (env : Surroundings)
    (session : LaunchSession) (hit : ExternalProcessHit) (discovered : Text), env.rt = rt →
      (∀ c, isDirectorySeparator (rt.upper c) = isDirectorySeparator c) →
      session.storeAppRuntimeRoot = [] →
      mergeRule env (recordRuntimeRoot session discovered) hit = some .runtimeRoot →
      Confined rt.upper discovered hit.executablePath := by
  intro h
  have hconfined := h plainRuntime { rt := plainRuntime, routes := [] }
    { id := 0, ipcManaged := true, routeKey := ['k'] }
    { processId := 0, executablePath := "C:\\WindowsApps\\Other\\other.exe".toList }
    "C:\\WindowsApps\\App\\app.exe".toList rfl toUpper_separator rfl (by decide)
  have hfolder := hconfined.noOtherPackage (folders Char.toUpper "C:\\WindowsApps\\Other".toList)
    (by decide)
  revert hfolder
  decide

end ProxySwitch.RuntimeRoots
