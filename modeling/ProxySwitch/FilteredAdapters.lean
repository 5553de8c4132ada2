import Mathlib.Data.Finset.Basic
import Mathlib.Data.List.Infix
import ProxySwitch.TransitionRuns

set_option autoImplicit false

/-!
# Which network adapters are filtered

`update_network_configuration` of the router chooses the adapters with a connection and tells the packet
filter. It is called by `start()` and by the callbacks of the IP helper, which may overlap; the filter's
own lists change under `lock_`, and each critical section is one step.
-/
namespace ProxySwitch.FilteredAdapters
open TransitionRuns

abbrev Name := List UInt8

/-! ### The choice -/

section Selection

variable {α : Type} [DecidableEq α]

/-- An entry of `get_external_network_connections`. -/
structure ExternalConnection (α : Type) where
  ifType : ℕ
  adapterName : Name
  unicastAddressList : List α

def ifTypePpp : ℕ := 23

def ExternalConnection.hasAddress (adapter : ExternalConnection α) (address : α) : Bool :=
  adapter.unicastAddressList.contains address

/-- The first adapter of the driver that goes with the connection: by its name, or for a PPP connection
    by the addresses of its RAS links. -/
def selectAdapter (ndisAdapters : List Name) (rasLinks : Name → Option (List α))
    (adapter : ExternalConnection α) : Option Name :=
  if adapter.ifType ≠ ifTypePpp then ndisAdapters.find? fun name => decide (adapter.adapterName <:+: name)
  else ndisAdapters.find? fun name =>
    match rasLinks name with
    | some links => links.any adapter.hasAddress
    | none => false

def selectAdapters (ndisAdapters : List Name) (rasLinks : Name → Option (List α))
    (configured : List (ExternalConnection α)) : Finset Name :=
  (configured.filterMap (selectAdapter ndisAdapters rasLinks)).toFinset

theorem selectAdapter_mem {ndisAdapters : List Name} {rasLinks : Name → Option (List α)}
    {adapter : ExternalConnection α} {name : Name} (h : selectAdapter ndisAdapters rasLinks adapter = some name) :
    name ∈ ndisAdapters := by
  unfold selectAdapter at h
  split_ifs at h
  · exact List.mem_of_find?_eq_some h
  · exact List.mem_of_find?_eq_some h

theorem selectAdapters_mem {ndisAdapters : List Name} {rasLinks : Name → Option (List α)}
    {configured : List (ExternalConnection α)} {name : Name}
    (h : name ∈ selectAdapters ndisAdapters rasLinks configured) : name ∈ ndisAdapters := by
  rw [selectAdapters, List.mem_toFinset] at h
  obtain ⟨adapter, -, hadapter⟩ := List.mem_filterMap.mp h
  exact selectAdapter_mem hadapter

end Selection

/-! ### The steps -/

inductive FilterState
  | stopped
  | starting
  | running
  | stopping
  deriving DecidableEq

/-- Where a call of `update_network_configuration` stands: the adapters were copied, the choice is made,
    or it is applied to the adapters that are left. -/
inductive Update
  | listed (ndisAdapters : List Name)
  | selected (ndisAdapters : List Name) (adapters : Finset Name)
  | applying (left : List Name) (adapters : Finset Name)

/-- `asked` tells for which adapters the mode last asked for is not 0, and `tunnels` for which the mode in the
    driver is not. `released` tells whether `release_filter` has been at the adapters, `refused` whether the
    driver ever refused a mode, and `overlapped` whether two updates ever overlapped. -/
structure PacketFilter where
  networkInterfaces : List Name
  filterAdaptersList : Finset Name
  filterState : FilterState
  asked : Name → Bool
  tunnels : Name → Bool
  adaptersToFilter : Finset Name
  updates : List Update
  released : Bool
  refused : Bool
  overlapped : Bool

/-- `taken` tells which calls of `set_mode` succeed; what they return is ignored. -/
inductive Label (α : Type)
  | updateNetworkConfiguration
  | select (i : ℕ) (configured : List (ExternalConnection α)) (rasLinks : Name → Option (List α))
  | compare (i : ℕ)
  | apply (i : ℕ) (taken : Name → Bool)
  | store (i : ℕ)
  | startFilter
  | initFilter (success : Bool) (taken : Name → Bool)
  | stopFilter
  | releaseAdapters (taken : Name → Bool)
  | filterStopped
  | onNetworkAdapterChange (adapters : List Name) (taken : Name → Bool)

namespace PacketFilter

variable (s : PacketFilter)

/-- `set_mode` for every adapter of the list. -/
def setModes (mode taken : Name → Bool) : PacketFilter :=
  { s with
    asked := fun name => if name ∈ s.networkInterfaces then mode name else s.asked name
    tunnels := fun name => if name ∈ s.networkInterfaces ∧ taken name = true then mode name else s.tunnels name
    refused := s.refused || !s.networkInterfaces.all taken }

def updateAdaptersFilterState (taken : Name → Bool) : PacketFilter :=
  s.setModes (fun name => s.filterState = .running && name ∈ s.filterAdaptersList) taken

def setUpdate (i : ℕ) (u : Update) : PacketFilter := { s with updates := s.updates.set i u }

def endUpdate (i : ℕ) : PacketFilter := { s with updates := s.updates.eraseIdx i }

/-- `filter_network_adapter` or `unfilter_network_adapter`. -/
def applied (name : Name) (adapters : Finset Name) (taken : Name → Bool) : PacketFilter :=
  { s with filterAdaptersList :=
      if name ∈ adapters then insert name s.filterAdaptersList else s.filterAdaptersList.erase name
    }.updateAdaptersFilterState taken

/-- The locked part of `start_filter`. -/
def initialized (success : Bool) (taken : Name → Bool) : PacketFilter :=
  { s with
    filterAdaptersList :=
      if s.filterAdaptersList = ∅ then s.networkInterfaces.toFinset else s.filterAdaptersList
    filterState := if success then .running else .stopped }.updateAdaptersFilterState taken

end PacketFilter

section Step

variable {α : Type} [DecidableEq α]

def step (s : PacketFilter) : Label α → Option PacketFilter
  | .updateNetworkConfiguration => some { s with
      updates := s.updates ++ [.listed s.networkInterfaces]
      overlapped := s.overlapped || !s.updates.isEmpty }
  | .select i configured rasLinks =>
    match s.updates[i]? with
    | some (.listed ndisAdapters) =>
      some (s.setUpdate i (.selected ndisAdapters (selectAdapters ndisAdapters rasLinks configured)))
    | _ => none
  | .compare i =>
    match s.updates[i]? with
    | some (.selected ndisAdapters adapters) =>
      some (if s.adaptersToFilter = adapters then s.endUpdate i
        else s.setUpdate i (.applying ndisAdapters adapters))
    | _ => none
  | .apply i taken =>
    match s.updates[i]? with
    | some (.applying (name :: left) adapters) =>
      some ((s.applied name adapters taken).setUpdate i (.applying left adapters))
    | _ => none
  | .store i =>
    match s.updates[i]? with
    | some (.applying [] adapters) => some { s.endUpdate i with adaptersToFilter := adapters }
    | _ => none
  | .startFilter => if s.filterState = .stopped then some { s with filterState := .starting } else none
  | .initFilter success taken =>
    if s.filterState = .starting then some (s.initialized success taken) else none
  | .stopFilter =>
    if s.filterState = .running then some { s with filterState := .stopping, released := false } else none
  | .releaseAdapters taken =>
    if s.filterState = .stopping then some { s.setModes (fun _ => false) taken with released := true } else none
  | .filterStopped =>
    if s.filterState = .stopping ∧ s.released = true then some { s with filterState := .stopped } else none
  | .onNetworkAdapterChange adapters taken =>
    some ({ s with networkInterfaces := adapters }.updateAdaptersFilterState taken)

def initial (adapters : List Name) : PacketFilter where
  networkInterfaces := adapters
  filterAdaptersList := ∅
  filterState := .stopped
  asked := fun _ => false
  tunnels := fun _ => false
  adaptersToFilter := ∅
  updates := []
  released := false
  refused := false
  overlapped := false

inductive Does (s : PacketFilter) : Label α → PacketFilter → Prop
  | began : Does s .updateNetworkConfiguration { s with
      updates := s.updates ++ [.listed s.networkInterfaces]
      overlapped := s.overlapped || !s.updates.isEmpty }
  | selected (i : ℕ) (configured : List (ExternalConnection α)) (rasLinks : Name → Option (List α))
      (ndisAdapters : List Name) (hupdate : s.updates[i]? = some (.listed ndisAdapters)) :
      Does s (.select i configured rasLinks)
        (s.setUpdate i (.selected ndisAdapters (selectAdapters ndisAdapters rasLinks configured)))
  | same (i : ℕ) (ndisAdapters : List Name)
      (hupdate : s.updates[i]? = some (.selected ndisAdapters s.adaptersToFilter)) :
      Does s (.compare i) (s.endUpdate i)
  | changed (i : ℕ) (ndisAdapters : List Name) (adapters : Finset Name)
      (hupdate : s.updates[i]? = some (.selected ndisAdapters adapters)) (hne : s.adaptersToFilter ≠ adapters) :
      Does s (.compare i) (s.setUpdate i (.applying ndisAdapters adapters))
  | applied (i : ℕ) (name : Name) (left : List Name) (adapters : Finset Name) (taken : Name → Bool)
      (hupdate : s.updates[i]? = some (.applying (name :: left) adapters)) :
      Does s (.apply i taken) ((s.applied name adapters taken).setUpdate i (.applying left adapters))
  | stored (i : ℕ) (adapters : Finset Name) (hupdate : s.updates[i]? = some (.applying [] adapters)) :
      Does s (.store i) { s.endUpdate i with adaptersToFilter := adapters }
  | started (hstate : s.filterState = .stopped) : Does s .startFilter { s with filterState := .starting }
  | initialized (success : Bool) (taken : Name → Bool) (hstate : s.filterState = .starting) :
      Does s (.initFilter success taken) (s.initialized success taken)
  | stopping (hstate : s.filterState = .running) :
      Does s .stopFilter { s with filterState := .stopping, released := false }
  | released (taken : Name → Bool) (hstate : s.filterState = .stopping) :
      Does s (.releaseAdapters taken) { s.setModes (fun _ => false) taken with released := true }
  | stopped (hstate : s.filterState = .stopping) (hreleased : s.released = true) :
      Does s .filterStopped { s with filterState := .stopped }
  | listChanged (adapters : List Name) (taken : Name → Bool) :
      Does s (.onNetworkAdapterChange adapters taken)
        ({ s with networkInterfaces := adapters }.updateAdaptersFilterState taken)

variable {s t : PacketFilter} {a : Label α}

theorem step_does (h : step s a = some t) : Does s a t := by
  cases a with
  | updateNetworkConfiguration =>
    obtain rfl := Option.some.inj h
    exact .began
  | select i configured rasLinks =>
    simp only [step] at h
    split at h
    · obtain rfl := Option.some.inj h
      exact .selected i configured rasLinks _ ‹_›
    · cases h
  | compare i =>
    simp only [step] at h
    split at h
    · rename_i ndisAdapters adapters hupdate
      obtain rfl := Option.some.inj h
      split_ifs with hsame
      · subst hsame
        exact .same i ndisAdapters hupdate
      · exact .changed i ndisAdapters adapters hupdate hsame
    · cases h
  | apply i taken =>
    simp only [step] at h
    split at h
    · obtain rfl := Option.some.inj h
      exact .applied i _ _ _ taken ‹_›
    · cases h
  | store i =>
    simp only [step] at h
    split at h
    · obtain rfl := Option.some.inj h
      exact .stored i _ ‹_›
    · cases h
  | startFilter =>
    simp only [step] at h
    split_ifs at h with hstate
    obtain rfl := Option.some.inj h
    exact .started hstate
  | initFilter success taken =>
    simp only [step] at h
    split_ifs at h with hstate
    obtain rfl := Option.some.inj h
    exact .initialized success taken hstate
  | stopFilter =>
    simp only [step] at h
    split_ifs at h with hstate
    obtain rfl := Option.some.inj h
    exact .stopping hstate
  | releaseAdapters taken =>
    simp only [step] at h
    split_ifs at h with hstate
    obtain rfl := Option.some.inj h
    exact .released taken hstate
  | filterStopped =>
    simp only [step] at h
    split_ifs at h with hstate
    obtain rfl := Option.some.inj h
    exact .stopped hstate.1 hstate.2
  | onNetworkAdapterChange adapters taken =>
    obtain rfl := Option.some.inj h
    exact .listChanged adapters taken

/-! ### The modes of the adapters -/

/-- The modes that are asked for the adapters that the filter lists, which the driver has unless it refused one.
    `release_filter` may not have been at them yet. -/
structure ModesOk (s : PacketFilter) : Prop where
  running : s.filterState = .running → ∀ name ∈ s.networkInterfaces,
    (s.asked name = true ↔ name ∈ s.filterAdaptersList)
  released : s.filterState ≠ .running → (s.filterState = .stopping → s.released = true) →
    ∀ name ∈ s.networkInterfaces, s.asked name = false
  driver : s.refused = false → s.tunnels = s.asked

theorem driver_setModes (h : s.refused = false → s.tunnels = s.asked) {mode taken : Name → Bool}
    (hrefused : (s.setModes mode taken).refused = false) :
    (s.setModes mode taken).tunnels = (s.setModes mode taken).asked := by
  simp only [PacketFilter.setModes, Bool.or_eq_false_iff, Bool.not_eq_eq_eq_not, Bool.not_false,
    List.all_eq_true] at hrefused
  obtain ⟨hbefore, htaken⟩ := hrefused
  funext name
  simp only [PacketFilter.setModes]
  by_cases hname : name ∈ s.networkInterfaces
  · rw [if_pos ⟨hname, htaken name hname⟩, if_pos hname]
  · rw [if_neg fun hboth => hname hboth.1, if_neg hname, h hbefore]

theorem modesOk_update (h : s.refused = false → s.tunnels = s.asked) (taken : Name → Bool) :
    ModesOk (s.updateAdaptersFilterState taken) where
  running hstate name hname := by
    have hrunning : s.filterState = .running := hstate
    simp only [PacketFilter.updateAdaptersFilterState, PacketFilter.setModes] at hname ⊢
    rw [if_pos hname, hrunning]
    simp
  released hstate _ name hname := by
    have hidle : s.filterState ≠ .running := hstate
    simp only [PacketFilter.updateAdaptersFilterState, PacketFilter.setModes] at hname ⊢
    rw [if_pos hname]
    simp [hidle]
  driver := driver_setModes h

theorem ModesOk.does (h : ModesOk s) (hdoes : Does s a t) : ModesOk t := by
  cases hdoes with
  | began => exact ⟨h.running, h.released, h.driver⟩
  | selected => exact ⟨h.running, h.released, h.driver⟩
  | same => exact ⟨h.running, h.released, h.driver⟩
  | changed => exact ⟨h.running, h.released, h.driver⟩
  | applied i name left adapters taken =>
    have hmodes : ModesOk (s.applied name adapters taken) := by
      refine modesOk_update ?_ taken
      exact h.driver
    exact ⟨hmodes.running, hmodes.released, hmodes.driver⟩
  | stored => exact ⟨h.running, h.released, h.driver⟩
  | started hstate =>
    refine ⟨fun hrunning => FilterState.noConfusion hrunning, fun _ _ => ?_, h.driver⟩
    exact h.released (by rw [hstate]; decide) (by rw [hstate]; exact fun hstop => FilterState.noConfusion hstop)
  | initialized success taken =>
    refine modesOk_update ?_ taken
    exact h.driver
  | stopping =>
    exact ⟨fun hrunning => FilterState.noConfusion hrunning,
      fun _ hreleased => absurd (hreleased rfl) Bool.false_ne_true, h.driver⟩
  | released taken hstate =>
    refine ⟨fun hrunning => ?_, fun _ _ name hname => if_pos hname, driver_setModes h.driver⟩
    exact FilterState.noConfusion (hstate.symm.trans hrunning)
  | stopped hstate hreleased =>
    refine ⟨fun hrunning => FilterState.noConfusion hrunning, fun _ _ => ?_, h.driver⟩
    exact h.released (by rw [hstate]; decide) fun _ => hreleased
  | listChanged adapters taken =>
    refine modesOk_update ?_ taken
    exact h.driver

/-! ### One update at a time -/

def Covered (s : PacketFilter) : Update → Prop
  | .listed _ => s.adaptersToFilter ⊆ s.filterAdaptersList
  | .selected ndisAdapters adapters =>
    (∀ name ∈ adapters, name ∈ ndisAdapters) ∧ s.adaptersToFilter ⊆ s.filterAdaptersList
  | .applying left adapters => ∀ name ∈ adapters, name ∈ left ∨ name ∈ s.filterAdaptersList

theorem setUpdate_alone {u : Update} (hone : s.updates = [u]) (v : Update) : (s.setUpdate 0 v).updates = [v] := by
  simp only [PacketFilter.setUpdate, hone, List.set_cons_zero]

theorem endUpdate_alone {u : Update} (hone : s.updates = [u]) : (s.endUpdate 0).updates = [] := by
  simp only [PacketFilter.endUpdate, hone, List.eraseIdx_zero, List.tail_cons]

structure Selects (s : PacketFilter) : Prop where
  single : s.updates.length ≤ 1
  covered : ∀ u ∈ s.updates, Covered s u
  idle : s.updates = [] → s.adaptersToFilter ⊆ s.filterAdaptersList

theorem selects_of_idle (hupdates : s.updates = []) (hlist : s.adaptersToFilter ⊆ s.filterAdaptersList) :
    Selects s where
  single := by simp [hupdates]
  covered := by simp [hupdates]
  idle _ := hlist

theorem selects_of_update {u : Update} (hupdates : s.updates = [u]) (hcovered : Covered s u) : Selects s where
  single := by simp [hupdates]
  covered := by simpa [hupdates] using hcovered
  idle hnone := by simp [hupdates] at hnone

theorem Selects.alone (h : Selects s) {i : ℕ} {u : Update} (hupdate : s.updates[i]? = some u) :
    s.updates = [u] ∧ i = 0 ∧ Covered s u := by
  obtain ⟨hi, hget⟩ := List.getElem?_eq_some_iff.mp hupdate
  obtain rfl : i = 0 := by have := h.single; omega
  have hlength : s.updates.length = 1 := by have := h.single; omega
  obtain ⟨v, hv⟩ := List.length_eq_one_iff.mp hlength
  simp only [hv, List.getElem_cons_zero] at hget
  exact ⟨by rw [hv, hget], rfl, h.covered u (List.mem_of_getElem? hupdate)⟩

theorem Selects.grow (h : Selects s) (hupdates : t.updates = s.updates)
    (hadapters : t.adaptersToFilter = s.adaptersToFilter) (hlist : s.filterAdaptersList ⊆ t.filterAdaptersList) :
    Selects t where
  single := hupdates ▸ h.single
  covered u hu := by
    have hcovered := h.covered u (hupdates ▸ hu)
    cases u with
    | listed ndisAdapters =>
      rw [Covered, hadapters]
      exact hcovered.trans hlist
    | selected ndisAdapters adapters =>
      rw [Covered, hadapters]
      exact ⟨hcovered.1, hcovered.2.trans hlist⟩
    | applying left adapters => exact fun name hname => (hcovered name hname).imp_right (@hlist name)
  idle hnone := by
    rw [hadapters]
    exact (h.idle (hupdates ▸ hnone)).trans hlist

theorem Selects.does (h : Selects s) (hdoes : Does s a t) (hoverlapped : t.overlapped = false) : Selects t := by
  cases hdoes with
  | began =>
    have halone : s.updates = [] := by
      simp only [Bool.or_eq_false_iff, Bool.not_eq_eq_eq_not, Bool.not_false, List.isEmpty_iff] at hoverlapped
      exact hoverlapped.2
    apply selects_of_update (u := .listed s.networkInterfaces)
    · simp only [halone, List.nil_append]
    · exact h.idle halone
  | selected i configured rasLinks ndisAdapters hupdate =>
    obtain ⟨hone, rfl, hcovered⟩ := h.alone hupdate
    apply selects_of_update (u := .selected ndisAdapters (selectAdapters ndisAdapters rasLinks configured))
    · exact setUpdate_alone hone _
    · exact ⟨fun _ hname => selectAdapters_mem hname, hcovered⟩
  | same i ndisAdapters hupdate =>
    obtain ⟨hone, rfl, hcovered⟩ := h.alone hupdate
    apply selects_of_idle
    · exact endUpdate_alone hone
    · exact hcovered.2
  | changed i ndisAdapters adapters hupdate =>
    obtain ⟨hone, rfl, hcovered⟩ := h.alone hupdate
    apply selects_of_update (u := .applying ndisAdapters adapters)
    · exact setUpdate_alone hone _
    · exact fun name hname => .inl (hcovered.1 name hname)
  | applied i name left adapters taken hupdate =>
    obtain ⟨hone, rfl, hcovered⟩ := h.alone hupdate
    apply selects_of_update (u := .applying left adapters)
    · exact setUpdate_alone (s := s.applied name adapters taken) hone _
    · intro other hother
      simp only [PacketFilter.setUpdate, PacketFilter.applied, PacketFilter.updateAdaptersFilterState,
        PacketFilter.setModes]
      obtain hleft | hlisted := hcovered other hother
      · obtain rfl | hleft := List.mem_cons.mp hleft
        · rw [if_pos hother]
          exact .inr (Finset.mem_insert_self other _)
        · exact .inl hleft
      · -- an adapter of the choice is never unfiltered by the update that chose it
        split_ifs with hname
        · exact .inr (Finset.mem_insert_of_mem hlisted)
        · exact .inr (Finset.mem_erase.mpr ⟨fun heq => hname (heq ▸ hother), hlisted⟩)
  | stored i adapters hupdate =>
    obtain ⟨hone, rfl, hcovered⟩ := h.alone hupdate
    apply selects_of_idle
    · exact endUpdate_alone hone
    · exact fun name hname => (hcovered name hname).resolve_left (List.not_mem_nil)
  | started => exact h.grow rfl rfl (Finset.Subset.refl _)
  | initialized success =>
    refine h.grow rfl rfl fun name hname => ?_
    simp only [PacketFilter.initialized, PacketFilter.updateAdaptersFilterState, PacketFilter.setModes]
    rwa [if_neg (Finset.ne_empty_of_mem hname)]
  | stopping => exact h.grow rfl rfl (Finset.Subset.refl _)
  | released => exact h.grow rfl rfl (Finset.Subset.refl _)
  | stopped => exact h.grow rfl rfl (Finset.Subset.refl _)
  | listChanged => exact h.grow rfl rfl (Finset.Subset.refl _)

theorem overlapped_does (hdoes : Does s a t) (hoverlapped : t.overlapped = false) : s.overlapped = false := by
  cases hdoes with
  | began => exact (Bool.or_eq_false_iff.mp hoverlapped).1
  | _ => exact hoverlapped

structure Invariant (s : PacketFilter) : Prop where
  modes : ModesOk s
  selects : s.overlapped = false → Selects s

theorem invariant_step (h : Invariant s) (hstep : step s a = some t) : Invariant t where
  modes := h.modes.does (step_does hstep)
  selects hoverlapped := by
    have hbefore : s.overlapped = false := overlapped_does (step_does hstep) hoverlapped
    exact (h.selects hbefore).does (step_does hstep) hoverlapped

theorem invariant_initial (adapters : List Name) : Invariant (initial adapters) where
  modes := ⟨fun hrunning => FilterState.noConfusion hrunning, fun _ _ _ _ => rfl, fun _ => rfl⟩
  selects _ := selects_of_idle rfl (Finset.Subset.refl _)

/-- The modes asked for follow the list, the driver has them unless it refused one, and unless two updates
    overlapped, every adapter of the last finished choice is filtered. -/
structure FiltersSelected (s : PacketFilter) : Prop where
  running : s.filterState = .running → ∀ name ∈ s.networkInterfaces,
    (s.asked name = true ↔ name ∈ s.filterAdaptersList)
  stopped : s.filterState = .stopped → ∀ name ∈ s.networkInterfaces, s.asked name = false
  driver : s.refused = false → s.tunnels = s.asked
  selected : s.overlapped = false → s.updates = [] → s.filterState = .running →
    ∀ name ∈ s.networkInterfaces, name ∈ s.adaptersToFilter → s.asked name = true

theorem Invariant.filtersSelected (h : Invariant s) : FiltersSelected s where
  running := h.modes.running
  stopped hstate := by
    refine h.modes.released ?_ fun hstop => ?_
    · rw [hstate]
      decide
    · exact FilterState.noConfusion (hstate.symm.trans hstop)
  driver := h.modes.driver
  selected hoverlapped hidle hstate name hname hselected :=
    (h.modes.running hstate name hname).mpr ((h.selects hoverlapped).idle hidle hselected)

theorem always_filtersSelected (adapters : List Name) (as : List (Label α)) :
    Always step FiltersSelected (initial adapters) as := by
  apply always_mono fun _ hinv => Invariant.filtersSelected hinv
  exact always_of_invariant (fun _ _ _ => invariant_step) as (invariant_initial adapters)

/-! ### Overlapping updates -/

def Settled (s : PacketFilter) : Update → Prop
  | .listed _ => True
  | .selected _ adapters => adapters = s.adaptersToFilter
  | .applying _ _ => False

structure Missed (name : Name) (s : PacketFilter) : Prop where
  selected : name ∈ s.adaptersToFilter
  unlisted : name ∉ s.filterAdaptersList
  nonempty : s.filterAdaptersList ≠ ∅
  settled : ∀ u ∈ s.updates, Settled s u

def SameChoice (s : PacketFilter) : Label α → Prop
  | .select i configured rasLinks =>
    match s.updates[i]? with
    | some (.listed ndisAdapters) => selectAdapters ndisAdapters rasLinks configured = s.adaptersToFilter
    | _ => True
  | _ => True

theorem Settled.congr {u : Update} (h : Settled s u) (hadapters : t.adaptersToFilter = s.adaptersToFilter) :
    Settled t u := by
  cases u with
  | listed => trivial
  | selected => exact h.trans hadapters.symm
  | applying => exact h

theorem Missed.congr {name : Name} (h : Missed name s) (hadapters : t.adaptersToFilter = s.adaptersToFilter)
    (hlist : t.filterAdaptersList = s.filterAdaptersList)
    (hupdates : ∀ u ∈ t.updates, u ∈ s.updates ∨ Settled t u) : Missed name t where
  selected := hadapters ▸ h.selected
  unlisted := hlist ▸ h.unlisted
  nonempty := hlist ▸ h.nonempty
  settled u hu := (hupdates u hu).elim (fun hold => (h.settled u hold).congr hadapters) id

theorem Missed.does {name : Name} (h : Missed name s) (hdoes : Does s a t) (hsame : SameChoice s a) :
    Missed name t := by
  have kept : ∀ u ∈ s.updates, u ∈ s.updates ∨ Settled s u := fun u hu => .inl hu
  cases hdoes with
  | began =>
    refine h.congr rfl rfl fun u hu => ?_
    obtain hold | hnew := List.mem_append.mp hu
    · exact .inl hold
    · obtain rfl := List.mem_singleton.mp hnew
      exact .inr trivial
  | selected i configured rasLinks ndisAdapters hupdate =>
    simp only [SameChoice, hupdate] at hsame
    refine h.congr rfl rfl fun u hu => ?_
    obtain hold | rfl := List.mem_or_eq_of_mem_set hu
    · exact .inl hold
    · exact .inr hsame
  | same i ndisAdapters hupdate => exact h.congr rfl rfl fun u hu => .inl (List.mem_of_mem_eraseIdx hu)
  | changed i ndisAdapters adapters hupdate hne =>
    exact absurd (h.settled _ (List.mem_of_getElem? hupdate)).symm hne
  | applied i other left adapters taken hupdate => exact (h.settled _ (List.mem_of_getElem? hupdate)).elim
  | stored i adapters hupdate => exact (h.settled _ (List.mem_of_getElem? hupdate)).elim
  | started => exact h.congr rfl rfl kept
  | initialized success => exact h.congr rfl (if_neg h.nonempty) kept
  | stopping => exact h.congr rfl rfl kept
  | released => exact h.congr rfl rfl kept
  | stopped => exact h.congr rfl rfl kept
  | listChanged => exact h.congr rfl rfl kept

/-- A chosen adapter whose packets the filter does not ask for, while no update finds a difference. -/
structure Unfiltered (name : Name) (s : PacketFilter) : Prop where
  missed : Missed name s
  direct : s.filterState = .running → name ∈ s.networkInterfaces → s.asked name = false
  nothingChanged : ∀ left adapters, Update.applying left adapters ∉ s.updates

/-- The adapter stays unfiltered for as long as the choice is the same, also when the filter is stopped and
    started again. -/
theorem missed_forever {adapters : List Name} {as bs : List (Label α)} {s : PacketFilter} {name : Name}
    (hrun : exec step (initial adapters) as = some s) (hmissed : Missed name s)
    (hsame : Meets step SameChoice s bs) : Always step (Unfiltered name) s bs := by
  have hinv : Invariant s := by
    have halways : Always step Invariant (initial adapters) as :=
      always_of_invariant (fun _ _ _ => invariant_step) as (invariant_initial adapters)
    exact (always_iff_reached _ _).mp halways as [] s (List.append_nil as).symm hrun
  have hstays : Always step (fun u => Invariant u ∧ Missed name u) s bs := by
    refine always_of_meets (fun u b v h hsame hstep => ?_) ⟨hinv, hmissed⟩ hsame
    exact ⟨invariant_step h.1 hstep, h.2.does (step_does hstep) hsame⟩
  refine always_mono (fun u h => ⟨h.2, fun hrunning hname => ?_, fun left adapters hu => ?_⟩) hstays
  · rw [← Bool.not_eq_true, h.1.modes.running hrunning name hname]
    exact h.2.unlisted
  · exact h.2.settled _ hu

end Step

section Race

def connection (name : Name) : ExternalConnection ℕ where
  ifType := 6
  adapterName := name
  unicastAddressList := []

def noLinks : Name → Option (List ℕ) := fun _ => none

def allTaken : Name → Bool := fun _ => true

/-- Two updates choose different adapters and both find a difference. The one that filters its adapter
    first stores its choice last. -/
def race : List (Label ℕ) :=
  [.updateNetworkConfiguration, .updateNetworkConfiguration, .select 0 [connection [97]] noLinks,
    .select 1 [connection [98]] noLinks, .compare 0, .compare 1, .apply 1 allTaken, .apply 1 allTaken,
    .apply 0 allTaken, .apply 0 allTaken, .store 0, .store 0]

def restarted : List (Label ℕ) :=
  [.startFilter, .initFilter true allTaken, .updateNetworkConfiguration, .select 0 [connection [98]] noLinks, .compare 0]

def raced : PacketFilter := (exec step (initial [[97], [98]]) race).get rfl

theorem missed_forever_race : exec step (initial [[97], [98]]) race = some raced ∧ Missed [98] raced ∧
    Meets step SameChoice raced restarted ∧ Always step (Unfiltered [98]) raced restarted := by
  have hrun : exec step (initial [[97], [98]]) race = some raced := (Option.some_get _).symm
  have hidle : raced.updates = [] := rfl
  have hmissed : Missed [98] raced := ⟨by decide, by decide, by decide, by simp [hidle]⟩
  have hsame : Meets step SameChoice raced restarted := ⟨trivial, trivial, trivial, rfl, trivial, trivial⟩
  exact ⟨hrun, hmissed, hsame, missed_forever hrun hmissed hsame⟩

end Race

end ProxySwitch.FilteredAdapters
