import ProxySwitch.RuntimeReload

set_option autoImplicit false

namespace ProxySwitch.DurableDeletions
open AppRoutes RuntimeReload

/-- After the reload the persistent routes are the ones that were saved, in memory and in the
    file. -/
structure Durable (s : Setup) (edited : List AppRoute) (files : Files) : Prop where
  inMemory : SameRoutes (persistent edited)
    (persistent (reloadRuntimeServices s (onSave edited files)).1)
  saved : SameRoutes (persistent edited)
    (persistent (reloadRuntimeServices s (onSave edited files)).2.proxyswitch)

section Reload
variable {s : Setup} {edited : List AppRoute} {files : Files}

theorem persistent_persistent (l : List AppRoute) : persistent (persistent l) = persistent l := by
  simp [persistent, List.filter_filter]

theorem durable_of_nothingStale (h : NothingStale s edited files) : Durable s edited files := by
  obtain ⟨added, hloaded, -, hnone⟩ := loaded_onSave s edited files
  obtain ⟨hmemory, hfile⟩ := reload_spec s (onSave edited files)
  rw [hnone.mpr h, List.append_nil] at hloaded
  rw [hloaded] at hmemory hfile
  refine ⟨sameRoutes_persistent hmemory, ?_⟩
  obtain hsame | ⟨l, hl, hwritten⟩ := hfile
  · rw [hsame]
    exact sameRoutes_refl _
  · rw [hwritten, persistent_persistent]
    exact sameRoutes_persistent hl

/-- An imported route makes the table longer than what was saved. -/
theorem nothingStale_of_durable (h : Durable s edited files) : NothingStale s edited files := by
  obtain ⟨added, hloaded, hpersistent, hnone⟩ := loaded_onSave s edited files
  have hmemory := sameRoutes_persistent (reload_spec s (onSave edited files)).1
  have hlength := h.inMemory.length_eq.trans hmemory.length_eq.symm
  rw [hloaded, persistent, persistent, List.filter_append, List.length_append] at hlength
  refine hnone.mp (List.eq_nil_of_length_eq_zero ?_)
  rw [← hpersistent, persistent]
  omega

end Reload

/-- What Settings saved is what the reload leaves precisely when the `app-config.json` of the
    earlier runs has no route that is not among it. -/
theorem durable_iff (s : Setup) (edited : List AppRoute) (files : Files) :
    Durable s edited files ↔ NothingStale s edited files :=
  ⟨nothingStale_of_durable, durable_of_nothingStale⟩

def noteRoute : AppRoute :=
  { proxyId := "clash".toList, processName := "note".toList, matchKind := .processName }

/-- The only route is deleted, and imported again from the file that the last reload wrote. -/
theorem deleted_route_returns : ¬∀ (s : Setup) (saved edited : List AppRoute),
    edited.Sublist saved → Durable s edited (reloadRuntimeServices s ⟨saved, none⟩).2 := by
  intro h
  have hmemory := (h plainSetup [noteRoute] [] (List.nil_sublist _)).inMemory
  have hlength := hmemory.length_eq
  revert hlength
  decide

end ProxySwitch.DurableDeletions
