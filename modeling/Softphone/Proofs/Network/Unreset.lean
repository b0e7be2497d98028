import Softphone.Proofs.Network.Effects
import Softphone.Proofs.Network.Hotspot
import Softphone.Proofs.Network.Pass
import Softphone.Proofs.Timers.Numbered

/-!
# Changes that wait for a reset

After the engine's addresses were changed its transport has to be reset. What was changed since the last
reset is marked (`Mobility.Marked`), a pass that finds the mark resets (`Mobility.reset_mem_passEffects`),
and while the mobility runs a pass is wanted or a timer will want one (`Mobility.Followed`).
-/

namespace Softphone

variable {σ : Type}

namespace Effect

/-- The engine takes an address or lets go of one. -/
def isAcceptedChange (e : Effect) : Bool := e.isChange && !e.isRefusal

theorem isAcceptedChange_of_not_network {e : Effect} (h : e.isNetwork = false) :
    e.isAcceptedChange = false := by
  cases e <;> first | rfl | cases h

end Effect

namespace World

variable {w w' : World σ}

/-- The engine's addresses were changed since the transport was last reset. -/
def unreset (w : World σ) : Bool := (w.past.takeWhile (!·.isReset)).any Effect.isAcceptedChange

theorem unreset_moveTo (w : World σ) (host : σ) (e : Effect) :
    (w.moveTo host e).unreset = (!e.isReset && (e.isAcceptedChange || w.unreset)) := by
  unfold unreset moveTo
  rw [List.takeWhile_cons]
  cases e.isReset <;> rfl

theorem unreset_of_unchanged
    (h : w.Grows (fun e => e.isReset = false ∧ e.isAcceptedChange = false) w') :
    w'.unreset = w.unreset := by
  induction h with
  | refl => rfl
  | within _ host ih => exact ih
  | moveTo _ he ih =>
    rw [unreset_moveTo, he.1, he.2, ih]
    rfl

theorem unreset_of_grows (h : w.Grows (·.isNetwork = false) w') : w'.unreset = w.unreset :=
  unreset_of_unchanged (h.mono fun _ he =>
    ⟨Effect.isReset_of_not_network he, Effect.isAcceptedChange_of_not_network he⟩)

section Engine

variable [Engine σ]

theorem unreset_resetTransport (w : World σ) : w.resetTransport.unreset = false := unreset_moveTo _ _ _

theorem unreset_removeAddress (w : World σ) (a : Address) :
    (w.removeAddress a).2.unreset = ((w.removeAddress a).1 || w.unreset) := by
  refine (unreset_moveTo _ _ _).trans ?_
  rw [Effect.isAcceptedChange, Effect.isRefusal, Bool.not_not]
  rfl

theorem unreset_addAddress (w : World σ) (a : Address) (name : String) :
    (w.addAddress a name).2.unreset = ((w.addAddress a name).1 || w.unreset) := by
  refine (unreset_moveTo _ _ _).trans ?_
  rw [Effect.isAcceptedChange, Effect.isRefusal, Bool.not_not]
  rfl

end Engine

end World

namespace Mobility

/-! ## Calls one after another -/

section Calls

variable [Engine σ]

theorem unreset_removeAll (as : List Address) (w : World σ) :
    (removeAll as w).2.unreset = true ↔
      (removeAll as w).1.length < as.length ∨ w.unreset = true := by
  induction as generalizing w with
  | nil => simp [removeAll]
  | cons a as ih =>
    have hle := (removeAll_sublist as (w.removeAddress a).2).length_le
    unfold removeAll
    dsimp only
    rw [ih, World.unreset_removeAddress]
    split
    · rename_i haccepted
      simp [haccepted, Nat.lt_succ_of_le hle]
    · rename_i hrefused
      simp [hrefused]

theorem unreset_addAll (es : List (Address × String)) (w : World σ) :
    (addAll es w).2.unreset = true ↔
      (addAll es w).1.length < es.length ∨ w.unreset = true := by
  induction es generalizing w with
  | nil => simp [addAll]
  | cons e es ih =>
    obtain ⟨a, name⟩ := e
    have hle := (addAll_sublist es (w.addAddress a name).2).length_le
    rw [List.length_map] at hle
    unfold addAll
    dsimp only
    rw [ih, World.unreset_addAddress]
    split
    · rename_i haccepted
      simp [haccepted, Nat.lt_succ_of_le hle]
    · rename_i hrefused
      simp [hrefused]

theorem unreset_addHotspot (m : Mobility) (found : List (Address × String)) (w : World σ) :
    (m.addHotspot found w).2.2.unreset = ((m.addHotspot found w).1 || w.unreset) := by
  induction found generalizing m w with
  | nil => rfl
  | cons e rest ih =>
    obtain ⟨a, name⟩ := e
    unfold addHotspot
    dsimp only
    rw [ih, World.unreset_addAddress, Bool.or_left_comm, Bool.or_assoc]

theorem unreset_updateResolvers (m : Mobility) (p : Platform) (w : World σ) :
    (m.updateResolvers p w).2.2.unreset = w.unreset :=
  World.unreset_of_unchanged (grows_updateResolvers m w (fun _ _ => ⟨rfl, rfl⟩) p)

end Calls

theorem unreset_followWifi [Connectivity σ] (m : Mobility) (wifi : Bool) (w : World σ) :
    (m.followWifi wifi w).2.unreset = w.unreset :=
  World.unreset_of_unchanged (grows_followWifi m w ⟨rfl, rfl⟩ ⟨rfl, rfl⟩ wifi)

/-! ## The mark -/

variable {m : Mobility} {w : World σ} {t : Timers}

/-- What was changed since the last reset is marked. -/
def Marked (m : Mobility) (w : World σ) : Prop := w.unreset = true → m.dirty = true

/-- While the mobility runs, what is marked is seen to: a pass is wanted, or it will be when a timer
fires. -/
def Followed (m : Mobility) (t : Timers) : Prop :=
  m.running = true → m.dirty = true → m.pending = true ∨ t.isActive .hotspotFollowUp = true

theorem Marked.start [Engine σ] [Connectivity σ] (h : m.Marked w) :
    (m.start w).1.Marked (m.start w).2 := by
  unfold Mobility.start
  dsimp only
  split
  · exact h
  · dsimp only
    split <;> exact h

theorem Marked.stop [Connectivity σ] (h : m.Marked w) : (m.stop w).1.Marked (m.stop w).2 := by
  unfold Mobility.stop dropLock
  split <;> exact h

theorem Marked.observe (h : m.Marked w) (change : NetworkNotification) :
    (m.observe change).Marked w := by
  obtain ⟨_, _, hmobility⟩ := m.observe_mobility change
  rw [hmobility]
  exact h

/-- A report tells that the hotspot went down while addresses of it are known. -/
def withdraws (m : Mobility) (enabled : Bool) : Bool :=
  !enabled && m.hotspotOn && !m.hotspotAddresses.addresses.isEmpty

/-- The mark is set where known addresses go, whatever the engine makes of it. -/
theorem dirty_onHotspotChanged [Engine σ] (m : Mobility) (enabled : Bool) (t : Timers) (w : World σ) :
    (m.onHotspotChanged enabled t w).1.dirty = (m.dirty || m.withdraws enabled) := by
  unfold withdraws onHotspotChanged
  cases hon : m.hotspotOn with
  | true =>
    cases enabled with
    | true => simp
    | false =>
      dsimp only
      split
      · contradiction
      · split <;> rfl
  | false => cases enabled <;> simp

theorem unreset_onHotspotChanged [Engine σ] (m : Mobility) (enabled : Bool) (t : Timers)
    (w : World σ) : (m.onHotspotChanged enabled t w).2.2.unreset = true ↔
      (m.withdraws enabled = true ∧ (removeAll m.hotspotAddresses.addresses w).1.length <
        m.hotspotAddresses.addresses.length) ∨ w.unreset = true := by
  rcases m.onHotspotChanged_cases enabled t w with
    ⟨hsame, heq⟩ | ⟨rfl, hoff, heq⟩ | ⟨rfl, hon, _, _, _, heq⟩
  · rw [heq, withdraws, hsame]
    cases enabled <;> simp
  · rw [heq, withdraws]
    simp
  · rw [heq, withdraws, unreset_removeAll, hon]
    refine or_congr_left ⟨fun hlt => ⟨?_, hlt⟩, And.right⟩
    have hknown : m.hotspotAddresses.addresses ≠ [] :=
      List.ne_nil_of_length_pos (Nat.zero_lt_of_lt hlt)
    simp [hknown]

theorem Marked.onHotspotChanged [Engine σ] (h : m.Marked w) (enabled : Bool) :
    (m.onHotspotChanged enabled t w).1.Marked (m.onHotspotChanged enabled t w).2.2 := by
  intro hunreset
  rw [dirty_onHotspotChanged, Bool.or_eq_true]
  rcases (unreset_onHotspotChanged _ _ _ _).1 hunreset with ⟨hwithdraws, -⟩ | hunreset
  · exact .inr hwithdraws
  · exact .inl (h hunreset)

/-- The mark is set where the engine takes an address of the hotspot, as it then waits for a reset. -/
theorem dirty_onHotspotDebounce [Engine σ] [Connectivity σ] (m : Mobility) (t : Timers)
    (w : World σ) : ∃ any, (m.onHotspotDebounce t w).1.dirty = (any || m.dirty) ∧
      (m.onHotspotDebounce t w).2.2.unreset = (any || w.unreset) := by
  unfold Mobility.onHotspotDebounce
  split
  · exact ⟨false, rfl, rfl⟩
  dsimp only
  split
  · rename_i hany
    refine ⟨true, rfl, ?_⟩
    rw [unreset_addHotspot, hany]
  · rename_i hnone
    refine ⟨false, ?_, ?_⟩
    · rw [addHotspot_mobility]
      rfl
    · rw [unreset_addHotspot, Bool.eq_false_iff.2 hnone]

theorem Marked.onHotspotDebounce [Engine σ] [Connectivity σ] (h : m.Marked w) :
    (m.onHotspotDebounce t w).1.Marked (m.onHotspotDebounce t w).2.2 := by
  obtain ⟨any, hdirty, hunreset⟩ := m.dirty_onHotspotDebounce t w
  unfold Marked
  rw [hdirty, hunreset, Bool.or_eq_true, Bool.or_eq_true]
  exact Or.imp_right h

/-! ## Passes -/

section Pass

variable [Engine σ] [Connectivity σ]

/-- A pass that finds the mark resets the transport. -/
theorem reset_mem_passEffects (hdirty : m.dirty = true) :
    ∃ accepted, .resetTransport true true accepted ∈ m.passEffects w := by
  refine ⟨(Engine.resetTransport true true (m.additions w).2.host).1, ?_⟩
  have hresets : m.resets w = true := by
    rw [resets, hdirty, Bool.or_true]
  rw [mem_passEffects_iff, resetEffects, if_pos hresets]
  exact .inr (.inr (.inr (.inl (List.mem_singleton_self _))))

/-- What waits for a reset once the addresses of a pass have changed: what waited before it, or what the
engine agreed to. -/
theorem unreset_additions : (m.additions w).2.unreset = true ↔
    (0 < m.addedCount w ∨ 0 < m.removedCount w) ∨ w.unreset = true := by
  have hadded : (m.additions w).2.unreset = true ↔
      (m.unadded w).length < (m.steps (m.surveyed w)).added.length ∨
        (m.removals w).2.unreset = true := unreset_addAll _ _
  have hremoved : (m.removals w).2.unreset = true ↔
      (m.unremoved w).length < (m.steps (m.surveyed w)).removed.length ∨
        (m.updateResolvers w.platform w).2.2.unreset = true := unreset_removeAll _ _
  rw [hadded, hremoved, unreset_updateResolvers, addedCount, removedCount, Nat.sub_pos_iff_lt,
    Nat.sub_pos_iff_lt, or_assoc]

/-- After a pass nothing waits for a reset. -/
theorem Marked.reconcile (h : m.Marked w) : (m.reconcile w).2.2.unreset = false := by
  have hworld : (m.reconcile w).2.2.unreset =
      (if m.resets w then (m.additions w).2.resetTransport else (m.additions w).2).unreset := by
    unfold Mobility.reconcile
    dsimp only
    rw [updateResolvers_mobility, unreset_followWifi]
    rfl
  rw [hworld]
  split
  · exact World.unreset_resetTransport _
  -- Without a reset the pass changed nothing, so what waits after it waited before it, and was marked.
  rename_i hkept
  simp only [resets, Bool.or_eq_true, decide_eq_true_eq, not_or] at hkept
  obtain ⟨⟨⟨hadded, hremoved⟩, -⟩, hclean⟩ := hkept
  rw [Bool.eq_false_iff, Ne, unreset_additions]
  rintro ((hpos | hpos) | hunreset)
  · exact hadded hpos
  · exact hremoved hpos
  · exact hclean (h hunreset)

end Pass

/-! ## Follow-ups -/

theorem Followed.request (m : Mobility) (t : Timers) : m.request.Followed t :=
  fun _ _ => .inl rfl

theorem Followed.observe (h : m.Followed t) (change : NetworkNotification) :
    (m.observe change).Followed t := by
  unfold Mobility.observe
  split
  · exact h
  · exact h
  all_goals
    split
    · exact Followed.request m t
    · exact h

theorem Followed.of_stopped (h : m.running = false) : m.Followed t := fun hrunning =>
  absurd hrunning (by rw [h]; exact Bool.false_ne_true)

theorem Followed.onHotspotChanged [Engine σ] (ht : t.Numbered) (h : m.Followed t) (enabled : Bool) :
    (m.onHotspotChanged enabled t w).1.Followed (m.onHotspotChanged enabled t w).2.1 := by
  unfold Mobility.onHotspotChanged
  split
  · exact h
  split
  · have hspares : t.Spares (· == .hotspotFollowUp)
        ((t.cancelKind .hotspotDebounce).scheduleOnce .hotspotDebounce
          m.settings.hotspotDebounce.toNat).2 :=
      .trans (.cancelKind rfl t) (.scheduleOnce rfl _ _)
    unfold Followed
    rw [hspares.isActive ht rfl]
    exact h
  · dsimp only
    split
    · exact Followed.request _ _
    · rename_i hstopped
      exact Followed.of_stopped (Bool.eq_false_iff.2 hstopped)

theorem Followed.onHotspotDebounce [Engine σ] [Connectivity σ] (h : m.Followed t) :
    (m.onHotspotDebounce t w).1.Followed (m.onHotspotDebounce t w).2.1 := by
  unfold Mobility.onHotspotDebounce
  split
  · exact h
  dsimp only
  split
  · exact fun _ _ => .inr (by rw [Timers.isActive_scheduleOnce]; simp)
  · rw [addHotspot_mobility]
    exact h

theorem numbered_onHotspotChanged [Engine σ] (h : t.Numbered) (m : Mobility) (enabled : Bool)
    (w : World σ) : (m.onHotspotChanged enabled t w).2.1.Numbered := by
  unfold Mobility.onHotspotChanged
  split
  · exact h
  split
  · exact (h.cancelWhere _).scheduleOnce _ _
  · exact (h.cancelWhere _).cancelWhere _

theorem numbered_onHotspotDebounce [Engine σ] [Connectivity σ] (h : t.Numbered) (m : Mobility)
    (w : World σ) : (m.onHotspotDebounce t w).2.1.Numbered := by
  unfold Mobility.onHotspotDebounce
  split
  · exact h
  dsimp only
  split
  · exact h.scheduleOnce _ _
  · exact h

end Mobility

end Softphone
