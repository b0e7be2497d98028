import Mathlib.Data.List.Nodup
import Softphone.Timer

/-!
# The numbers of timers

No two active timers have the same number (`Timers.Numbered`), whatever is set, cancelled or taken. So
what is done about timers of one kind leaves those of the other kinds alone (`Timers.Spares`), even
where a firing is taken (`Timers.Spares.accept`). Numbers only grow: whatever is done, a timer that comes
in has a new one, and an alarm has one that was given out (`Timers.Advances`).
-/

namespace Softphone

namespace Timers

variable {t t' : Timers} {kind k : TimerKind} {firing : Firing}

/-- No two active timers have the same number, and the next number is new. -/
structure Numbered (t : Timers) : Prop where
  nodup : (t.active.map (·.id)).Nodup
  fresh : ∀ timer ∈ t.active, timer.id.raw < t.nextId

namespace Numbered

theorem empty : ({} : Timers).Numbered := ⟨.nil, nofun⟩

/-- Timers may go, and numbers may be passed over. -/
theorem of_sublist (h : t.Numbered) (hactive : t'.active.Sublist t.active)
    (hnext : t.nextId ≤ t'.nextId) : t'.Numbered where
  nodup := h.nodup.sublist (hactive.map _)
  fresh timer htimer := Nat.lt_of_lt_of_le (h.fresh timer (hactive.subset htimer)) hnext

theorem snoc (h : t.Numbered) {timer : Timer} (hactive : t'.active = t.active ++ [timer])
    (hid : timer.id = t.freshId) (hnext : t'.nextId = t.nextId + 1) : t'.Numbered where
  nodup := by
    rw [hactive, List.map_append, List.map_singleton, hid, ← List.concat_eq_append]
    refine h.nodup.concat fun hmem => ?_
    obtain ⟨other, hother, heq⟩ := List.mem_map.1 hmem
    have hfresh := h.fresh other hother
    rw [heq] at hfresh
    exact Nat.lt_irrefl _ hfresh
  fresh other hother := by
    rw [hactive, List.mem_append, List.mem_singleton] at hother
    rw [hnext]
    rcases hother with hother | rfl
    · exact Nat.lt_succ_of_lt (h.fresh other hother)
    · rw [hid]
      exact t.nextId.lt_succ_self

theorem scheduleOnce (h : t.Numbered) (kind : TimerKind) (delay : Nat) :
    (t.scheduleOnce kind delay).2.Numbered :=
  h.snoc rfl rfl rfl

theorem scheduleRepeating (h : t.Numbered) (kind : TimerKind) (initial period : Nat) :
    (t.scheduleRepeating kind initial period).2.Numbered :=
  h.snoc rfl rfl rfl

theorem cancelWhere (h : t.Numbered) (test : Timer → Bool) : (t.cancelWhere test).Numbered :=
  h.of_sublist List.filter_sublist (Nat.le_refl _)

theorem accept (h : t.Numbered) (firing : Firing) : (t.accept firing).2.Numbered := by
  unfold Timers.accept
  split
  · exact h
  · split
    · exact h
    · dsimp only
      split
      · exact h
      · exact h.of_sublist List.filter_sublist (Nat.le_refl _)

/-- A number names one timer. -/
theorem eq_of_id_eq (h : t.Numbered) {x y : Timer} (hx : x ∈ t.active) (hy : y ∈ t.active)
    (hid : x.id = y.id) : x = y :=
  List.inj_on_of_nodup_map h.nodup hx hy hid

end Numbered

/-! ## Timers of some kinds -/

theorem isActive_scheduleOnce (t : Timers) (kind k : TimerKind) (delay : Nat) :
    (t.scheduleOnce kind delay).2.isActive k = (t.isActive k || decide (kind = k)) := by
  simp [scheduleOnce, isActive]

theorem active_cancelAll (t : Timers) : t.cancelAll.active = [] := by
  simp [cancelAll, cancelWhere]

theorem isActive_cancelKind (t : Timers) (kind k : TimerKind) :
    (t.cancelKind kind).isActive k = (t.isActive k && decide (kind ≠ k)) := by
  rw [Bool.eq_iff_iff]
  simp only [cancelKind, cancelWhere, isActive, List.any_filter, List.any_eq_true, Bool.and_eq_true,
    Bool.not_eq_true', decide_eq_false_iff_not, decide_eq_true_eq]
  constructor
  · rintro ⟨timer, htimer, hkept, rfl⟩
    exact ⟨⟨timer, htimer, rfl⟩, Ne.symm hkept⟩
  · rintro ⟨⟨timer, htimer, rfl⟩, hkind⟩
    exact ⟨timer, htimer, Ne.symm hkind, rfl⟩

theorem accept_of_refused (h : (t.accept firing).1 = false) : (t.accept firing).2 = t := by
  unfold accept at h ⊢
  split
  · rfl
  · rename_i hfind
    rw [hfind] at h
    dsimp only at h
    split
    · rfl
    · rename_i hkind
      rw [if_neg hkind] at h
      cases h

/-- Timers of some kinds are left alone, and no number is given out twice. -/
structure Spares (kinds : TimerKind → Bool) (t t' : Timers) : Prop where
  numbered : t.Numbered → t'.Numbered
  filter_eq : t.Numbered →
    t'.active.filter (fun timer => kinds timer.kind) =
      t.active.filter (fun timer => kinds timer.kind)

namespace Spares

variable {kinds : TimerKind → Bool} {t'' : Timers}

theorem of_active (hactive : t'.active = t.active) (hnext : t'.nextId = t.nextId) :
    t.Spares kinds t' where
  numbered h := h.of_sublist (hactive ▸ .refl _) (Nat.le_of_eq hnext.symm)
  filter_eq _ := by rw [hactive]

theorem refl : t.Spares kinds t := of_active rfl rfl

theorem trans (h : t.Spares kinds t') (h' : t'.Spares kinds t'') : t.Spares kinds t'' where
  numbered hnumbered := h'.numbered (h.numbered hnumbered)
  filter_eq hnumbered := (h'.filter_eq (h.numbered hnumbered)).trans (h.filter_eq hnumbered)

/-- Of fewer kinds timers are left alone as well. -/
theorem mono {fewer : TimerKind → Bool} (h : t.Spares kinds t')
    (hfewer : ∀ k, fewer k = true → kinds k = true) : t.Spares fewer t' where
  numbered := h.numbered
  filter_eq hnumbered := by
    have hboth : ∀ timers : List Timer, timers.filter (fun timer => fewer timer.kind) =
        (timers.filter fun timer => kinds timer.kind).filter fun timer => fewer timer.kind := by
      intro timers
      rw [List.filter_filter]
      refine List.filter_congr fun timer _ => ?_
      cases hkind : fewer timer.kind with
      | false => rfl
      | true => exact (hfewer _ hkind).symm
    rw [hboth, h.filter_eq hnumbered, ← hboth]

theorem mem_active_iff (h : t.Spares kinds t') (hnumbered : t.Numbered) {timer : Timer}
    (hkind : kinds timer.kind = true) : timer ∈ t'.active ↔ timer ∈ t.active := by
  have heq := congrArg (timer ∈ ·) (h.filter_eq hnumbered)
  simpa [hkind] using heq

theorem isActive (h : t.Spares kinds t') (hnumbered : t.Numbered) (hk : kinds k = true) :
    t'.isActive k = t.isActive k := by
  unfold Timers.isActive
  rw [Bool.eq_iff_iff, List.any_eq_true, List.any_eq_true]
  refine exists_congr fun timer => and_congr_left fun hof => h.mem_active_iff hnumbered ?_
  rw [of_decide_eq_true hof]
  exact hk

theorem scheduleRepeating (hkind : kinds kind = false) (t : Timers) (initial period : Nat) :
    t.Spares kinds (t.scheduleRepeating kind initial period).2 where
  numbered h := h.scheduleRepeating kind initial period
  filter_eq _ := by simp [Timers.scheduleRepeating, hkind]

theorem scheduleOnce (hkind : kinds kind = false) (t : Timers) (delay : Nat) :
    t.Spares kinds (t.scheduleOnce kind delay).2 where
  numbered h := h.scheduleOnce kind delay
  filter_eq _ := by simp [Timers.scheduleOnce, hkind]

theorem cancelKind (hkind : kinds kind = false) (t : Timers) :
    t.Spares kinds (t.cancelKind kind) where
  numbered h := h.cancelWhere _
  filter_eq _ := by
    unfold Timers.cancelKind cancelWhere
    rw [List.filter_filter]
    refine List.filter_congr fun timer _ => ?_
    by_cases hof : timer.kind = kind <;> simp [hof, hkind]

/-- Taking a firing uses up no timer of another kind, since no other has its number. -/
theorem accept (hkind : kinds firing.kind = false) (t : Timers) :
    t.Spares kinds (t.accept firing).2 where
  numbered h := h.accept firing
  filter_eq h := by
    unfold Timers.accept
    split
    · rfl
    rename_i timer hfind
    split
    · rfl
    rename_i hof
    dsimp only
    split
    · rfl
    have htimer := List.mem_of_find?_eq_some hfind
    have hid : timer.id = firing.id := by simpa using List.find?_some hfind
    rw [List.filter_filter]
    refine List.filter_congr fun other hother => ?_
    by_cases hsame : other.id = firing.id
    · -- the timer with that number is the one that was found, whose kind is that of the firing
      rw [h.eq_of_id_eq hother htimer (hsame.trans hid.symm), not_ne_iff.1 hof, hkind]
      rfl
    · simp [hsame]

end Spares

/-! ## Numbers that were given out -/

/-- Every alarm has a number that was given out. -/
def Dated (t : Timers) : Prop := ∀ alarm ∈ t.alarms, alarm.firing.id.raw < t.nextId

namespace Dated

theorem empty : ({} : Timers).Dated := List.forall_mem_nil _

theorem snoc (h : t.Dated)
    (halarms : ∀ alarm ∈ t'.alarms, alarm ∈ t.alarms ∨ alarm.firing.id = t.freshId)
    (hnext : t'.nextId = t.nextId + 1) : t'.Dated := by
  intro alarm halarm
  rw [hnext]
  rcases halarms alarm halarm with hearlier | hid
  · exact Nat.lt_succ_of_lt (h alarm hearlier)
  · rw [hid]
    exact Nat.lt_succ_self _

theorem scheduleOnce (h : t.Dated) (kind : TimerKind) (delay : Nat) :
    (t.scheduleOnce kind delay).2.Dated := by
  refine h.snoc (fun alarm halarm => ?_) rfl
  simp only [Timers.scheduleOnce, List.mem_append, List.mem_singleton] at halarm
  exact halarm.imp_right fun heq => by rw [heq]

theorem scheduleRepeating (h : t.Dated) (kind : TimerKind) (initial period : Nat) :
    (t.scheduleRepeating kind initial period).2.Dated := by
  refine h.snoc (fun alarm halarm => ?_) rfl
  simp only [Timers.scheduleRepeating] at halarm
  split at halarm
  · exact .inl halarm
  · rw [List.mem_append, List.mem_singleton] at halarm
    exact halarm.imp_right fun heq => by rw [heq]

/-- An alarm that rings again keeps its number. -/
theorem fire (h : t.Dated) : t.fire.2.Dated := by
  intro alarm halarm
  simp only [Timers.fire, List.partition_eq_filter_filter, List.mem_append, List.mem_filter,
    List.mem_filterMap] at halarm
  rcases halarm with ⟨hlater, -⟩ | ⟨due, ⟨hdue, -⟩, hnext⟩
  · exact h alarm hlater
  · obtain ⟨period, -, rfl⟩ := Option.map_eq_some_iff.1 hnext
    exact h due hdue

theorem of_fired (h : t.Dated) {firing : Firing} (hfired : firing ∈ t.fire.1) :
    firing.id.raw < t.nextId := by
  simp only [Timers.fire, List.partition_eq_filter_filter, List.mem_map, List.mem_filter] at hfired
  obtain ⟨alarm, ⟨halarm, -⟩, rfl⟩ := hfired
  exact h alarm halarm

end Dated

/-- Timers may go, those that come have new numbers, and every alarm keeps a number that was given out. -/
structure Advances (t t' : Timers) : Prop where
  active : ∀ timer ∈ t'.active, timer ∈ t.active ∨ t.nextId ≤ timer.id.raw
  nextId_le : t.nextId ≤ t'.nextId
  dated : t.Dated → t'.Dated

namespace Advances

variable {t'' : Timers}

theorem refl : t.Advances t := ⟨fun _ => .inl, Nat.le_refl _, id⟩

theorem trans (h : t.Advances t') (h' : t'.Advances t'') : t.Advances t'' := by
  refine ⟨fun timer htimer => ?_, Nat.le_trans h.nextId_le h'.nextId_le, h'.dated ∘ h.dated⟩
  rcases h'.active timer htimer with hearlier | hnew
  · exact h.active timer hearlier
  · exact .inr (Nat.le_trans h.nextId_le hnew)

theorem of_subset (hactive : t'.active ⊆ t.active) (halarms : t'.alarms ⊆ t.alarms)
    (hnext : t'.nextId = t.nextId) : t.Advances t' := by
  refine ⟨fun timer htimer => .inl (hactive htimer), Nat.le_of_eq hnext.symm, ?_⟩
  intro h alarm halarm
  rw [hnext]
  exact h alarm (halarms halarm)

theorem snoc {timer : Timer} (hactive : t'.active = t.active ++ [timer]) (hid : timer.id = t.freshId)
    (hnext : t'.nextId = t.nextId + 1) (hdated : t.Dated → t'.Dated) : t.Advances t' := by
  refine ⟨fun other hother => ?_, hnext ▸ Nat.le_succ _, hdated⟩
  rw [hactive, List.mem_append, List.mem_singleton] at hother
  rcases hother with hother | rfl
  · exact .inl hother
  · exact .inr (Nat.le_of_eq (congrArg TimerId.raw hid).symm)

theorem scheduleOnce (t : Timers) (kind : TimerKind) (delay : Nat) :
    t.Advances (t.scheduleOnce kind delay).2 :=
  .snoc rfl rfl rfl fun h => h.scheduleOnce kind delay

theorem scheduleRepeating (t : Timers) (kind : TimerKind) (initial period : Nat) :
    t.Advances (t.scheduleRepeating kind initial period).2 :=
  .snoc rfl rfl rfl fun h => h.scheduleRepeating kind initial period

theorem cancelWhere (t : Timers) (test : Timer → Bool) : t.Advances (t.cancelWhere test) :=
  .of_subset List.filter_sublist.subset List.filter_sublist.subset rfl

theorem setNow (t : Timers) (now : Nat) : t.Advances (t.setNow now) :=
  .of_subset (List.Subset.refl _) (List.Subset.refl _) rfl

theorem fire (t : Timers) : t.Advances t.fire.2 := ⟨fun _ => .inl, Nat.le_refl _, Dated.fire⟩

end Advances

theorem accept_active_sublist : (t.accept firing).2.active.Sublist t.active := by
  unfold accept
  split
  · exact .refl _
  · split
    · exact .refl _
    · dsimp only
      split
      · exact .refl _
      · exact List.filter_sublist

theorem Advances.accept (t : Timers) (firing : Firing) : t.Advances (t.accept firing).2 := by
  refine .of_subset accept_active_sublist.subset ?_ ?_
  all_goals
    unfold Timers.accept
    split
    · simp
    · split
      · simp
      · dsimp only
        split <;> simp

/-! ## How many timers there are -/

/-- There come to be no more timers of some kinds. -/
structure SetsNone (kinds : TimerKind → Bool) (t t' : Timers) : Prop where
  advances : t.Advances t'
  countKind_le : ∀ k, kinds k = true → t'.countKind k ≤ t.countKind k

theorem countKind_cancelWhere_le (t : Timers) (test : Timer → Bool) (k : TimerKind) :
    (t.cancelWhere test).countKind k ≤ t.countKind k :=
  List.filter_sublist.countP_le

theorem countKind_scheduleOnce (t : Timers) (kind k : TimerKind) (delay : Nat) :
    (t.scheduleOnce kind delay).2.countKind k = t.countKind k + if kind = k then 1 else 0 := by
  simp [scheduleOnce, countKind, List.countP_append, List.countP_singleton]

theorem countKind_scheduleRepeating (t : Timers) (kind k : TimerKind) (initial period : Nat) :
    (t.scheduleRepeating kind initial period).2.countKind k =
      t.countKind k + if kind = k then 1 else 0 := by
  simp [scheduleRepeating, countKind, List.countP_append, List.countP_singleton]

theorem countKind_eq_zero_iff : t.countKind k = 0 ↔ t.isActive k = false := by
  simp [countKind, isActive]

namespace SetsNone

variable {kinds : TimerKind → Bool} {t'' : Timers}

theorem refl : t.SetsNone kinds t := ⟨.refl, fun _ _ => Nat.le_refl _⟩

theorem trans (h : t.SetsNone kinds t') (h' : t'.SetsNone kinds t'') : t.SetsNone kinds t'' :=
  ⟨h.advances.trans h'.advances,
    fun k hk => Nat.le_trans (h'.countKind_le k hk) (h.countKind_le k hk)⟩

theorem cancelKind (t : Timers) (kind : TimerKind) : t.SetsNone kinds (t.cancelKind kind) :=
  ⟨.cancelWhere t _, fun k _ => t.countKind_cancelWhere_le _ k⟩

theorem accept (t : Timers) (firing : Firing) : t.SetsNone kinds (t.accept firing).2 :=
  ⟨.accept t firing, fun _ _ => accept_active_sublist.countP_le⟩

theorem setNow (t : Timers) (now : Nat) : t.SetsNone kinds (t.setNow now) :=
  ⟨.setNow t now, fun _ _ => Nat.le_refl _⟩

theorem fire (t : Timers) : t.SetsNone kinds t.fire.2 := ⟨.fire t, fun _ _ => Nat.le_refl _⟩

theorem scheduleOnce (hkind : kinds kind = false) (t : Timers) (delay : Nat) :
    t.SetsNone kinds (t.scheduleOnce kind delay).2 := by
  refine ⟨.scheduleOnce t kind delay, fun k hk => ?_⟩
  have hother : kind ≠ k := by
    rintro rfl
    rw [hkind] at hk
    cases hk
  rw [countKind_scheduleOnce, if_neg hother]
  exact Nat.le_refl _

end SetsNone

end Timers

end Softphone
