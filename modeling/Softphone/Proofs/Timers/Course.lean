import Mathlib.Data.List.Induction
import Softphone.Proofs.Since
import Softphone.Proofs.Timers.Numbered

/-!
# The course of timers

A firing counts exactly if its timer was set with that kind and nothing has ended it since. So a firing
that was sent before its timer was cancelled is refused, however late it is taken and whatever timers of
its kind have been set meanwhile (`Timers.trusty_throughout`).
-/

namespace Softphone

namespace Timers

/-- One thing that happens to timers. -/
inductive Move
  | once (kind : TimerKind) (delay : Nat)
  | repeating (kind : TimerKind) (initial period : Nat)
  | cancel (id : TimerId)
  | cancelKind (kind : TimerKind)
  | cancelAll
  | clock (now : Nat)
  /-- The timers that are due send their firings. -/
  | fire
  /-- Somebody takes a firing, and asks whether it counts. -/
  | take (firing : Firing)

def move (t : Timers) : Move → Timers
  | .once kind delay => (t.scheduleOnce kind delay).2
  | .repeating kind initial period => (t.scheduleRepeating kind initial period).2
  | .cancel id => (t.cancel id).2
  | .cancelKind kind => t.cancelKind kind
  | .cancelAll => t.cancelAll
  | .clock now => t.setNow now
  | .fire => t.fire.2
  | .take firing => (t.accept firing).2

/-- The timer that a move sets, under the number that it answers with. -/
def setBy? (t : Timers) : Move → Option Timer
  | .once kind delay => some ⟨(t.scheduleOnce kind delay).1, kind, false⟩
  | .repeating kind initial period => some ⟨(t.scheduleRepeating kind initial period).1, kind, true⟩
  | _ => none

/-- The firings that a move sends. -/
def sentBy (t : Timers) : Move → List Firing
  | .fire => t.fire.1
  | _ => []

/-- The firing that a move takes, if it counts. -/
def countedBy? (t : Timers) : Move → Option Firing
  | .take firing => if (t.accept firing).1 then some firing else none
  | _ => none

end Timers

/-- The message that a timer sends. -/
def Timer.firing (timer : Timer) : Firing := ⟨timer.id, timer.kind⟩

/-- Whether a move cancels a timer that was set before, or uses it up. -/
def Timer.endedBy (timer : Timer) : Timers.Move → Bool
  | .cancel id => id = timer.id
  | .cancelKind kind => kind = timer.kind
  | .cancelAll => true
  | .take firing => !timer.repeats && firing = timer.firing
  | _ => false

namespace Timers

/-- Timers, with what has come of them so far. -/
structure Course where
  timers : Timers := {}
  /-- The timers that were set, the first first. -/
  set : List Timer := []
  /-- The firings that were sent. Somebody may take them at any time, in any order. -/
  sent : List Firing := []
  /-- The firings that were taken and counted. -/
  counted : List Firing := []

namespace Course

def move (c : Course) (m : Move) : Course where
  timers := c.timers.move m
  set := c.set ++ (c.timers.setBy? m).toList
  sent := c.sent ++ c.timers.sentBy m
  counted := c.counted ++ (c.timers.countedBy? m).toList

/-- The course of timers after some moves. -/
def run (ms : List Move) : Course := ms.foldl move {}

/-- How often firings under a number have counted. -/
def count (c : Course) (id : TimerId) : Nat := c.counted.countP (·.id = id)

theorem run_concat (ms : List Move) (m : Move) : run (ms ++ [m]) = (run ms).move m :=
  List.foldl_concat ..

end Course

/-- A timer was set in the course of some moves, and none of those after it has ended it. -/
def InForce (ms : List Move) (timer : Timer) : Prop :=
  ∃ before m later, ms = before ++ m :: later ∧
    (Course.run before).timers.setBy? m = some timer ∧ ∀ x ∈ later, timer.endedBy x = false

/-- What can be relied on after some moves. -/
structure Trusty (ms : List Move) : Prop where
  /-- No number was given out twice. -/
  ids_nodup : ((Course.run ms).set.map (·.id)).Nodup
  /-- A firing counts exactly if a timer with its number and kind is in force. -/
  accept_iff : ∀ firing, ((Course.run ms).timers.accept firing).1 = true ↔
    ∃ repeats, InForce ms ⟨firing.id, firing.kind, repeats⟩
  /-- Firings of a timer that fires once have counted once at most. -/
  once : ∀ timer ∈ (Course.run ms).set, timer.repeats = false →
    (Course.run ms).count timer.id ≤ 1
  /-- No firing counts of a timer that was set before its kind was cancelled. -/
  kind_cancelled : ∀ before kind later, ms = before ++ .cancelKind kind :: later →
    ∀ timer ∈ (Course.run before).set, timer.kind = kind → ∀ firing, firing.id = timer.id →
      ((Course.run ms).timers.accept firing).1 = false
  /-- No firing counts of a timer that was set before all were cancelled. -/
  all_cancelled : ∀ before later, ms = before ++ .cancelAll :: later →
    ∀ timer ∈ (Course.run before).set, ∀ firing, firing.id = timer.id →
      ((Course.run ms).timers.accept firing).1 = false
  /-- Every firing that was sent is one of a timer that was set. -/
  sent : ∀ firing ∈ (Course.run ms).sent, ∃ timer ∈ (Course.run ms).set, timer.firing = firing

variable {t : Timers} {m : Move} {ms : List Move} {timer : Timer} {firing : Firing}

/-! ## One move -/

theorem find?_eq_some_iff (h : t.Numbered) {id : TimerId} :
    t.find? id = some timer ↔ timer ∈ t.active ∧ timer.id = id := by
  unfold find?
  constructor
  · intro hfind
    exact ⟨List.mem_of_find?_eq_some hfind, by simpa using List.find?_some hfind⟩
  · rintro ⟨hmem, rfl⟩
    cases hfind : t.active.find? (·.id = timer.id) with
    | none =>
      have hother := List.find?_eq_none.1 hfind timer hmem
      simp at hother
    | some found =>
      have hid : found.id = timer.id := by simpa using List.find?_some hfind
      rw [h.eq_of_id_eq (List.mem_of_find?_eq_some hfind) hmem hid]

theorem accept_of_mem (h : t.Numbered) (hmem : timer ∈ t.active) : t.accept timer.firing =
    (true, if timer.repeats then t
      else { t with active := t.active.filter (·.id ≠ timer.id) }) := by
  have hfind : t.find? timer.firing.id = some timer := (find?_eq_some_iff h).2 ⟨hmem, rfl⟩
  rw [accept, hfind]
  exact if_neg (not_not.2 rfl)

theorem accept_of_forall_ne (h : t.Numbered) (hother : ∀ timer ∈ t.active, timer.firing ≠ firing) :
    t.accept firing = (false, t) := by
  unfold accept
  split
  · rfl
  · rename_i timer hfind
    obtain ⟨hmem, hid⟩ := (find?_eq_some_iff h).1 hfind
    refine if_pos fun hkind => hother timer hmem ?_
    rw [Timer.firing, hid, hkind]

/-- A firing counts if a timer with its number and kind is active. -/
theorem accept_eq_true_iff (h : t.Numbered) :
    (t.accept firing).1 = true ↔ ∃ timer ∈ t.active, timer.firing = firing := by
  constructor
  · intro haccepted
    by_contra hnone
    rw [accept_of_forall_ne h fun timer hmem heq => hnone ⟨timer, hmem, heq⟩] at haccepted
    cases haccepted
  · rintro ⟨timer, hmem, rfl⟩
    rw [accept_of_mem h hmem]

theorem mem_active_take (h : t.Numbered) : timer ∈ (t.accept firing).2.active ↔
    timer ∈ t.active ∧ timer.endedBy (.take firing) = false := by
  by_cases hactive : ∃ taken ∈ t.active, taken.firing = firing
  · obtain ⟨taken, htaken, rfl⟩ := hactive
    rw [accept_of_mem h htaken]
    -- A number names one timer, so no other than the one that is taken is used up.
    have hother : timer ∈ t.active → timer ≠ taken → timer.id ≠ taken.id :=
      fun hmem hne hid => hne (h.eq_of_id_eq hmem htaken hid)
    have hunspent : timer.id ≠ taken.id → timer.endedBy (.take taken.firing) = false := by
      intro hid
      have hfiring : taken.firing ≠ timer.firing := fun heq => hid (congrArg Firing.id heq).symm
      simp [Timer.endedBy, hfiring]
    cases hrepeats : taken.repeats with
    | true =>
      refine (and_iff_left_of_imp fun hmem => ?_).symm
      by_cases htimer : timer = taken
      · simp [Timer.endedBy, htimer, hrepeats]
      · exact hunspent (hother hmem htimer)
    | false =>
      refine List.mem_filter.trans (and_congr_right fun hmem => ?_)
      by_cases htimer : timer = taken
      · simp [Timer.endedBy, htimer, hrepeats]
      · simp [hunspent (hother hmem htimer), hother hmem htimer]
  · rw [accept_of_forall_ne h fun taken hmem heq => hactive ⟨taken, hmem, heq⟩]
    refine (and_iff_left_of_imp fun hmem => ?_).symm
    have hother : firing ≠ timer.firing := fun heq => hactive ⟨timer, hmem, heq.symm⟩
    simp [Timer.endedBy, hother]

theorem mem_active_cancelWhere {test : Timer → Bool} :
    timer ∈ (t.cancelWhere test).active ↔ timer ∈ t.active ∧ test timer = false := by
  simp [cancelWhere]

/-- **What a move does to the active timers.** It adds the one that it sets, and takes away the one that
it ends. -/
theorem mem_active_move (h : t.Numbered) : timer ∈ (t.move m).active ↔
    t.setBy? m = some timer ∨ (timer ∈ t.active ∧ timer.endedBy m = false) := by
  cases m with
  | once kind delay =>
    simp [move, scheduleOnce, setBy?, Timer.endedBy, or_comm, eq_comm]
  | repeating kind initial period =>
    simp [move, scheduleRepeating, setBy?, Timer.endedBy, or_comm, eq_comm]
  | cancel id =>
    simp [move, cancel, mem_active_cancelWhere, setBy?, Timer.endedBy, eq_comm]
  | cancelKind kind =>
    simp [move, cancelKind, mem_active_cancelWhere, setBy?, Timer.endedBy, eq_comm]
  | cancelAll => simp [move, cancelAll, mem_active_cancelWhere, setBy?, Timer.endedBy]
  | clock now => simp [move, setNow, setBy?, Timer.endedBy]
  | fire => simp [move, Timers.fire, setBy?, Timer.endedBy]
  | take firing =>
    have hnone : ¬ t.setBy? (.take firing) = some timer := Option.some_ne_none timer ∘ Eq.symm
    exact (mem_active_take h).trans (or_iff_right hnone).symm

theorem numbered_move (h : t.Numbered) (m : Move) : (t.move m).Numbered := by
  cases m with
  | once kind delay => exact h.scheduleOnce kind delay
  | repeating kind initial period => exact h.scheduleRepeating kind initial period
  | cancel | cancelKind | cancelAll => exact h.cancelWhere _
  | clock | fire => exact h.of_sublist (.refl _) (Nat.le_refl _)
  | take firing => exact h.accept firing

theorem freshId_of_setBy? (h : t.setBy? m = some timer) :
    timer.id = t.freshId ∧ (t.move m).nextId = t.nextId + 1 := by
  cases m with
  | once | repeating =>
    cases h
    exact ⟨rfl, rfl⟩
  | _ => cases h

/-- Taking a firing sets and stops no alarm. -/
theorem accept_frame (t : Timers) (firing : Firing) :
    (t.accept firing).2.alarms = t.alarms ∧ (t.accept firing).2.nextId = t.nextId := by
  unfold accept
  split
  · exact ⟨rfl, rfl⟩
  · split
    · exact ⟨rfl, rfl⟩
    · dsimp only
      split <;> exact ⟨rfl, rfl⟩

theorem nextId_le_move (t : Timers) (m : Move) : t.nextId ≤ (t.move m).nextId := by
  cases m with
  | once | repeating => exact Nat.le_succ _
  | take firing => exact Nat.le_of_eq (accept_frame t firing).2.symm
  | _ => exact Nat.le_refl _

/-- Every alarm after a move is an earlier one, perhaps set anew, or the one of the timer that was set. -/
theorem alarms_move {alarm : Alarm} (halarm : alarm ∈ (t.move m).alarms) :
    (∃ earlier ∈ t.alarms, earlier.firing = alarm.firing) ∨
      ∃ timer, t.setBy? m = some timer ∧ timer.firing = alarm.firing := by
  have hsame : alarm ∈ t.alarms → ∃ earlier ∈ t.alarms, earlier.firing = alarm.firing :=
    fun hmem => ⟨alarm, hmem, rfl⟩
  cases m with
  | once kind delay =>
    rcases List.mem_append.1 halarm with hmem | hnew
    · exact .inl (hsame hmem)
    · rw [List.mem_singleton.1 hnew]
      exact .inr ⟨_, rfl, rfl⟩
  | repeating kind initial period =>
    change alarm ∈ (if period = 0 then t.alarms else _) at halarm
    split at halarm
    · exact .inl (hsame halarm)
    · rcases List.mem_append.1 halarm with hmem | hnew
      · exact .inl (hsame hmem)
      · rw [List.mem_singleton.1 hnew]
        exact .inr ⟨_, rfl, rfl⟩
  | cancel | cancelKind | cancelAll => exact .inl (hsame (List.mem_of_mem_filter halarm))
  | clock now => exact .inl (hsame halarm)
  | fire =>
    simp only [move, fire, List.partition_eq_filter_filter] at halarm
    rcases List.mem_append.1 halarm with hlater | hdue
    · exact .inl (hsame (List.mem_of_mem_filter hlater))
    · obtain ⟨rung, hrung, hnext⟩ := List.mem_filterMap.1 hdue
      obtain ⟨period, -, rfl⟩ := Option.map_eq_some_iff.1 hnext
      exact .inl ⟨rung, List.mem_of_mem_filter hrung, rfl⟩
  | take firing =>
    rw [move, (accept_frame t firing).1] at halarm
    exact .inl (hsame halarm)

theorem alarm_of_sentBy (hsent : firing ∈ t.sentBy m) : ∃ alarm ∈ t.alarms, alarm.firing = firing := by
  cases m with
  | fire =>
    simp only [sentBy, fire, List.partition_eq_filter_filter] at hsent
    obtain ⟨alarm, hmem, rfl⟩ := List.mem_map.1 hsent
    exact ⟨alarm, List.mem_of_mem_filter hmem, rfl⟩
  | _ => cases hsent

theorem countedBy?_eq_some_iff :
    t.countedBy? m = some firing ↔ m = .take firing ∧ (t.accept firing).1 = true := by
  cases m with
  | take taken =>
    rw [countedBy?, Option.ite_none_right_eq_some]
    constructor
    · rintro ⟨haccepted, heq⟩
      cases heq
      exact ⟨rfl, haccepted⟩
    · rintro ⟨heq, haccepted⟩
      cases heq
      exact ⟨haccepted, rfl⟩
  | _ => exact iff_of_false nofun nofun

/-! ## A whole course -/

namespace Course

variable {c : Course}

/-- What holds of timers and what has come of them so far. -/
structure Sound (c : Course) : Prop where
  numbered : c.timers.Numbered
  ids_nodup : (c.set.map (·.id)).Nodup
  fresh : ∀ timer ∈ c.set, timer.id.raw < c.timers.nextId
  active : ∀ timer ∈ c.timers.active, timer ∈ c.set
  alarms : ∀ alarm ∈ c.timers.alarms, ∃ timer ∈ c.set, timer.firing = alarm.firing
  sent : ∀ firing ∈ c.sent, ∃ timer ∈ c.set, timer.firing = firing
  counted : ∀ firing ∈ c.counted, ∃ timer ∈ c.set, timer.firing = firing
  /-- A timer that fires once has not counted as long as it is active, and once at most in the end. -/
  once : ∀ timer ∈ c.set, timer.repeats = false →
    c.count timer.id ≤ 1 ∧ (timer ∈ c.timers.active → c.count timer.id = 0)

theorem mem_set_move : timer ∈ (c.move m).set ↔ timer ∈ c.set ∨ c.timers.setBy? m = some timer := by
  simp [move]

theorem set_move_of_set (m : Move) (h : ∃ timer ∈ c.set, timer.firing = firing) :
    ∃ timer ∈ (c.move m).set, timer.firing = firing := by
  obtain ⟨timer, hmem, heq⟩ := h
  exact ⟨timer, mem_set_move.2 (.inl hmem), heq⟩

theorem Sound.ids_nodup_move (h : c.Sound) (m : Move) : ((c.move m).set.map (·.id)).Nodup := by
  change ((c.set ++ (c.timers.setBy? m).toList).map (·.id)).Nodup
  cases hset : c.timers.setBy? m with
  | none => simpa using h.ids_nodup
  | some timer =>
    rw [Option.toList_some, List.map_append, List.map_singleton, ← List.concat_eq_append]
    refine h.ids_nodup.concat fun hmem => ?_
    obtain ⟨other, hother, heq⟩ := List.mem_map.1 hmem
    have hfresh := h.fresh other hother
    rw [heq, (freshId_of_setBy? hset).1] at hfresh
    exact Nat.lt_irrefl _ hfresh

theorem Sound.fresh_move (h : c.Sound) (m : Move) :
    ∀ timer ∈ (c.move m).set, timer.id.raw < (c.move m).timers.nextId := by
  intro timer hmem
  rcases mem_set_move.1 hmem with hmem | hset
  · exact Nat.lt_of_lt_of_le (h.fresh timer hmem) (nextId_le_move _ m)
  · obtain ⟨hid, hnext⟩ := freshId_of_setBy? hset
    change timer.id.raw < (c.timers.move m).nextId
    rw [hid, hnext]
    exact Nat.lt_succ_self _

theorem Sound.active_move (h : c.Sound) (m : Move) :
    ∀ timer ∈ (c.move m).timers.active, timer ∈ (c.move m).set := by
  intro timer hmem
  rw [mem_set_move]
  rcases (mem_active_move h.numbered).1 hmem with hset | ⟨hactive, -⟩
  · exact .inr hset
  · exact .inl (h.active timer hactive)

theorem Sound.alarms_move (h : c.Sound) (m : Move) :
    ∀ alarm ∈ (c.move m).timers.alarms, ∃ timer ∈ (c.move m).set, timer.firing = alarm.firing := by
  intro alarm hmem
  rcases Timers.alarms_move hmem with ⟨earlier, hearlier, heq⟩ | ⟨timer, hset, heq⟩
  · exact heq ▸ set_move_of_set m (h.alarms earlier hearlier)
  · exact ⟨timer, mem_set_move.2 (.inr hset), heq⟩

theorem Sound.sent_move (h : c.Sound) (m : Move) :
    ∀ firing ∈ (c.move m).sent, ∃ timer ∈ (c.move m).set, timer.firing = firing := by
  refine List.forall_mem_append.2 ⟨fun firing hmem => set_move_of_set m (h.sent firing hmem), ?_⟩
  intro firing hmem
  obtain ⟨alarm, halarm, rfl⟩ := alarm_of_sentBy hmem
  exact set_move_of_set m (h.alarms alarm halarm)

theorem Sound.counted_move (h : c.Sound) (m : Move) :
    ∀ firing ∈ (c.move m).counted, ∃ timer ∈ (c.move m).set, timer.firing = firing := by
  refine List.forall_mem_append.2
    ⟨fun firing hmem => set_move_of_set m (h.counted firing hmem), ?_⟩
  intro firing hmem
  obtain ⟨-, haccepted⟩ := countedBy?_eq_some_iff.1 (Option.mem_toList.1 hmem)
  obtain ⟨timer, hactive, heq⟩ := (accept_eq_true_iff h.numbered).1 haccepted
  exact set_move_of_set m ⟨timer, h.active timer hactive, heq⟩

/-- A number names one of the timers that were set. -/
theorem Sound.eq_of_id_eq (h : c.Sound) {x y : Timer} (hx : x ∈ c.set) (hy : y ∈ c.set)
    (hid : x.id = y.id) : x = y :=
  List.inj_on_of_nodup_map h.ids_nodup hx hy hid

/-- No firing has counted under a number that is not given out yet. -/
theorem Sound.count_freshId (h : c.Sound) : c.count c.timers.freshId = 0 := by
  refine List.countP_eq_zero.2 fun firing hmem => ?_
  obtain ⟨timer, htimer, rfl⟩ := h.counted firing hmem
  have hne : timer.firing.id ≠ c.timers.freshId := fun heq =>
    Nat.ne_of_lt (h.fresh timer htimer) (congrArg TimerId.raw heq)
  simpa using hne

/-- A timer that was set before is not set again. -/
theorem Sound.active_of_active_move (h : c.Sound) (hset : timer ∈ c.set)
    (hactive : timer ∈ (c.timers.move m).active) :
    timer ∈ c.timers.active ∧ timer.endedBy m = false := by
  refine ((mem_active_move h.numbered).1 hactive).resolve_left fun hagain => ?_
  exact Nat.ne_of_lt (h.fresh timer hset) (congrArg TimerId.raw (freshId_of_setBy? hagain).1)

theorem count_move (c : Course) (m : Move) (id : TimerId) :
    (c.move m).count id = c.count id + (c.timers.countedBy? m).toList.countP (·.id = id) :=
  List.countP_append

/-- A move that takes no firing of a timer leaves its count alone, and one that takes a firing of a timer
that fires once uses the timer up. -/
theorem Sound.count_move_cases (h : c.Sound) (hset : timer ∈ c.set) (honce : timer.repeats = false)
    (m : Move) : (c.move m).count timer.id = c.count timer.id ∨
      (timer ∈ c.timers.active ∧ timer ∉ (c.timers.move m).active ∧
        (c.move m).count timer.id = c.count timer.id + 1) := by
  rw [count_move]
  cases hcounted : c.timers.countedBy? m with
  | none => exact .inl rfl
  | some firing =>
    obtain ⟨rfl, haccepted⟩ := countedBy?_eq_some_iff.1 hcounted
    obtain ⟨taken, htaken, rfl⟩ := (accept_eq_true_iff h.numbered).1 haccepted
    by_cases hsame : taken = timer
    · subst hsame
      refine .inr ⟨htaken, fun hactive => ?_, by simp [Timer.firing]⟩
      have hspared := (h.active_of_active_move hset hactive).2
      simp [Timer.endedBy, honce] at hspared
    · have hid : taken.firing.id ≠ timer.id := fun heq =>
        hsame (h.eq_of_id_eq (h.active taken htaken) hset heq)
      exact .inl (by simp [hid])

theorem Sound.once_move (h : c.Sound) (m : Move) : ∀ timer ∈ (c.move m).set, timer.repeats = false →
    (c.move m).count timer.id ≤ 1 ∧
      (timer ∈ (c.move m).timers.active → (c.move m).count timer.id = 0) := by
  intro timer hmem honce
  rcases mem_set_move.1 hmem with hset | hset
  · obtain ⟨hle, hzero⟩ := h.once timer hset honce
    rcases h.count_move_cases hset honce m with hsame | ⟨hactive, hended, hmore⟩
    · rw [hsame]
      exact ⟨hle, fun hactive => hzero (h.active_of_active_move hset hactive).1⟩
    · rw [hmore]
      exact ⟨Nat.succ_le_succ (Nat.le_of_eq (hzero hactive)), fun hagain => absurd hagain hended⟩
  · have hnone : c.timers.countedBy? m = none := by
      cases m with
      | take firing => cases hset
      | _ => rfl
    rw [count_move, hnone, (freshId_of_setBy? hset).1, h.count_freshId]
    exact ⟨Nat.zero_le _, fun _ => rfl⟩

theorem Sound.move (h : c.Sound) (m : Move) : (c.move m).Sound where
  numbered := numbered_move h.numbered m
  ids_nodup := h.ids_nodup_move m
  fresh := h.fresh_move m
  active := h.active_move m
  alarms := h.alarms_move m
  sent := h.sent_move m
  counted := h.counted_move m
  once := h.once_move m

theorem sound_run (ms : List Move) : (run ms).Sound := by
  induction ms using List.reverseRecOn with
  | nil => exact ⟨.empty, .nil, nofun, nofun, nofun, nofun, nofun, nofun⟩
  | append_singleton ms m ih =>
    rw [run_concat]
    exact ih.move m

theorem set_subset_run (ms later : List Move) (hset : timer ∈ (run ms).set) :
    timer ∈ (run (ms ++ later)).set := by
  induction later using List.reverseRecOn with
  | nil => rwa [List.append_nil]
  | append_singleton later m ih =>
    rw [← List.append_assoc, run_concat]
    exact mem_set_move.2 (.inl ih)

/-- What has ended a timer has ended it for good. -/
theorem not_active_of_ended {before later : List Move} (hset : timer ∈ (run before).set)
    (hended : timer.endedBy m = true) : timer ∉ (run (before ++ m :: later)).timers.active := by
  have happend : before ++ m :: later = before ++ [m] ++ later := by simp
  rw [happend]
  induction later using List.reverseRecOn with
  | nil =>
    rw [List.append_nil, run_concat]
    intro hactive
    have hspared := ((sound_run before).active_of_active_move hset hactive).2
    exact Bool.false_ne_true (hspared.symm.trans hended)
  | append_singleton later x ih =>
    rw [← List.append_assoc, run_concat]
    have hmore := set_subset_run before ([m] ++ later) hset
    rw [← List.append_assoc] at hmore
    intro hactive
    exact ih (by simp) ((sound_run _).active_of_active_move hmore hactive).1

/-- Once a timer was ended, no firing under its number counts. -/
theorem refused_of_ended {before later : List Move} (hset : timer ∈ (run before).set)
    (hended : timer.endedBy m = true) (hid : firing.id = timer.id) :
    ((run (before ++ m :: later)).timers.accept firing).1 = false := by
  have hsound := sound_run (before ++ m :: later)
  rw [← Bool.not_eq_true, accept_eq_true_iff hsound.numbered]
  rintro ⟨other, hactive, rfl⟩
  have hsame := hsound.eq_of_id_eq (hsound.active other hactive)
    (set_subset_run before (m :: later) hset) hid
  exact not_active_of_ended hset hended (hsame ▸ hactive)

end Course

theorem inForce_concat : InForce (ms ++ [m]) timer ↔
    (Course.run ms).timers.setBy? m = some timer ∨ (InForce ms timer ∧ timer.endedBy m = false) :=
  exists_since_concat_iff

/-- The active timers are those in force. -/
theorem mem_active_run : timer ∈ (Course.run ms).timers.active ↔ InForce ms timer := by
  induction ms using List.reverseRecOn generalizing timer with
  | nil => exact iff_of_false List.not_mem_nil fun ⟨before, m, later, heq, _⟩ => by simp at heq
  | append_singleton ms m ih =>
    rw [Course.run_concat, inForce_concat, ← ih]
    exact mem_active_move (Course.sound_run ms).numbered

theorem accept_run_iff : ((Course.run ms).timers.accept firing).1 = true ↔
    ∃ repeats, InForce ms ⟨firing.id, firing.kind, repeats⟩ := by
  rw [accept_eq_true_iff (Course.sound_run ms).numbered]
  constructor
  · rintro ⟨timer, hactive, rfl⟩
    exact ⟨timer.repeats, mem_active_run.1 hactive⟩
  · rintro ⟨repeats, hforce⟩
    exact ⟨_, mem_active_run.2 hforce, rfl⟩

/-- **Cancelled timers never act.** After any moves from no timers at all, numbers are given out once, a
firing counts exactly if its timer is in force, one that fires once counts once at most, and none counts
of what was cancelled, sent before or not. -/
theorem trusty_throughout (ms : List Move) : Trusty ms := by
  have hsound := Course.sound_run ms
  refine ⟨hsound.ids_nodup, fun _ => accept_run_iff, ?_, ?_, ?_, hsound.sent⟩
  · intro timer hset honce
    exact (hsound.once timer hset honce).1
  · rintro before kind later rfl timer hset rfl firing hid
    exact Course.refused_of_ended hset (decide_eq_true rfl) hid
  · rintro before later rfl timer hset firing hid
    exact Course.refused_of_ended hset rfl hid

/-- A timer fires, its kind is cancelled and set again, and only then the firing is taken: it was sent,
and it does not count. -/
example :
    let ms := [.once .hotspotDebounce 0, .fire, .cancelKind .hotspotDebounce,
      .once .hotspotDebounce 0]
    (Course.run ms).sent = [⟨⟨1⟩, .hotspotDebounce⟩] ∧
      ((Course.run ms).timers.accept ⟨⟨1⟩, .hotspotDebounce⟩).1 = false ∧
      ((Course.run ms).timers.accept ⟨⟨2⟩, .hotspotDebounce⟩).1 = true := by
  decide

end Timers

end Softphone
