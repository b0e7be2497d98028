import Softphone.Proofs.Network.Mirror
import Softphone.Proofs.Network.Unreset

/-!
# What the transport is reset for

A reset should come of something: the engine's addresses have changed since the last one, or another network
is active than a pass saw before. Every reset does, but for those of one kind: a hotspot with known addresses
went down, the engine let go of none of them, and the pass after it finds nothing else to do
(`Site.resetsForCause_iff`).
-/

namespace Softphone

/-! ## Changes in a trace -/

theorem Effect.isAcceptedChange_of_isReset {e : Effect} (h : e.isReset = true) :
    e.isAcceptedChange = false := by
  cases e <;> first | rfl | cases h

/-- The engine agreed to a change of its addresses, and the transport was not reset after it. -/
def ChangedSinceReset (es : List Effect) : Prop :=
  ∃ before e later, es = before ++ e :: later ∧ e.isAcceptedChange = true ∧
    ∀ e' ∈ later, e'.isReset = false

theorem changedSinceReset_concat_iff {es : List Effect} {e : Effect} :
    ChangedSinceReset (es ++ [e]) ↔
      e.isAcceptedChange = true ∨ ChangedSinceReset es ∧ e.isReset = false :=
  exists_since_concat_iff

theorem not_changedSinceReset_nil : ¬ ChangedSinceReset [] := by
  rintro ⟨before, e, later, heq, -⟩
  cases before <;> cases heq

theorem changedSinceReset_iff (es : List Effect) : ChangedSinceReset es ↔
    (es.reverse.takeWhile (!·.isReset)).any Effect.isAcceptedChange = true := by
  induction es using List.reverseRecOn with
  | nil => exact iff_of_false not_changedSinceReset_nil Bool.false_ne_true
  | append_singleton es e ih =>
    rw [changedSinceReset_concat_iff, ih, List.reverse_append, List.reverse_singleton,
      List.singleton_append, List.takeWhile_cons]
    cases hreset : e.isReset with
    | true => simp [Effect.isAcceptedChange_of_isReset hreset]
    | false => simp

instance (es : List Effect) : Decidable (ChangedSinceReset es) :=
  decidable_of_iff' _ (changedSinceReset_iff es)

/-- Effects without a reset bring a change, or leave one standing. -/
theorem changedSinceReset_append_iff {es more : List Effect} (h : ∀ e ∈ more, e.isReset = false) :
    ChangedSinceReset (es ++ more) ↔
      ChangedSinceReset es ∨ ∃ e ∈ more, e.isAcceptedChange = true := by
  induction more using List.reverseRecOn with
  | nil => simp
  | append_singleton more e ih =>
    obtain ⟨hmore, he⟩ := List.forall_mem_append.1 h
    rw [← List.append_assoc, changedSinceReset_concat_iff, ih hmore,
      and_iff_left (he e (List.mem_singleton_self e))]
    simp only [List.mem_append, List.mem_singleton, or_and_right, exists_or, exists_eq_left]
    exact or_comm.trans or_assoc

theorem World.unreset_iff {σ : Type} {w : World σ} : w.unreset = true ↔ ChangedSinceReset w.trace := by
  rw [changedSinceReset_iff, World.trace, List.reverse_reverse]
  rfl

namespace Mobility

variable {σ : Type} [Engine σ] [Connectivity σ] {m : Mobility} {w : World σ}

/-! ## Resets of a pass -/

/-- The effects of a pass before it resets the transport, if it does. -/
def changeEffects (m : Mobility) (w : World σ) : List Effect :=
  m.resolverEffects w.platform w ++ removalEffects (m.steps (m.surveyed w)).removed (m.unremoved w) ++
    additionEffects (m.steps (m.surveyed w)).added (m.unadded w)

theorem passEffects_eq : m.passEffects w = m.changeEffects w ++ m.resetEffects w ++
    m.lockEffects (m.wifiInUse w) := by
  simp only [passEffects, changeEffects, List.append_assoc]

theorem additions_trace : (m.additions w).2.trace = w.trace ++ m.changeEffects w := by
  have htrace : (m.additions w).2.trace = (m.removals w).2.trace ++
      additionEffects (m.steps (m.surveyed w)).added (m.unadded w) :=
    addAll_trace (nodup_added m (m.surveyed w))
  rw [htrace, removals_trace, changeEffects, List.append_assoc, List.append_assoc, List.append_assoc]

theorem isReset_of_mem_changeEffects : ∀ e ∈ m.changeEffects w, e.isReset = false := by
  simp only [changeEffects, List.forall_mem_append]
  exact ⟨⟨forall_mem_resolverEffects fun _ _ => rfl, forall_mem_callEffects fun _ _ => rfl⟩,
    forall_mem_callEffects fun _ _ => rfl⟩

/-- All changes of a pass come before its reset. -/
theorem exists_change_iff : (∃ e ∈ m.changeEffects w, e.isAcceptedChange = true) ↔
    ∃ e ∈ m.passEffects w, e.isAcceptedChange = true := by
  have hreset : ∀ e ∈ m.resetEffects w, e.isAcceptedChange = false := forall_mem_resetEffects fun _ => rfl
  have hlock : ∀ e ∈ m.lockEffects (m.wifiInUse w),
      e.isAcceptedChange = false := forall_mem_lockEffects rfl rfl
  simp only [passEffects_eq, List.mem_append]
  constructor
  · rintro ⟨e, he, haccepted⟩
    exact ⟨e, .inl (.inl he), haccepted⟩
  · rintro ⟨e, (he | he) | he, haccepted⟩
    · exact ⟨e, he, haccepted⟩
    · rw [hreset e he] at haccepted
      cases haccepted
    · rw [hlock e he] at haccepted
      cases haccepted

/-- When a pass comes to its reset, the changes since the last reset are those from before and its own. -/
theorem unreset_additions_iff : (m.additions w).2.unreset = true ↔
    ChangedSinceReset w.trace ∨ ∃ e ∈ m.passEffects w, e.isAcceptedChange = true := by
  rw [World.unreset_iff, additions_trace, changedSinceReset_append_iff isReset_of_mem_changeEffects,
    exists_change_iff]

/-- **What a pass resets the transport for.** Its reset comes of nothing exactly if the mark alone calls for
it: neither before the pass nor in it the engine agreed to a change since the last reset, and the active
network is the same. -/
theorem eachAfter_passEffects_iff {cause : Prop} (h : cause ↔ (m.surveyed w).active ≠ m.snapshot.active) :
    EachAfter (fun before e => e.isReset = true → ChangedSinceReset (w.trace ++ before) ∨ cause)
        (m.passEffects w) ↔
      (m.dirty = true → (m.additions w).2.unreset = true ∨ cause) := by
  have hneeds : EachAfter (fun before e => e.isReset = true →
      ChangedSinceReset (w.trace ++ before) ∨ cause) (m.changeEffects w ++ m.resetEffects w) ↔
        (m.resets w = true → (m.additions w).2.unreset = true ∨ cause) := by
    have hbefore : EachAfter (fun before e => e.isReset = true →
        ChangedSinceReset (w.trace ++ before) ∨ cause) (m.changeEffects w) := by
      rw [← List.nil_append (m.changeEffects w), eachAfter_append_iff]
      · exact .nil
      · intro _ e he hreset
        rw [isReset_of_mem_changeEffects e he] at hreset
        cases hreset
    rw [World.unreset_iff, additions_trace, resetEffects]
    split
    · rename_i hresets
      rw [eachAfter_concat_iff, and_iff_right hbefore]
      exact ⟨fun hneeds _ => hneeds rfl, fun hneeds _ => hneeds hresets⟩
    · rename_i hkept
      rw [List.append_nil]
      exact iff_of_true hbefore fun hresets => absurd hresets hkept
  rw [passEffects_eq, eachAfter_append_iff, hneeds]
  · constructor
    · intro hneeds hdirty
      exact hneeds (by rw [resets, hdirty, Bool.or_true])
    · intro hneeds hresets
      simp only [resets, Bool.or_eq_true, decide_eq_true_eq] at hresets
      rcases hresets with (hchanged | hactive) | hdirty
      · exact .inl (unreset_additions.2 (.inl hchanged))
      · exact .inr (h.2 hactive)
      · exact hneeds hdirty
  · intro _ e he hreset
    rw [forall_mem_lockEffects (q := (·.isReset = false)) rfl rfl e he] at hreset
    cases hreset

theorem active_onHotspotDebounce (m : Mobility) (t : Timers) (w : World σ) :
    (m.onHotspotDebounce t w).1.snapshot.active = m.snapshot.active := by
  have hadd : ∀ (found : List (Address × String)) (m : Mobility) (w : World σ),
      (m.addHotspot found w).2.1.snapshot.active = m.snapshot.active := by
    intro found
    induction found with
    | nil => exact fun _ _ => rfl
    | cons e rest ih =>
      intro m w
      refine (ih _ _).trans ?_
      split <;> rfl
  cases hon : m.hotspotOn with
  | false => rw [onHotspotDebounce_off hon]
  | true =>
    obtain ⟨_, _, -, heq⟩ := onHotspotDebounce_on (w := w) (t := t) hon
    rw [heq]
    exact hadd _ _ _

/-! ## Tasks -/

/-- What a mobility can be asked to do: any of its moves, and that it gives the lock back. -/
inductive Task
  | move (move : Move)
  | dropLock
  deriving DecidableEq

namespace Site

/-- Does what was asked once engine and platform have come to a new state. -/
def perform (s : Site σ) (t : σ × Task) : Site σ :=
  match t.2 with
  | .move move => s.step (t.1, move)
  | .dropLock =>
    let (mobility, world) := s.mobility.dropLock (s.world.within t.1)
    { s with mobility, world }

/-- Does what was asked in order. -/
def performAll (s : Site σ) (ts : List (σ × Task)) : Site σ := ts.foldl perform s

/-- Some tasks, each with the site that it comes to when they are done in order. -/
def tasksAlong (s : Site σ) : List (σ × Task) → List (Site σ × (σ × Task))
  | [] => []
  | t :: ts => (s, t) :: (s.perform t).tasksAlong ts

/-- The network that a pass sees to be active. -/
def seesActive (s : Site σ) (host : σ) : Option NetworkId :=
  (s.mobility.surveyed (s.world.within host)).active

/-- The network that the last pass of some tasks saw to be active. -/
def lastActive (s : Site σ) (ts : List (σ × Task)) : Option NetworkId :=
  (s.tasksAlong ts).foldl
    (fun seen x => if x.2.2 = .move .pass then x.1.seesActive x.2.1 else seen) none

/-- What a task does to the world. -/
def effectsOf (s : Site σ) (t : σ × Task) : List Effect := (s.perform t).world.since s.world

/-- Every reset of the transport that comes of a task comes of something: since the last reset the engine
agreed to a change of its addresses, or the task is a pass and another network is active than was seen. -/
def ResetsForCause (s : Site σ) (seen : Option NetworkId) (t : σ × Task) : Prop :=
  EachAfter (fun before e => e.isReset = true → ChangedSinceReset (s.world.trace ++ before) ∨
    t.2 = .move .pass ∧ s.seesActive t.1 ≠ seen) (s.effectsOf t)

/-- The hotspot goes down while addresses of it are known. -/
def Withdraws (s : Site σ) (t : σ × Task) : Prop :=
  t.2 = .move (.hotspotChanged false) ∧ s.mobility.hotspotOn = true ∧
    s.mobility.hotspotAddresses.addresses ≠ []

/-- The hotspot went down while addresses of it were known, and the transport was not reset after it. -/
def WithdrawnSinceReset (past : List (Site σ × (σ × Task))) : Prop :=
  ∃ before x later, past = before ++ x :: later ∧ x.1.Withdraws x.2 ∧
    ∀ y ∈ later, ∀ e ∈ y.1.effectsOf y.2, e.isReset = false

/-- A pass resets the transport for nothing: since the last reset the engine agreed to no change, and neither
does it in the pass, the active network is the same, and only a hotspot went down whose addresses the engine
would not let go of. -/
structure ResetsForNothing (s : Site σ) (ts : List (σ × Task)) (t : σ × Task) : Prop where
  pass : t.2 = .move .pass
  active : (s.performAll ts).seesActive t.1 = s.lastActive ts
  unchanged : ¬ ChangedSinceReset (s.performAll ts).world.trace
  refused : ∀ e ∈ (s.performAll ts).effectsOf t, e.isAcceptedChange = false
  withdrawn : WithdrawnSinceReset (s.tasksAlong ts)

variable {s : Site σ} {t : σ × Task} {past : List (Site σ × (σ × Task))}

theorem withdrawnSinceReset_concat_iff : WithdrawnSinceReset (past ++ [(s, t)]) ↔
    s.Withdraws t ∨ WithdrawnSinceReset past ∧ ∀ e ∈ s.effectsOf t, e.isReset = false :=
  exists_since_concat_iff

theorem tasksAlong_concat (s : Site σ) (ts : List (σ × Task)) (t : σ × Task) :
    s.tasksAlong (ts ++ [t]) = s.tasksAlong ts ++ [(s.performAll ts, t)] := by
  induction ts generalizing s with
  | nil => rfl
  | cons u ts ih => exact congrArg ((s, u) :: ·) (ih (s.perform u))

theorem performAll_concat (s : Site σ) (ts : List (σ × Task)) (t : σ × Task) :
    s.performAll (ts ++ [t]) = (s.performAll ts).perform t := List.foldl_append

theorem lastActive_concat (s : Site σ) (ts : List (σ × Task)) (t : σ × Task) :
    s.lastActive (ts ++ [t]) =
      if t.2 = .move .pass then (s.performAll ts).seesActive t.1 else s.lastActive ts := by
  rw [lastActive, tasksAlong_concat, List.foldl_append]
  rfl

/-! ## What the stored state says of the past -/

/-- The stored state is what the past made of it: the active network is the one that the last pass saw, and the
mark stands for what was changed or withdrawn since the last reset. -/
structure Recalls (s : Site σ) (seen : Option NetworkId) (past : List (Site σ × (σ × Task))) : Prop where
  active : s.mobility.snapshot.active = seen
  dirty : s.mobility.dirty = true ↔ s.world.unreset = true ∨ WithdrawnSinceReset past

/-- What a task that is no pass does. The mark is set where known addresses of a hotspot go, and where the
engine takes an address. -/
structure Outside (s : Site σ) (t : σ × Task) : Prop where
  active : (s.perform t).mobility.snapshot.active = s.mobility.snapshot.active
  world : s.world.Grows (·.isReset = false) (s.perform t).world
  mark : (s.Withdraws t ∧ (s.perform t).mobility.dirty = true) ∨
    ¬ s.Withdraws t ∧ ∃ taken, (s.perform t).mobility.dirty = (taken || s.mobility.dirty) ∧
      (s.perform t).world.unreset = (taken || s.world.unreset)

theorem Outside.of_kept {m : Mobility} (hspares : t.2 ≠ .move (.hotspotChanged false))
    (hmobility : (s.perform t).mobility = m) (hactive : m.snapshot.active = s.mobility.snapshot.active)
    (hdirty : m.dirty = s.mobility.dirty)
    (hworld : s.world.Grows (fun e => e.isReset = false ∧ e.isAcceptedChange = false)
      (s.perform t).world) : s.Outside t where
  active := by rw [hmobility, hactive]
  world := hworld.mono fun _ => And.left
  mark := by
    refine .inr ⟨fun hwithdraws => hspares hwithdraws.1, false, ?_, ?_⟩
    · rw [hmobility, hdirty, Bool.false_or]
    · rw [World.unreset_of_unchanged hworld, Bool.false_or]

theorem outside_hotspotChanged (host : σ) (enabled : Bool) :
    s.Outside (host, .move (.hotspotChanged enabled)) := by
  have hwithdraws : s.Withdraws (host, .move (.hotspotChanged enabled)) ↔
      s.mobility.withdraws enabled = true := by
    cases enabled <;> simp [Withdraws, withdraws]
  have hdirty := s.mobility.dirty_onHotspotChanged enabled s.timers (s.world.within host)
  have hunreset := s.mobility.unreset_onHotspotChanged enabled s.timers (s.world.within host)
  refine ⟨?_, .trans (.within .refl host) (grows_onHotspotChanged _ _ (fun _ _ => rfl) _ _), ?_⟩
  · rcases s.mobility.onHotspotChanged_cases enabled s.timers (s.world.within host) with
      ⟨-, heq⟩ | ⟨-, -, heq⟩ | ⟨-, -, _, _, _, heq⟩
    all_goals exact congrArg (·.1.snapshot.active) heq
  · rw [hwithdraws]
    cases hgoes : s.mobility.withdraws enabled with
    | true =>
      rw [hgoes, Bool.or_true] at hdirty
      exact .inl ⟨rfl, hdirty⟩
    | false =>
      rw [hgoes, Bool.or_false] at hdirty
      refine .inr ⟨Bool.false_ne_true, false, hdirty, Bool.eq_iff_iff.2 (hunreset.trans ?_)⟩
      rw [hgoes, Bool.false_or, or_iff_right fun h => Bool.false_ne_true h.1]
      rfl

theorem outside_hotspotDebounce (host : σ) : s.Outside (host, .move .hotspotDebounce) where
  active := by
    have hactive := active_onHotspotDebounce s.mobility s.timers (s.world.within host)
    exact hactive
  world := .trans (.within .refl host) (grows_onHotspotDebounce _ _ (fun _ _ _ => rfl) _)
  mark := .inr ⟨nofun, s.mobility.dirty_onHotspotDebounce s.timers (s.world.within host)⟩

/-- All that is asked, but for a pass, happens outside passes. -/
theorem outside_perform (s : Site σ) (h : t.2 ≠ .move .pass) : s.Outside t := by
  obtain ⟨host, task⟩ := t
  have hhere : s.world.Grows (fun e => e.isReset = false ∧ e.isAcceptedChange = false)
      (s.world.within host) := .within .refl host
  cases task with
  | dropLock =>
    have hmobility := dropLock_mobility (m := s.mobility) (w := s.world.within host)
    exact .of_kept nofun hmobility rfl rfl
      (hhere.trans (grows_dropLock _ _ ⟨rfl, rfl⟩))
  | move move =>
    cases move with
    | pass => exact absurd rfl h
    | start =>
      obtain ⟨_, hmobility⟩ := start_mobility (m := s.mobility) (w := s.world.within host)
      exact .of_kept nofun hmobility rfl rfl
        (hhere.trans (grows_start _ _ fun _ _ => ⟨rfl, rfl⟩))
    | stop =>
      have hmobility := stop_mobility (m := s.mobility) (w := s.world.within host)
      exact .of_kept nofun hmobility rfl rfl
        (hhere.trans (grows_stop _ _ ⟨rfl, rfl⟩))
    | observe change =>
      obtain ⟨_, _, hmobility⟩ := s.mobility.observe_mobility change
      exact .of_kept nofun hmobility rfl rfl hhere
    | request | takePending => exact .of_kept nofun rfl rfl rfl hhere
    | hotspotChanged enabled => exact outside_hotspotChanged host enabled
    | hotspotDebounce => exact outside_hotspotDebounce host

theorem effectsOf_pass (s : Site σ) (host : σ) :
    s.effectsOf (host, .move .pass) = s.mobility.passEffects (s.world.within host) :=
  World.since_eq (reconcile_trace _ _)

theorem Recalls.pass {seen : Option NetworkId} (h : s.Recalls seen past) (host : σ) :
    (s.perform (host, .move .pass)).Recalls (s.seesActive host)
      (past ++ [(s, (host, .move .pass))]) := by
  have hmobility : (s.perform (host, .move .pass)).mobility =
      (s.mobility.reconcile (s.world.within host)).2.1 := rfl
  have hmarked : s.mobility.Marked (s.world.within host) := fun hunreset => h.dirty.2 (.inl hunreset)
  have hclean : (s.perform (host, .move .pass)).world.unreset = false := hmarked.reconcile
  refine ⟨?_, ?_⟩
  · rw [hmobility, reconcile_mobility]
    rfl
  · rw [hmobility, reconcile_mobility, hclean, withdrawnSinceReset_concat_iff]
    refine iff_of_false Bool.false_ne_true ?_
    rintro (hunreset | ⟨hwithdraws, -⟩ | ⟨hwithdrawn, hkept⟩)
    · cases hunreset
    · cases hwithdraws
    -- What was withdrawn is marked, so the pass resets the transport.
    · obtain ⟨accepted, hreset⟩ := reset_mem_passEffects (w := s.world.within host)
        (h.dirty.2 (.inr hwithdrawn))
      rw [effectsOf_pass] at hkept
      cases hkept _ hreset

theorem Recalls.outside {seen : Option NetworkId} (h : s.Recalls seen past) (hkeeps : s.Outside t) :
    (s.perform t).Recalls seen (past ++ [(s, t)]) := by
  refine ⟨hkeeps.active.trans h.active, ?_⟩
  have hspares : ∀ e ∈ s.effectsOf t, e.isReset = false := fun _ he => hkeeps.world.of_mem_since he
  rw [withdrawnSinceReset_concat_iff, and_iff_left hspares]
  rcases hkeeps.mark with ⟨hwithdraws, hdirty⟩ | ⟨hstays, taken, hdirty, hunreset⟩
  · exact iff_of_true hdirty (.inr (.inl hwithdraws))
  · rw [hdirty, hunreset, Bool.or_eq_true, Bool.or_eq_true, h.dirty, or_iff_right hstays, or_assoc]

/-- **What the stored state says of the past.** -/
theorem recalls_performAll (settings : NetworkSettings) (host : σ) (ts : List (σ × Task)) :
    ((new settings host).performAll ts).Recalls ((new settings host).lastActive ts)
      ((new settings host).tasksAlong ts) := by
  induction ts using List.reverseRecOn with
  | nil =>
    refine ⟨rfl, iff_of_false Bool.false_ne_true ?_⟩
    rintro (hunreset | ⟨before, x, later, heq, -⟩)
    · cases hunreset
    · cases before <;> cases heq
  | append_singleton ts t ih =>
    rw [performAll_concat, lastActive_concat, tasksAlong_concat]
    obtain ⟨now, task⟩ := t
    split
    · rename_i hpass
      obtain rfl : task = .move .pass := hpass
      exact ih.pass now
    · rename_i hpass
      exact ih.outside (outside_perform _ hpass)

/-- What a pass resets the transport for, in the words of the past. -/
theorem Recalls.resetsForCause_pass_iff {seen : Option NetworkId} (h : s.Recalls seen past) (host : σ) :
    s.ResetsForCause seen (host, .move .pass) ↔
      (WithdrawnSinceReset past → ChangedSinceReset s.world.trace ∨
        (∃ e ∈ s.effectsOf (host, .move .pass), e.isAcceptedChange = true) ∨
        s.seesActive host ≠ seen) := by
  have hactive : (Task.move .pass = .move .pass ∧ s.seesActive host ≠ seen) ↔
      s.seesActive host ≠ s.mobility.snapshot.active := by
    rw [h.active, and_iff_right rfl]
  have hcause := eachAfter_passEffects_iff (w := s.world.within host) hactive
  rw [ResetsForCause, effectsOf_pass]
  refine hcause.trans ?_
  rw [unreset_additions_iff, h.dirty, World.unreset_iff, and_iff_right rfl, or_assoc]
  exact or_imp.trans (and_iff_right fun hchanged => .inl hchanged)

/-- **What the transport is reset for.** In any run of a mobility, with any platform and whatever the engine
refuses, all resets of a task come of a change that the engine agreed to since the last one, or of another
active network, exactly if it is no pass that resets for nothing. -/
theorem resetsForCause_iff (settings : NetworkSettings) (host : σ) (ts : List (σ × Task))
    (t : σ × Task) :
    ((new settings host).performAll ts).ResetsForCause ((new settings host).lastActive ts) t ↔
      ¬ (new settings host).ResetsForNothing ts t := by
  by_cases hpass : t.2 = .move .pass
  · obtain ⟨now, task⟩ := t
    obtain rfl : task = .move .pass := hpass
    rw [(recalls_performAll settings host ts).resetsForCause_pass_iff now]
    constructor
    · rintro hcause ⟨-, hactive, hunchanged, hrefused, hwithdrawn⟩
      rcases hcause hwithdrawn with hchanged | ⟨e, he, haccepted⟩ | hother
      · exact hunchanged hchanged
      · rw [hrefused e he] at haccepted
        cases haccepted
      · exact hother hactive
    · intro hnothing hwithdrawn
      by_contra hvain
      simp only [not_or, not_exists, not_and, Bool.not_eq_true, Ne, not_not] at hvain
      obtain ⟨hunchanged, hrefused, hactive⟩ := hvain
      exact hnothing ⟨rfl, hactive, hunchanged, hrefused, hwithdrawn⟩
  · refine iff_of_true (fun before e later heq hreset => ?_) fun hnothing => hpass hnothing.pass
    have hmem : e ∈ ((new settings host).performAll ts).effectsOf t := by
      rw [heq]
      exact List.mem_append_right _ List.mem_cons_self
    rw [(outside_perform _ hpass).world.of_mem_since hmem] at hreset
    cases hreset

/-- A hotspot whose address is in use goes down, the engine refuses to let go of the address, and a pass
follows. -/
def refusedHotspotPass : List (Bench × Task) := [
  (hotspotBench [], .move .start),
  (hotspotBench [], .move .pass),
  (hotspotBench [.v4 0xC0A82B01], .move (.hotspotChanged false))]

/-- The pass resets the transport although nothing has changed. -/
theorem refusedHotspotPass_resets_for_nothing :
    ((new {} (hotspotBench [])).performAll refusedHotspotPass).effectsOf
        (hotspotBench [.v4 0xC0A82B01], .move .pass) = [.resetTransport true true true] ∧
      ¬ ((new {} (hotspotBench [])).performAll refusedHotspotPass).ResetsForCause
        ((new {} (hotspotBench [])).lastActive refusedHotspotPass)
        (hotspotBench [.v4 0xC0A82B01], .move .pass) := by
  have hresets : ((new {} (hotspotBench [])).performAll refusedHotspotPass).effectsOf
      (hotspotBench [.v4 0xC0A82B01], .move .pass) = [.resetTransport true true true] := by decide
  refine ⟨hresets, fun hcause => ?_⟩
  have hchanged := hcause [] (.resetTransport true true true) [] hresets rfl
  revert hchanged
  decide

end Site

end Mobility

end Softphone
