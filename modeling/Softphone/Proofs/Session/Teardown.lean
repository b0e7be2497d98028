import Softphone.Proofs.Session.Agents
import Softphone.Proofs.Session.Lock
import Softphone.Proofs.Session.Routing

/-!
# The end of a session

A session that ends gives back all that it has taken (`Session.TornDown`), in an order of its own
(`Session.partingEffects`). Nothing but replies follows.
-/

namespace Softphone

variable {σ : Type}

/-- The agent is let go of once that is published, whatever the engine says to it. -/
def Registration.partingEffects (r : Registration) (accepted : Bool) : List Effect :=
  match r.agent with
  | none => []
  | some agent => [.publish (.registrationChanged .cleared), .unregister agent accepted]

namespace Session

variable {s s' s'' : Session σ}

/-- What a session does to the world when it ends, in order. -/
def partingEffects (s : Session σ) (accepted : Bool) : List Effect :=
  (if s.world.lockHeld then [.releaseLock] else []) ++
    s.player.partingEffects ++
    [.cancelVibration] ++
    s.router.waiting.map (.reply · (.isOn false)) ++
    [.abandonFocus] ++
    s.registration.partingEffects accepted

/-- What a session has come to that has given everything back. -/
structure TornDown (s s' : Session σ) : Prop where
  ended : s'.ended = true
  timers : s'.timers.active = []
  /-- The performance lock is free. -/
  lock : s'.world.lockHeld = false
  player : s'.player.active = none
  /-- No switch of the route is pending, and nobody waits for one. -/
  router : s'.router = {}
  agent : s'.registration.agent = none
  /-- Everything was given back in order, and nothing but replies followed. -/
  trace : ∃ accepted later,
    s'.world.trace = s.world.trace ++ (s.partingEffects accepted ++ later) ∧
      ∀ e ∈ later, e.reply?.isSome = true

/-- Whatever passes a session by that has ended leaves it torn down. -/
theorem TornDown.aside (h : s.TornDown s') (haside : s'.Aside s'') : s.TornDown s'' where
  ended := haside.ended.trans h.ended
  timers := haside.active.trans h.timers
  lock := by
    rw [World.lockHeld, haside.lockMoves]
    exact h.lock
  player := by
    rw [haside.player]
    exact h.player
  router := haside.router.trans h.router
  agent := by
    rw [haside.spares.registration]
    exact h.agent
  trace := by
    obtain ⟨accepted, later, htrace, hreplies⟩ := h.trace
    obtain ⟨more, hmore, hreply⟩ := haside.grows.exists_trace
    refine ⟨accepted, later ++ more, ?_, List.forall_mem_append.2 ⟨hreplies, hreply⟩⟩
    rw [hmore, htrace]
    simp only [List.append_assoc]

/-- Giving up the registration concerns nothing else, and leaves no agent. -/
theorem unregister_eq [Engine σ] (s : Session σ) : ∃ accepted registration world,
    s.unregister.2 = { s with registration, world } ∧ registration.agent = none ∧
      world.trace = s.world.trace ++ s.registration.partingEffects accepted := by
  unfold unregister Registration.release Registration.partingEffects
  cases hagent : s.registration.agent with
  | none => exact ⟨false, s.registration, s.world, rfl, hagent, (List.append_nil _).symm⟩
  | some agent =>
    have hpublished : (s.world.publish (.registrationChanged .cleared)).trace =
        s.world.trace ++ [.publish (.registrationChanged .cleared)] := World.trace_moveTo
    refine ⟨(Engine.unregister agent s.world.host).1, _, _, rfl, rfl, World.trace_moveTo.trans ?_⟩
    exact (congrArg (· ++ [_]) hpublished).trans (List.append_assoc _ _ _)

variable [Host σ]

theorem halted_trace (s : Session σ) : s.halted.world.trace =
    s.world.trace ++ s.mobility.lockEffects false ++ s.player.partingEffects ++ [.cancelVibration] ++
      s.router.waiting.map (.reply · (.isOn false)) ++ [.abandonFocus] := by
  -- Stopping is to follow no Wi-Fi.
  have hfreed : (s.mobility.stop s.world).2.trace = s.world.trace ++ s.mobility.lockEffects false :=
    Mobility.followWifi_trace { s.mobility with running := false, pending := false } false s.world
  rw [← hfreed, ← Player.stopAll_trace s.timers.active_cancelAll, ← World.trace_moveTo,
    ← Router.trace_answerAll]
  exact World.trace_moveTo

/-- A session whose lock is kept gives everything back when it ends. -/
theorem LockKept.tornDown_teardown (h : s.LockKept) : s.TornDown s.teardown := by
  have hfreed : s.mobility.lockEffects false = if s.world.lockHeld then [.releaseLock] else [] := by
    rw [h.held, Mobility.lockEffects]
    cases s.mobility.lockHeld <;> rfl
  obtain ⟨hkept, hfree⟩ := h.teardown
  have hlock : s.teardown.world.lockHeld = false := hkept.held.trans hfree
  obtain ⟨accepted, registration, world, heq, hagent, htrace⟩ := unregister_eq s.halted
  rw [teardown_eq, heq] at hlock ⊢
  refine
    { ended := rfl
      timers := active_halted
      lock := hlock
      player := rfl
      router := rfl
      agent := hagent
      trace := ⟨accepted, [], ?_, List.forall_mem_nil _⟩ }
  rw [htrace, halted_trace, hfreed]
  simp only [partingEffects, List.append_assoc, List.append_nil]
  rfl

/-- A turn that ends the session comes to nothing but that, and a reply to whoever asked for it. -/
theorem LockKept.tornDown_turn (h : s.LockKept) {input : Input} (hends : input.ends = true)
    (queued : List Notification) : s.TornDown (s.turn input queued) := by
  have hended : (s.handle input).ended = true := by
    rw [handle_ended, hends, Bool.or_true]
  rw [turn_of_ended hended, taken_of_ends hends]
  exact ends_induction (P := s.TornDown) (fun ticket answer h => h.aside (.reply .refl ticket answer))
    h.tornDown_teardown hends

end Session

end Softphone
