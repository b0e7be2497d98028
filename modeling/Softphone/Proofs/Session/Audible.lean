import Softphone.Proofs.Audio.Ringing
import Softphone.Proofs.Calls.Callers
import Softphone.Proofs.Coordinator.Run

/-!
# What leaves sounds and requests alone

Most of what a session does neither begins nor ends ringing (`Session.SparesRinging`), and neither answers
requests nor touches the route (`Session.SparesRoute`).
-/

namespace Softphone.Session

variable {σ : Type} {s s' s'' : Session σ}

/-- Ringing goes on or not as before, and the same callers wait for an answer. -/
structure SparesRinging (s s' : Session σ) : Prop where
  rings : s'.player.rings = s.player.rings
  timers : s.timers.SetsNone TimerKind.isRinging s'.timers
  calls : s.calls.SameCallers s'.calls
  world : s.world.Grows (·.isRinging = false) s'.world

/-- No request is answered, and the same ones wait for the route. -/
structure SparesRoute (s s' : Session σ) : Prop where
  router : s'.router = s.router
  world : s.world.Grows (·.reply? = none) s'.world

/-- Ringing, the route and those who wait for an answer are left alone. -/
structure SparesAudio (s s' : Session σ) : Prop where
  rings : s'.player.rings = s.player.rings
  router : s'.router = s.router
  timers : s.timers.SetsNone TimerKind.isRinging s'.timers
  calls : s.calls.SameCallers s'.calls
  world : s.world.Grows Effect.IsSilent s'.world

theorem SparesRinging.refl : s.SparesRinging s := ⟨rfl, .refl, .refl, .refl⟩

theorem SparesRinging.trans (h : s.SparesRinging s') (h' : s'.SparesRinging s'') :
    s.SparesRinging s'' :=
  ⟨h'.rings.trans h.rings, h.timers.trans h'.timers, h.calls.trans h'.calls, h.world.trans h'.world⟩

theorem SparesRinging.reply (h : s.SparesRinging s') (ticket : Ticket) (answer : Reply) :
    s.SparesRinging (s'.reply ticket answer) :=
  h.trans ⟨rfl, .refl, .refl, .note .refl rfl⟩

theorem SparesRoute.refl : s.SparesRoute s := ⟨rfl, .refl⟩

theorem SparesRoute.trans (h : s.SparesRoute s') (h' : s'.SparesRoute s'') : s.SparesRoute s'' :=
  ⟨h'.router.trans h.router, h.world.trans h'.world⟩

namespace SparesAudio

theorem ringing (h : s.SparesAudio s') : s.SparesRinging s' :=
  ⟨h.rings, h.timers, h.calls, h.world.mono fun _ he => he.1⟩

theorem route (h : s.SparesAudio s') : s.SparesRoute s' :=
  ⟨h.router, h.world.mono fun _ he => he.2⟩

/-- The player and the calls are the same. -/
theorem of_grows (hplayer : s'.player = s.player) (hrouter : s'.router = s.router)
    (htimers : s'.timers = s.timers) (hcalls : s'.calls = s.calls)
    (h : s.world.Grows Effect.IsSilent s'.world) : s.SparesAudio s' :=
  ⟨congrArg Player.rings hplayer, hrouter, htimers ▸ .refl, hcalls ▸ .refl, h⟩

theorem refl : s.SparesAudio s := .of_grows rfl rfl rfl rfl .refl

theorem trans (h : s.SparesAudio s') (h' : s'.SparesAudio s'') : s.SparesAudio s'' where
  rings := h'.rings.trans h.rings
  router := h'.router.trans h.router
  timers := h.timers.trans h'.timers
  calls := h.calls.trans h'.calls
  world := h.world.trans h'.world

end SparesAudio

theorem Aside.sparesRinging (h : s.Aside s') : s.SparesRinging s' := by
  induction h with
  | refl => exact .refl
  | reply _ ticket answer ih => exact ih.reply ticket answer
  | surroundings _ host ih => exact ih.trans ⟨rfl, .refl, .refl, .within .refl host⟩
  | setNow _ now ih => exact ih.trans ⟨rfl, .setNow _ now, .refl, .refl⟩
  | fire _ ih => exact ih.trans ⟨rfl, .fire _, .refl, .refl⟩

end Softphone.Session
