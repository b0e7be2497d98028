import Softphone.Proofs.Audio.Standing

/-!
# Route and mode

Where the speaker needs normal mode, route and mode stay coupled through everything that a router can be asked
for (`coupled_throughout`): the speaker goes with communication mode, a switch waits on the earpiece in normal
mode, and once something was switched there is nothing else but the earpiece in normal mode.
-/

namespace Softphone.Router

/-! ## Settled standings -/

namespace Standing

/-- The speaker goes with communication mode, and a switch waits on the earpiece in normal mode. -/
structure Coupled (p : Standing) : Prop where
  speaker (h : p.route = .speaker) : p.mode = .inCommunication
  waiting (h : p.switching = true) : p.route = .earpiece ∧ p.mode = .normal

/-- On the earpiece, while no switch waits, the mode is normal. -/
def AtRest (p : Standing) : Prop := p.route = .earpiece → p.switching = false → p.mode = .normal

/-- The three standings between which routing goes once a switch was made or begun. -/
inductive Settled : Standing → Prop
  | onSpeaker : Settled ⟨.speaker, .inCommunication, false⟩
  | waiting : Settled ⟨.earpiece, .normal, true⟩
  | onEarpiece : Settled ⟨.earpiece, .normal, false⟩

variable {p : Standing}

theorem Settled.coupled (h : p.Settled) : p.Coupled := by
  cases h with
  | onSpeaker => exact ⟨fun _ => rfl, nofun⟩
  | waiting => exact ⟨nofun, fun _ => ⟨rfl, rfl⟩⟩
  | onEarpiece => exact ⟨nofun, nofun⟩

theorem Settled.atRest (h : p.Settled) : p.AtRest := by
  cases h with
  | onSpeaker => exact nofun
  | waiting => exact fun _ => nofun
  | onEarpiece => exact fun _ _ => rfl

theorem Settled.request (h : p.Settled) (speaker : Bool) : (p.request true speaker).Settled := by
  cases h with
  | onSpeaker =>
    cases speaker with
    | false => exact .onEarpiece
    | true => exact .onSpeaker
  | waiting =>
    cases speaker with
    | false => exact .onEarpiece
    | true => exact .waiting
  | onEarpiece =>
    cases speaker with
    | false => exact .onEarpiece
    | true => exact .onSpeaker

theorem Settled.after (h : p.Settled) (m : Move) : (p.after true m).Settled := by
  cases m with
  | request speaker ticket => exact h.request speaker
  | toggle ticket => exact h.request _
  | cancel =>
    cases h with
    | onSpeaker => exact .onSpeaker
    | waiting | onEarpiece => exact .onEarpiece
  | modeChanged mode =>
    cases h with
    | onSpeaker => exact .onSpeaker
    | onEarpiece => exact .onEarpiece
    | waiting =>
      cases mode with
      | normal => exact .onSpeaker
      | inCommunication => exact .waiting

/-- On the earpiece, with no switch that waits, a request for the speaker settles routing. -/
theorem settled_request (mode : AudioMode) : (request true true ⟨.earpiece, mode, false⟩).Settled := by
  cases mode with
  | normal => exact .onSpeaker
  | inCommunication => exact .waiting

end Standing

/-! ## Moves that switch -/

variable {σ : Type} [AudioDevice σ] {s : Router × World σ} {m : Move} {ms : List Move}

/-- A move has a route chosen, or has the router wait for normal mode. -/
def Switches (s : Router × World σ) (m : Move) : Prop :=
  (∃ route granted, .applyRoute route granted ∈ (move s m).2.since s.2) ∨
    (s.1.switching = false ∧ (move s m).1.switching = true)

/-- Some move of a run has switched, or has begun to. -/
def SwitchedDuring (s : Router × World σ) (ms : List Move) : Prop :=
  ∃ before m later, ms = before ++ m :: later ∧ Switches (run s before) m

theorem not_switches (h : s.2.Grows (fun e => ∀ route granted, e ≠ .applyRoute route granted) (move s m).2)
    (hidle : (move s m).1.switching = false) : ¬Switches s m := by
  rintro (⟨route, granted, hchosen⟩ | ⟨-, hwaits⟩)
  · exact h.of_mem_since hchosen route granted rfl
  · exact Bool.false_ne_true (hidle.symm.trans hwaits)

theorem switchedDuring_concat_iff :
    SwitchedDuring s (ms ++ [m]) ↔ SwitchedDuring s ms ∨ Switches (run s ms) m := by
  constructor
  · rintro ⟨before, m', later, heq, hswitches⟩
    rcases concat_eq_append_cons_iff.1 heq with ⟨rfl, rfl, -⟩ | ⟨earlier, -, hms⟩
    · exact .inr hswitches
    · exact .inl ⟨before, m', earlier, hms, hswitches⟩
  · rintro (⟨before, m', later, rfl, hswitches⟩ | hswitches)
    · exact ⟨before, m', later ++ [m], by simp, hswitches⟩
    · exact ⟨ms, m, [], rfl, hswitches⟩

/-- A request for the route in force is answered, and nothing else is done. -/
theorem request_of_current {r : Router} {speaker : Bool} {w : World σ} (hidle : r.switching = false)
    (hroute : AudioDevice.currentRoute w.host = target speaker) (ticket : Ticket) :
    r.request speaker ticket w = (r, w.reply ticket (.isOn speaker)) := by
  have hon : w.isSpeakerOn = speaker := by
    unfold World.isSpeakerOn
    rw [hroute]
    cases speaker <;> rfl
  unfold request
  simp only [hidle, hroute, hon, Bool.false_and, Bool.false_eq_true, if_false, if_true, ite_self]

/-! ## Runs on an obliging device -/

variable [RoutesAsGranted σ] {among : σ → Prop} {w : World σ}

/-- On the earpiece, while no switch waits, a move settles routing, or switches nothing. -/
theorem settled_or_not_switches (hdevice : Obliging true among) (hs : among s.2.host)
    (hroute : (standing s).route = .earpiece) (hidle : (standing s).switching = false) (m : Move) :
    (standing (move s m)).Settled ∨ (standing (move s m) = standing s ∧ ¬Switches s m) := by
  have hstanding := (standsAt_move hdevice hs m).2
  have hmode : standing s = ⟨.earpiece, (standing s).mode, false⟩ := by rw [← hroute, ← hidle]
  cases m with
  | request speaker ticket =>
    cases speaker with
    | true =>
      left
      rw [hstanding, hmode]
      exact Standing.settled_request _
    | false =>
      right
      have hanswered : move s (.request false ticket) = (s.1, s.2.reply ticket (.isOn false)) :=
        request_of_current hidle hroute ticket
      refine ⟨?_, not_switches ?_ ?_⟩
      · rw [hanswered]
        rfl
      · rw [hanswered]
        exact .note .refl nofun
      · rw [hanswered]
        exact hidle
  | toggle ticket =>
    left
    rw [hstanding, hmode]
    exact Standing.settled_request _
  | cancel =>
    right
    refine ⟨?_, not_switches ?_ rfl⟩
    · rw [hstanding, hmode]
      rfl
    · refine .of_trace (trace_answerAll false s.1.waiting s.2) fun e he => ?_
      obtain ⟨ticket, -, rfl⟩ := List.mem_map.1 he
      exact nofun
  | modeChanged mode =>
    right
    have hsame : move s (.modeChanged mode) = s := onModeChanged_of_idle (.inl hidle) s.2
    refine ⟨congrArg standing hsame, not_switches ?_ ?_⟩
    · rw [hsame]
      exact .refl
    · rw [hsame]
      exact hidle

/-- Along a run that begins on the earpiece, while no switch waits, routing is settled once it has switched. -/
theorem settled_or_not_switchedDuring (hdevice : Obliging true among) (hs : among s.2.host)
    (hroute : (standing s).route = .earpiece) (hidle : (standing s).switching = false) (ms : List Move) :
    (standing (run s ms)).Settled ∨ (standing (run s ms) = standing s ∧ ¬SwitchedDuring s ms) := by
  induction ms using List.reverseRecOn with
  | nil =>
    refine .inr ⟨rfl, ?_⟩
    rintro ⟨before, m, later, heq, -⟩
    cases before <;> cases heq
  | append_singleton ms m ih =>
    have hamong := (standsAt_run hdevice hs ms).1
    have hnext : run s (ms ++ [m]) = move (run s ms) m := List.foldl_concat ..
    rw [hnext, switchedDuring_concat_iff]
    rcases ih with hsettled | ⟨hsame, hnot⟩
    · left
      rw [(standsAt_move hdevice hamong m).2]
      exact hsettled.after m
    · rcases settled_or_not_switches hdevice hamong (hsame ▸ hroute) (hsame ▸ hidle) m with
        hsettled | ⟨hstays, hnone⟩
      · exact .inl hsettled
      · exact .inr ⟨hstays.trans hsame, not_or.2 ⟨hnot, hnone⟩⟩

/-- What may be relied on after a run. -/
structure Disciplined (start : Router × World σ) (ms : List Move) : Prop where
  coupled : (standing (run start ms)).Coupled
  /-- From the first switch on, which may be one that waits. -/
  atRest (h : SwitchedDuring start ms) : (standing (run start ms)).AtRest
  /-- A request for the route in force is answered, and nothing is asked of the device. -/
  current {speaker : Bool} (hidle : (run start ms).1.switching = false)
    (hroute : AudioDevice.currentRoute (run start ms).2.host = target speaker) (ticket : Ticket) :
    move (run start ms) (.request speaker ticket) =
      ((run start ms).1, (run start ms).2.reply ticket (.isOn speaker))

/-- **Route and mode stay coupled.** This is so whatever is asked of a new router, where the device needs normal
mode for the speaker and begins on the earpiece, in either mode. -/
theorem coupled_throughout (hdevice : Obliging true among) (hw : among w.host)
    (hroute : AudioDevice.currentRoute w.host = .earpiece) (ms : List Move) : Disciplined ({}, w) ms := by
  have hrun := settled_or_not_switchedDuring (s := ({}, w)) hdevice hw hroute rfl ms
  refine ⟨?_, fun hswitched => ?_, fun hidle hcurrent ticket => request_of_current hidle hcurrent ticket⟩
  · rcases hrun with hsettled | ⟨hsame, -⟩
    · exact hsettled.coupled
    · rw [hsame]
      refine ⟨fun hspeaker => ?_, nofun⟩
      cases hroute.symm.trans hspeaker
  · rcases hrun with hsettled | ⟨-, hnot⟩
    · exact hsettled.atRest
    · exact (hnot hswitched).elim

/-- A device that is in communication mode, on the earpiece. -/
def inCall : Bench where
  audio := { mode := .inCommunication }

theorem grants_inCall : inCall.Grants true where
  needsNormalMode := rfl
  routes route := by cases route <;> decide
  refusesRoutes := rfl
  reportedMode := rfl

/-- The speaker is asked for during a call, and given up before the device confirms normal mode. -/
def givenUpHalfWay : List Move := [.request true ⟨0⟩, .request false ⟨1⟩, .modeChanged .normal]

theorem coupled_throughout_givenUp :
    inCall.Grants true ∧ AudioDevice.currentRoute inCall = .earpiece ∧
      SwitchedDuring ({}, ⟨inCall, []⟩) givenUpHalfWay ∧
      (standing (run ({}, ⟨inCall, []⟩) givenUpHalfWay)).mode = .normal := by
  have hdisciplined := coupled_throughout (w := ⟨inCall, []⟩) (Bench.obliging true) grants_inCall rfl
    givenUpHalfWay
  have hswitched : SwitchedDuring ({}, ⟨inCall, []⟩) givenUpHalfWay :=
    ⟨[], .request true ⟨0⟩, _, rfl, .inr ⟨rfl, by decide⟩⟩
  exact ⟨grants_inCall, rfl, hswitched, hdisciplined.atRest hswitched (by decide) (by decide)⟩

end Softphone.Router
