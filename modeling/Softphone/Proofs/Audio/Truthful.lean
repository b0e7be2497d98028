import Softphone.Proofs.Audio.Moves

/-!
# Replies about the speaker

A request for a route is answered by whether the speaker is on. Whether a reply is true when it is given is read
off the trace: every effect takes the device to its next state (`Effect.onDevice`). All replies are true but for
those that take a change of the route for granted (`Router.Misleads`): the earpiece may be refused.
-/

namespace Softphone

variable {σ : Type} [AudioDevice σ]

/-! ## Replies and the device they are given on -/

namespace Effect

/-- The device after an effect on its route or its mode. -/
def onDevice (h : σ) : Effect → σ
  | applyRoute route _ => (AudioDevice.applyRoute route h).2
  | clearRoute => AudioDevice.clearRoute h
  | setMode mode => AudioDevice.setMode mode h
  | _ => h

/-- If it tells whether the speaker is on, then it is right about the device. -/
def IsTrueOf (h : σ) (e : Effect) : Prop :=
  ∀ ticket on, e = .reply ticket (.isOn on) → on = (AudioDevice.currentRoute h == .speaker)

end Effect

/-- Every reply among some effects is right about the device as it is by then. -/
def TellTruth (h : σ) : List Effect → Prop
  | [] => True
  | e :: es => e.IsTrueOf h ∧ TellTruth (e.onDevice h) es

theorem tellTruth_append_iff {es es' : List Effect} {h : σ} : TellTruth h (es ++ es') ↔
    TellTruth h es ∧ TellTruth (es.foldl Effect.onDevice h) es' := by
  induction es generalizing h with
  | nil => exact (iff_of_eq (true_and _)).symm
  | cons e es ih => rw [List.cons_append, TellTruth, ih, TellTruth, and_assoc, List.foldl_cons]

namespace World

variable {w w' w'' : World σ} {p q : Prop}

/-- A world comes to be another one. Its device is what the effects have made of it, and what is replied is true
under a condition. -/
def Tells (w w' : World σ) (p : Prop) : Prop :=
  ∃ es, w'.trace = w.trace ++ es ∧ w'.host = es.foldl Effect.onDevice w.host ∧ (TellTruth w.host es ↔ p)

namespace Tells

theorem refl : w.Tells w True := ⟨[], (List.append_nil _).symm, rfl, Iff.rfl⟩

theorem congr (h : w.Tells w' p) (hpq : p ↔ q) : w.Tells w' q := by
  obtain ⟨es, htrace, hhost, htruth⟩ := h
  exact ⟨es, htrace, hhost, htruth.trans hpq⟩

theorem trans (h : w.Tells w' p) (h' : w'.Tells w'' q) : w.Tells w'' (p ∧ q) := by
  obtain ⟨es, htrace, hhost, htruth⟩ := h
  obtain ⟨es', htrace', hhost', htruth'⟩ := h'
  refine ⟨es ++ es', ?_, ?_, ?_⟩
  · rw [htrace', htrace, List.append_assoc]
  · rw [hhost', hhost, List.foldl_append]
  · rw [tellTruth_append_iff, htruth, ← hhost, htruth']

/-- Something is done to the device. -/
theorem device {e : Effect} (he : e.reply? = none) : w.Tells (w.moveTo (e.onDevice w.host) e) True := by
  refine ⟨[e], trace_moveTo, rfl, iff_true_intro ⟨?_, trivial⟩⟩
  rintro ticket on rfl
  cases he

theorem reply (ticket : Ticket) (on : Bool) :
    w.Tells (w.reply ticket (.isOn on)) (on = w.isSpeakerOn) := by
  refine ⟨[.reply ticket (.isOn on)], trace_moveTo, rfl, ?_⟩
  constructor
  · rintro ⟨htrue, -⟩
    exact htrue ticket on rfl
  · intro htrue
    refine ⟨?_, trivial⟩
    rintro ticket' on' heq
    cases heq
    exact htrue

end Tells

end World

namespace Router

variable {r : Router} {s : Router × World σ} {w : World σ} {speaker : Bool}

/-! ## Replies that mislead -/

/-- The device refuses the earpiece, and was not taken off the speaker either when the explicit choice was
dropped. -/
def KeepsSpeaker (h : σ) : Prop :=
  let cleared := if AudioDevice.speakerNeedsNormalMode h then AudioDevice.clearRoute h else h
  (AudioDevice.applyRoute .earpiece cleared).1 = false ∧ AudioDevice.currentRoute cleared = .speaker

/-- The earpiece is asked for while the speaker is on. Those who wait for the speaker are told that it is off before
the route is changed, and the request itself is answered so also where the device refuses. -/
def EarpieceMisleads (s : Router × World σ) : Prop :=
  .earpiece ∈ AudioDevice.availableRoutes s.2.host ∧ AudioDevice.currentRoute s.2.host = .speaker ∧
    (s.1.switching = true ∧ s.1.waiting ≠ [] ∨ KeepsSpeaker s.2.host)

/-- A move has somebody told the wrong thing. -/
def Misleads (s : Router × World σ) : Move → Prop
  | .request speaker _ => speaker = false ∧ EarpieceMisleads s
  | .toggle _ => EarpieceMisleads s
  | .cancel => s.1.waiting ≠ [] ∧ AudioDevice.currentRoute s.2.host = .speaker
  | .modeChanged mode => s.1.switching = true ∧ mode = .normal ∧ s.1.waiting ≠ [] ∧
    AudioDevice.currentRoute s.2.host = .speaker ∧ (AudioDevice.applyRoute .speaker s.2.host).1 = false

/-- Whoever waits for the speaker does so while it is off. -/
structure WaitsOff (s : Router × World σ) : Prop where
  coherent : s.1.Coherent
  off (h : s.1.switching = true) : AudioDevice.currentRoute s.2.host ≠ .speaker

theorem waitsOff_of_idle (hcoherent : s.1.Coherent) (hidle : s.1.switching = false) : WaitsOff s :=
  ⟨hcoherent, fun h => (Bool.false_ne_true (hidle.symm.trans h)).elim⟩

/-- The earpiece is asked for while the speaker is on, and the device refuses it. -/
def RefusedEarpiece (s : Router × World σ) (m : Move) : Prop :=
  ((∃ ticket, m = .request false ticket) ∨ ∃ ticket, m = .toggle ticket) ∧
    .earpiece ∈ AudioDevice.availableRoutes s.2.host ∧
    AudioDevice.currentRoute s.2.host = .speaker ∧ KeepsSpeaker s.2.host

theorem misleads_iff_of_waitsOff (h : WaitsOff s) (m : Move) : Misleads s m ↔ RefusedEarpiece s m := by
  -- while the speaker is on nobody waits for it, so that only a refused earpiece is left
  have hnobody : AudioDevice.currentRoute s.2.host = .speaker → s.1.waiting = [] := by
    intro hon
    by_contra hwaiting
    exact h.off (h.coherent.2 hwaiting) hon
  have hearpiece : EarpieceMisleads s ↔ .earpiece ∈ AudioDevice.availableRoutes s.2.host ∧
      AudioDevice.currentRoute s.2.host = .speaker ∧ KeepsSpeaker s.2.host := by
    refine and_congr_right fun _ => and_congr_right fun hon => ?_
    rw [hnobody hon]
    simp
  unfold RefusedEarpiece
  rw [← hearpiece]
  cases m with
  | request speaker ticket => simp [Misleads]
  | toggle ticket => simp [Misleads]
  | cancel =>
    refine iff_of_false (fun hmisleads => hmisleads.1 (hnobody hmisleads.2)) ?_
    rintro ⟨⟨ticket, heq⟩ | ⟨ticket, heq⟩, -⟩ <;> cases heq
  | modeChanged mode =>
    refine iff_of_false (fun hmisleads => hmisleads.2.2.1 (hnobody hmisleads.2.2.2.1)) ?_
    rintro ⟨⟨ticket, heq⟩ | ⟨ticket, heq⟩, -⟩ <;> cases heq

/-! ## What a move tells -/

theorem isSpeakerOn_eq_true_iff : w.isSpeakerOn = true ↔ AudioDevice.currentRoute w.host = .speaker :=
  beq_iff_eq

theorem isSpeakerOn_eq_false_iff : w.isSpeakerOn = false ↔ AudioDevice.currentRoute w.host ≠ .speaker :=
  beq_eq_false_iff_ne

theorem ne_target_iff : AudioDevice.currentRoute w.host ≠ target speaker ↔ w.isSpeakerOn = !speaker := by
  unfold World.isSpeakerOn
  cases speaker <;> cases AudioDevice.currentRoute w.host <;> decide

theorem tells_answerAll (on : Bool) (tickets : List Ticket) (w : World σ) :
    w.Tells (answerAll on tickets w) (tickets = [] ∨ on = w.isSpeakerOn) := by
  unfold answerAll
  induction tickets generalizing w with
  | nil => exact World.Tells.refl.congr (iff_of_true trivial (.inl rfl))
  | cons ticket rest ih =>
    have hsame : (w.reply ticket (.isOn on)).isSpeakerOn = w.isSpeakerOn := rfl
    refine ((World.Tells.reply ticket on).trans (ih _)).congr ?_
    rw [hsame]
    constructor
    · exact fun h => .inr h.1
    · rintro (hnone | htrue)
      · cases hnone
      · exact ⟨htrue, .inr htrue⟩

theorem tells_cancel (r : Router) (w : World σ) :
    w.Tells (r.cancel w).2 (r.waiting = [] ∨ w.isSpeakerOn = false) :=
  (tells_answerAll false r.waiting w).congr (or_congr_right eq_comm)

theorem tells_switchToSpeaker (w : World σ) : w.Tells (switchToSpeaker w).2 True :=
  ((World.Tells.device rfl).trans (World.Tells.device rfl)).congr (and_self_iff)

theorem tells_switchToEarpiece (w : World σ) : w.Tells (switchToEarpiece w) True := by
  unfold switchToEarpiece
  split
  · have hswitched : w.Tells (w.clearRoute.applyRoute .earpiece).2 True :=
      ((World.Tells.device rfl).trans (World.Tells.device rfl)).congr and_self_iff
    dsimp only
    split
    · exact (hswitched.trans (World.Tells.device rfl)).congr and_self_iff
    · exact hswitched
  · exact World.Tells.device rfl

variable [RoutesAsGranted σ]

theorem isSpeakerOn_applyRoute_speaker (w : World σ) :
    (w.applyRoute .speaker).2.isSpeakerOn = ((w.applyRoute .speaker).1 || w.isSpeakerOn) := by
  have hroute : AudioDevice.currentRoute (w.applyRoute .speaker).2.host = _ :=
    RoutesAsGranted.currentRoute_applyRoute .speaker w.host
  unfold World.isSpeakerOn
  rw [hroute]
  change _ = ((AudioDevice.applyRoute .speaker w.host).1 || _)
  cases (AudioDevice.applyRoute .speaker w.host).1 <;> rfl

theorem isSpeakerOn_switchToSpeaker (w : World σ) :
    (switchToSpeaker w).2.isSpeakerOn = ((switchToSpeaker w).1 || w.isSpeakerOn) := by
  have hmode : (switchToSpeaker w).2.isSpeakerOn = (w.applyRoute .speaker).2.isSpeakerOn :=
    congrArg (· == AudioRoute.speaker) (RoutesAsGranted.currentRoute_setMode _ _)
  exact hmode.trans (isSpeakerOn_applyRoute_speaker w)

theorem isSpeakerOn_switchToEarpiece_iff (w : World σ) :
    (switchToEarpiece w).isSpeakerOn = true ↔ KeepsSpeaker w.host := by
  have happlied : ∀ w : World σ, (w.applyRoute .earpiece).2.isSpeakerOn = true ↔
      (AudioDevice.applyRoute .earpiece w.host).1 = false ∧ AudioDevice.currentRoute w.host = .speaker := by
    intro w
    have hroute : AudioDevice.currentRoute (w.applyRoute .earpiece).2.host = _ :=
      RoutesAsGranted.currentRoute_applyRoute .earpiece w.host
    rw [isSpeakerOn_eq_true_iff, hroute]
    cases (AudioDevice.applyRoute .earpiece w.host).1 <;> simp
  unfold switchToEarpiece KeepsSpeaker
  cases AudioDevice.speakerNeedsNormalMode w.host with
  | false => exact happlied w
  | true =>
    rw [if_pos rfl]
    dsimp only
    split
    · have hmode : ((w.clearRoute.applyRoute .earpiece).2.setMode .normal).isSpeakerOn =
          (w.clearRoute.applyRoute .earpiece).2.isSpeakerOn :=
        congrArg (· == AudioRoute.speaker) (RoutesAsGranted.currentRoute_setMode _ _)
      rw [hmode]
      exact happlied w.clearRoute
    · exact happlied w.clearRoute

/-- A change to a route that is not in force is answered by what it takes for granted only if it is for the
earpiece. -/
theorem tells_change (hroute : AudioDevice.currentRoute w.host ≠ target speaker) (ticket : Ticket) :
    w.Tells (r.change speaker ticket w).2 (speaker = false → ¬KeepsSpeaker w.host) := by
  have hon := ne_target_iff.1 hroute
  unfold change
  cases speaker with
  | false =>
    refine ((tells_switchToEarpiece w).trans (World.Tells.reply ticket false)).congr ?_
    rw [← isSpeakerOn_switchToEarpiece_iff, Bool.not_eq_true, true_and, eq_comm]
    exact ⟨fun h _ => h, fun h => h rfl⟩
  | true =>
    have htrue : ∀ {w' : World σ} {on : Bool}, w.Tells w' True → w'.isSpeakerOn = (on || w.isSpeakerOn) →
        w.Tells (w'.reply ticket (.isOn on)) (true = false → ¬KeepsSpeaker w.host) := by
      intro w' on htells heq
      refine (htells.trans (World.Tells.reply ticket on)).congr (iff_of_true ⟨trivial, ?_⟩ nofun)
      rw [heq, hon]
      exact (Bool.or_false on).symm
    simp only [Bool.not_true, Bool.false_eq_true, if_false]
    split
    · exact htrue (World.Tells.device rfl) (isSpeakerOn_applyRoute_speaker w)
    · split
      · exact htrue (tells_switchToSpeaker w) (isSpeakerOn_switchToSpeaker w)
      · exact (World.Tells.device rfl).congr (iff_of_true trivial nofun)

theorem tells_proceed (r : Router) (w : World σ) (speaker : Bool) (ticket : Ticket) :
    w.Tells (r.proceed speaker ticket w).2
      ¬(speaker = false ∧ AudioDevice.currentRoute w.host = .speaker ∧ KeepsSpeaker w.host) := by
  unfold proceed
  split
  · rename_i hroute
    refine (World.Tells.reply ticket _).congr (iff_of_true rfl ?_)
    rintro ⟨rfl, hon, -⟩
    cases hroute.symm.trans hon
  · rename_i hroute
    refine (tells_change hroute ticket).congr ?_
    constructor
    · rintro h ⟨hearpiece, -, hkeeps⟩
      exact h hearpiece hkeeps
    · rintro h rfl hkeeps
      have hon : w.isSpeakerOn = true := ne_target_iff.1 hroute
      exact h ⟨rfl, isSpeakerOn_eq_true_iff.1 hon, hkeeps⟩

theorem tells_request (r : Router) (w : World σ) (speaker : Bool) (ticket : Ticket) :
    w.Tells (r.request speaker ticket w).2 ¬(speaker = false ∧ EarpieceMisleads (r, w)) := by
  have hgoes := request_goes r speaker ticket w
  generalize r.request speaker ticket w = s at hgoes ⊢
  cases hgoes with
  | lacks hlacks =>
    refine (World.Tells.reply ticket _).congr (iff_of_true rfl ?_)
    rintro ⟨rfl, hoffered, -⟩
    exact hlacks hoffered
  | joins _ _ hspeaker =>
    refine World.Tells.refl.congr (iff_of_true trivial ?_)
    rintro ⟨hearpiece, -⟩
    exact Bool.false_ne_true (hearpiece.symm.trans hspeaker)
  | proceeds hoffered hidle =>
    refine (tells_proceed r w speaker ticket).congr (not_congr (and_congr_right ?_))
    rintro rfl
    simp [EarpieceMisleads, hidle, show AudioRoute.earpiece ∈ _ from hoffered]
  | givesUp hoffered hpending hearpiece =>
    subst hearpiece
    -- those who wait are told first, on the route as it was found
    refine ((tells_cancel r w).trans (tells_proceed {} (r.cancel w).2 false ticket)).congr ?_
    rw [host_cancel, isSpeakerOn_eq_false_iff]
    constructor
    · rintro ⟨htold, hchanged⟩ ⟨-, -, hon, ⟨-, hwaiting⟩ | hkeeps⟩
      · rcases htold with hnobody | hoff
        · exact hwaiting hnobody
        · exact hoff hon
      · exact hchanged ⟨rfl, hon, hkeeps⟩
    · intro h
      refine ⟨?_, fun hkeeps => h ⟨rfl, hoffered, hkeeps.2.1, .inr hkeeps.2.2⟩⟩
      by_contra hmisled
      rw [not_or, not_not] at hmisled
      exact h ⟨rfl, hoffered, hmisled.2, .inl ⟨hpending, hmisled.1⟩⟩

theorem tells_modeChanged (r : Router) (mode : AudioMode) (w : World σ) :
    w.Tells (r.onModeChanged mode w).2 ¬Misleads (r, w) (.modeChanged mode) := by
  unfold onModeChanged Misleads
  split
  · rename_i hcompletes
    rw [Bool.and_eq_true, decide_eq_true_eq] at hcompletes
    refine ((tells_switchToSpeaker w).trans (tells_answerAll _ _ _)).congr ?_
    rw [isSpeakerOn_switchToSpeaker]
    have hgranted : (switchToSpeaker w).1 = (AudioDevice.applyRoute .speaker w.host).1 := rfl
    rw [hgranted]
    constructor
    · rintro ⟨-, hnobody | htrue⟩ ⟨-, -, hwaiting, hon, hrefused⟩
      · exact hwaiting hnobody
      · rw [hrefused, isSpeakerOn_eq_true_iff.2 hon] at htrue
        cases htrue
    · intro h
      refine ⟨trivial, ?_⟩
      by_contra hmisled
      obtain ⟨hwaiting, hfalse⟩ := not_or.1 hmisled
      cases hanswer : (AudioDevice.applyRoute .speaker w.host).1 with
      | true => exact hfalse (by rw [hanswer]; rfl)
      | false =>
        have hon : w.isSpeakerOn = true := by
          rw [hanswer] at hfalse
          simpa using hfalse
        exact h ⟨hcompletes.1, hcompletes.2, hwaiting, isSpeakerOn_eq_true_iff.1 hon, hanswer⟩
  · rename_i hcompletes
    refine World.Tells.refl.congr (iff_of_true trivial ?_)
    rintro ⟨hpending, hnormal, -⟩
    exact hcompletes ((Bool.and_eq_true _ _).mpr ⟨hpending, decide_eq_true hnormal⟩)

theorem tells_move (s : Router × World σ) (m : Move) : s.2.Tells (move s m).2 ¬Misleads s m := by
  cases m with
  | request speaker ticket => exact tells_request s.1 s.2 speaker ticket
  | toggle ticket =>
    refine (tells_request s.1 s.2 (!s.2.isSpeakerOn) ticket).congr (not_congr ?_)
    constructor
    · exact And.right
    · intro hmisleads
      have hon := isSpeakerOn_eq_true_iff.2 hmisleads.2.1
      exact ⟨by rw [hon]; rfl, hmisleads⟩
  | cancel =>
    refine (tells_cancel s.1 s.2).congr ?_
    rw [isSpeakerOn_eq_false_iff, Misleads, not_and_or, not_not]
  | modeChanged mode => exact tells_modeChanged s.1 mode s.2

/-- **When replies about the speaker are true.** Whatever a router has in hand, and whatever its device has,
refuses or is in, every reply that a move gives is right about the device at that moment unless the move
misleads. -/
theorem tellTruth_iff (s : Router × World σ) (m : Move) :
    (move s m).2.host = ((move s m).2.since s.2).foldl Effect.onDevice s.2.host ∧
      (TellTruth s.2.host ((move s m).2.since s.2) ↔ ¬Misleads s m) := by
  obtain ⟨es, htrace, hhost, htruth⟩ := tells_move s m
  rw [World.since_eq htrace]
  exact ⟨hhost, htruth⟩

/-- A device that refuses every route. -/
def refusing (route : AudioRoute) : Bench where
  audio := { route, refusesRoutes := true }

/-- Two wait for the speaker, and the device refuses it. -/
def refusedSwitch : Router × World Bench := (⟨true, [⟨0⟩, ⟨1⟩]⟩, ⟨refusing .earpiece, []⟩)

theorem tellTruth_refusedSwitch :
    RoutesAsGranted Bench ∧
      (move refusedSwitch (.modeChanged .normal)).2.replies = [(⟨0⟩, .isOn false), (⟨1⟩, .isOn false)] ∧
      TellTruth refusedSwitch.2.host
        ((move refusedSwitch (.modeChanged .normal)).2.since refusedSwitch.2) := by
  refine ⟨inferInstance, by decide, (tellTruth_iff refusedSwitch (.modeChanged .normal)).2.2 ?_⟩
  rintro ⟨-, -, -, hon, -⟩
  cases hon

/-- A refused earpiece is told like one that was granted: the reply is that the speaker is off, and it is on. -/
theorem refusedEarpiece_told_off :
    (move ({}, ⟨refusing .speaker, []⟩) (.request false ⟨0⟩)).2.replies = [(⟨0⟩, .isOn false)] ∧
      (move ({}, ⟨refusing .speaker, []⟩) (.request false ⟨0⟩)).2.isSpeakerOn = true ∧
      ¬TellTruth (refusing .speaker)
        ((move ({}, ⟨refusing .speaker, []⟩) (.request false ⟨0⟩)).2.since ⟨refusing .speaker, []⟩) := by
  refine ⟨by decide, by decide, fun htruth => ?_⟩
  have hsince : (move ({}, ⟨refusing .speaker, []⟩) (.request false ⟨0⟩)).2.since
      ⟨refusing .speaker, []⟩ = [.clearRoute, .applyRoute .earpiece false, .reply ⟨0⟩ (.isOn false)] := by
    decide
  rw [hsince] at htruth
  exact Bool.false_ne_true (htruth.2.2.1 ⟨0⟩ false rfl)

/-! ## Runs -/

theorem tells_run (s : Router × World σ) (ms : List Move) :
    s.2.Tells (run s ms).2 (EachAfter (fun before m => ¬Misleads (run s before) m) ms) := by
  induction ms using List.reverseRecOn with
  | nil => exact World.Tells.refl.congr (iff_of_true trivial .nil)
  | append_singleton ms m ih =>
    have hnext : run s (ms ++ [m]) = move (run s ms) m := List.foldl_concat ..
    rw [hnext]
    exact (ih.trans (tells_move _ m)).congr eachAfter_concat_iff.symm

theorem waitsOff_proceed (hcoherent : r.Coherent) (hidle : r.switching = false) (w : World σ)
    (speaker : Bool) (ticket : Ticket) : WaitsOff (r.proceed speaker ticket w) := by
  unfold proceed
  split
  · exact waitsOff_of_idle hcoherent hidle
  rename_i hroute
  unfold change
  split
  · exact waitsOff_of_idle hcoherent hidle
  rename_i hspeaker
  obtain rfl : speaker = true := by simpa using hspeaker
  split
  · exact waitsOff_of_idle hcoherent hidle
  split
  · exact waitsOff_of_idle hcoherent hidle
  · refine ⟨coherent_parked r.waiting ticket, fun _ => ?_⟩
    have hmode : AudioDevice.currentRoute (w.setMode .normal).host = AudioDevice.currentRoute w.host :=
      RoutesAsGranted.currentRoute_setMode _ _
    exact hmode ▸ hroute

theorem WaitsOff.request (h : WaitsOff (r, w)) (speaker : Bool) (ticket : Ticket) :
    WaitsOff (r.request speaker ticket w) := by
  have hgoes := request_goes r speaker ticket w
  generalize r.request speaker ticket w = s at hgoes ⊢
  cases hgoes with
  | lacks => exact ⟨h.coherent, h.off⟩
  | joins _ hpending =>
    refine ⟨?_, fun _ => h.off hpending⟩
    rw [hpending]
    exact coherent_parked r.waiting ticket
  | proceeds _ hidle => exact waitsOff_proceed h.coherent hidle w speaker ticket
  | givesUp => exact waitsOff_proceed coherent_idle rfl (r.cancel w).2 speaker ticket

theorem WaitsOff.move (h : WaitsOff s) (m : Move) : WaitsOff (Router.move s m) := by
  cases m with
  | request speaker ticket => exact h.request speaker ticket
  | toggle ticket => exact h.request _ ticket
  | cancel => exact waitsOff_of_idle coherent_idle rfl
  | modeChanged mode =>
    change WaitsOff (s.1.onModeChanged mode s.2)
    unfold onModeChanged
    split
    · exact waitsOff_of_idle coherent_idle rfl
    · exact h

/-- **Replies of a router that was new.** Along a run they are true exactly as long as no earpiece is refused. -/
theorem tellTruth_run_iff (w : World σ) (ms : List Move) :
    TellTruth w.host ((run ({}, w) ms).2.since w) ↔
      EachAfter (fun before m => ¬RefusedEarpiece (run ({}, w) before) m) ms := by
  have hwaits : ∀ before, WaitsOff (run ({}, w) before) := by
    intro before
    induction before using List.reverseRecOn with
    | nil => exact waitsOff_of_idle coherent_idle rfl
    | append_singleton before m ih =>
      have hnext : run ({}, w) (before ++ [m]) = move (run ({}, w) before) m := List.foldl_concat ..
      rw [hnext]
      exact ih.move m
  obtain ⟨es, htrace, -, htruth⟩ := tells_run ({}, w) ms
  rw [World.since_eq htrace]
  exact htruth.trans (forall₄_congr fun before m _ _ =>
    not_congr (misleads_iff_of_waitsOff (hwaits before) m))

end Router

end Softphone
