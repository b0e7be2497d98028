import Softphone.Proofs.Audio.Effects

/-!
# Requests for a route

What a request for a route comes to: it is answered at once, after a pending switch was given up if it is
for the earpiece, or it joins those who wait (`Router.request_cases`). All who wait are told the same.
-/

namespace Softphone.Router

variable {σ : Type} {r : Router} {w : World σ}

/-- Somebody waits exactly while a switch is pending. -/
def Coherent (r : Router) : Prop := r.switching = true ↔ r.waiting ≠ []

theorem coherent_idle : ({} : Router).Coherent := by simp [Coherent]

theorem coherent_parked (tickets : List Ticket) (ticket : Ticket) :
    Coherent ⟨true, tickets ++ [ticket]⟩ := by
  simp [Coherent]

/-! ## Answers to those who wait -/

/-- The replies by which all who wait are told the same. -/
def verdict (r : Router) (on : Bool) : List (Ticket × Reply) := r.waiting.map (·, .isOn on)

/-- Those who wait are told by nothing but replies. -/
theorem trace_answerAll (on : Bool) (tickets : List Ticket) (w : World σ) :
    (answerAll on tickets w).trace = w.trace ++ tickets.map (.reply · (.isOn on)) := by
  unfold answerAll
  induction tickets generalizing w with
  | nil => exact (List.append_nil _).symm
  | cons ticket rest ih =>
    have htold : (w.reply ticket (.isOn on)).trace = w.trace ++ [.reply ticket (.isOn on)] :=
      World.trace_moveTo
    rw [List.foldl_cons, ih, htold, List.append_assoc]
    rfl

theorem replies_answerAll (on : Bool) (tickets : List Ticket) (w : World σ) :
    (answerAll on tickets w).replies = w.replies ++ tickets.map (·, .isOn on) := by
  unfold World.replies
  rw [trace_answerAll, List.filterMap_append, List.filterMap_map]
  exact congrArg (w.trace.filterMap Effect.reply? ++ ·) (congrFun List.filterMap_eq_map tickets)

theorem replies_cancel (r : Router) (w : World σ) :
    (r.cancel w).2.replies = w.replies ++ r.verdict false :=
  replies_answerAll _ _ _

variable [AudioDevice σ]

/-- A mode that is confirmed completes a pending switch if it is the normal one. -/
theorem onModeChanged_normal (hpending : r.switching = true) (w : World σ) :
    (r.onModeChanged .normal w).1 = {} ∧
      (r.onModeChanged .normal w).2.replies = w.replies ++ r.verdict (switchToSpeaker w).1 := by
  unfold onModeChanged
  simp only [hpending, decide_true, Bool.and_self, if_true, true_and]
  rw [replies_answerAll, verdict]
  rw [((grows_switchToSpeaker w).mono fun _ he => he.2.2).replies]

theorem onModeChanged_of_idle {mode : AudioMode} (h : r.switching = false ∨ mode ≠ .normal)
    (w : World σ) : r.onModeChanged mode w = (r, w) := by
  unfold onModeChanged
  rw [if_neg]
  intro hcompletes
  rw [Bool.and_eq_true, decide_eq_true_eq] at hcompletes
  rcases h with hidle | hother
  · exact Bool.false_ne_true (hidle.symm.trans hcompletes.1)
  · exact hother hcompletes.2

/-! ## Requests -/

/-- Goes on with a request when no switch waits, or none waits any more. -/
def proceed (r : Router) (speaker : Bool) (ticket : Ticket) (w : World σ) : Router × World σ :=
  if AudioDevice.currentRoute w.host = target speaker then (r, w.reply ticket (.isOn w.isSpeakerOn))
  else r.change speaker ticket w

/-- The ways that a request can go. -/
inductive Goes (r : Router) (speaker : Bool) (ticket : Ticket) (w : World σ) : Router × World σ → Prop
  /-- The device lacks the route. -/
  | lacks (hlacks : target speaker ∉ AudioDevice.availableRoutes w.host) :
    Goes r speaker ticket w (r, w.reply ticket (.isOn w.isSpeakerOn))
  /-- A switch waits for the speaker already. -/
  | joins (hoffered : target speaker ∈ AudioDevice.availableRoutes w.host)
    (hpending : r.switching = true) (hspeaker : speaker = true) :
    Goes r speaker ticket w ({ r with waiting := r.waiting ++ [ticket] }, w)
  | proceeds (hoffered : target speaker ∈ AudioDevice.availableRoutes w.host)
    (hidle : r.switching = false) : Goes r speaker ticket w (r.proceed speaker ticket w)
  /-- A switch waits, and the request is for the earpiece. -/
  | givesUp (hoffered : target speaker ∈ AudioDevice.availableRoutes w.host)
    (hpending : r.switching = true) (hearpiece : speaker = false) :
    Goes r speaker ticket w (proceed {} speaker ticket (r.cancel w).2)

theorem request_goes (r : Router) (speaker : Bool) (ticket : Ticket) (w : World σ) :
    r.Goes speaker ticket w (r.request speaker ticket w) := by
  unfold request
  split
  · exact .lacks ‹_›
  rename_i hoffered
  rw [not_not] at hoffered
  split
  · rename_i hjoins
    rw [Bool.and_eq_true] at hjoins
    exact .joins hoffered hjoins.1 hjoins.2
  rename_i hjoins
  cases hpending : r.switching with
  | false =>
    rw [if_neg Bool.false_ne_true]
    exact .proceeds hoffered hpending
  | true =>
    rw [if_pos rfl]
    exact .givesUp hoffered hpending (by simpa [hpending] using hjoins)

/-- What a request for the speaker, or for the earpiece, comes to. -/
inductive Takes (r : Router) (speaker : Bool) (ticket : Ticket) (w : World σ) :
    Router × World σ → Prop
  /-- It is answered, and whoever waits goes on waiting. -/
  | answered {w' : World σ} (on : Bool) (replies : w'.replies = w.replies ++ [(ticket, .isOn on)]) :
    Takes r speaker ticket w (r, w')
  /-- It is for the earpiece: those who wait are told that the speaker is off, and then it is
  answered. -/
  | givenUp {w' : World σ} (hearpiece : speaker = false) (on : Bool)
    (replies : w'.replies = w.replies ++ r.verdict false ++ [(ticket, .isOn on)]) :
    Takes r speaker ticket w ({}, w')
  /-- It is for the speaker and waits until the device confirms normal mode. -/
  | parked {w' : World σ} (hspeaker : speaker = true) (replies : w'.replies = w.replies) :
    Takes r speaker ticket w (⟨true, r.waiting ++ [ticket]⟩, w')

/-- A change of the route while no switch is pending. -/
theorem change_cases (r : Router) (speaker : Bool) (ticket : Ticket) (w : World σ) :
    r.Takes speaker ticket w (r.change speaker ticket w) := by
  have hanswered {w' : World σ} (h : w.Grows Effect.IsCalm w') (on : Bool) :
      r.Takes speaker ticket w (r, w'.reply ticket (.isOn on)) := by
    refine .answered on ?_
    rw [World.replies_reply, (h.mono fun _ he => he.2.2).replies]
  unfold change
  split
  · exact hanswered (grows_switchToEarpiece w) false
  · rename_i hspeaker
    split
    · exact hanswered (.step ⟨⟨rfl, rfl⟩, rfl, rfl⟩) _
    · split
      · exact hanswered (grows_switchToSpeaker w) _
      · have hmode : w.Grows (·.reply? = none) (w.setMode .normal) := .step rfl
        exact .parked (by simpa using hspeaker) hmode.replies

theorem proceed_cases (r : Router) (speaker : Bool) (ticket : Ticket) (w : World σ) :
    r.Takes speaker ticket w (r.proceed speaker ticket w) := by
  unfold proceed
  split
  · exact .answered _ (World.replies_reply _ _)
  · exact change_cases r speaker ticket w

/-- **What a request for a route comes to.** -/
theorem request_cases (r : Router) (speaker : Bool) (ticket : Ticket) (w : World σ) :
    r.Takes speaker ticket w (r.request speaker ticket w) := by
  have hgoes := request_goes r speaker ticket w
  generalize r.request speaker ticket w = s at hgoes ⊢
  cases hgoes with
  | lacks => exact .answered _ (World.replies_reply _ _)
  | joins hoffered hpending hspeaker =>
    rw [hpending]
    exact .parked hspeaker rfl
  | proceeds => exact proceed_cases r speaker ticket w
  | givesUp hoffered hpending hearpiece =>
    -- nobody waits any more when the route is changed
    have hcancelled := replies_cancel r w
    have hproceed := proceed_cases {} speaker ticket (r.cancel w).2
    generalize proceed {} speaker ticket (r.cancel w).2 = s at hproceed ⊢
    cases hproceed with
    | answered on hreplies => exact .givenUp hearpiece on (by rw [hreplies, hcancelled])
    | givenUp _ on hreplies =>
      refine .givenUp hearpiece on ?_
      rw [hreplies, hcancelled]
      exact List.append_nil _ ▸ rfl
    | parked hspeaker => exact (Bool.false_ne_true (hearpiece.symm.trans hspeaker)).elim

end Softphone.Router
