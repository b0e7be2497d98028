import Softphone.Proofs.Network.Hotspot
import Softphone.Proofs.Since
import Softphone.Proofs.Session.Networks

/-!
# What is left of a hotspot

Once a hotspot is off nothing of it should be left: no address is known and neither of its timers is set
(`Session.HotspotClean`). Every message keeps it so but one: where a sign-in begins to follow the networks, the
platform may say that the hotspot is off while something of an earlier one is left
(`Session.overlooksHotspot`). Without it every address that is known was found since the hotspot came up
(`Session.Finds`).
-/

namespace Softphone

variable {σ : Type}

namespace Session

variable {s s' s₀ : Session σ} {past : List (Session σ × Input)} {a : Address}

/-- No address of a hotspot is known, and none of its timers is set. -/
def HotspotForgotten (s : Session σ) : Prop :=
  s.mobility.hotspotAddresses = .empty ∧ s.timers.isActive .hotspotDebounce = false ∧
    s.timers.isActive .hotspotFollowUp = false

instance (s : Session σ) : Decidable s.HotspotForgotten :=
  inferInstanceAs (Decidable (_ ∧ _ ∧ _))

/-- Nothing is left of a hotspot that is off. -/
def HotspotClean (s : Session σ) : Prop := s.mobility.hotspotOn = false → s.HotspotForgotten

instance (s : Session σ) : Decidable s.HotspotClean := inferInstanceAs (Decidable (_ → _))

theorem HotspotClean.of_on (hon : s.mobility.hotspotOn = true) : s.HotspotClean := by
  intro hoff
  rw [hon] at hoff
  cases hoff

/-- What is left of a hotspot depends on the hotspot and its timers alone. -/
theorem hotspotClean_congr (hon : s'.mobility.hotspotOn = s.mobility.hotspotOn)
    (haddresses : s'.mobility.hotspotAddresses = s.mobility.hotspotAddresses)
    (hnumbered : s.timers.Numbered) (htimers : s.timers.Spares TimerKind.isHotspot s'.timers) :
    s'.HotspotClean ↔ s.HotspotClean := by
  rw [HotspotClean, HotspotClean, HotspotForgotten, HotspotForgotten, hon, haddresses,
    htimers.isActive hnumbered rfl, htimers.isActive hnumbered rfl]

theorem SparesNetwork.hotspotClean_iff (h : s.SparesNetwork s') (hnumbered : s.timers.Numbered) :
    s'.HotspotClean ↔ s.HotspotClean :=
  hotspotClean_congr (congrArg Mobility.hotspotOn h.mobility)
    (congrArg Mobility.hotspotAddresses h.mobility) hnumbered h.timers

/-- Of what is left at most some goes. -/
theorem KeepsNetwork.hotspotClean (h : s.KeepsNetwork s') (hnumbered : s.timers.Numbered)
    (hclean : s.HotspotClean) : s'.HotspotClean := by
  intro hoff
  rw [h.hotspotOn] at hoff
  obtain ⟨hnone, hdebounce, hfollowUp⟩ := hclean hoff
  refine ⟨h.hotspotAddresses.trans hnone, (h.debounce.isActive hnumbered rfl).trans hdebounce, ?_⟩
  rw [Bool.eq_false_iff] at hfollowUp ⊢
  exact fun hactive => hfollowUp (h.followUp hnumbered hactive)

/-! ## Reports -/

section Reports

variable [Engine σ]

/-- A hotspot that is reported on is on. -/
theorem hotspotOn_reported_true :
    (s.withNetwork (s.mobility.onHotspotChanged true s.timers s.world)).mobility.hotspotOn = true := by
  cases hon : s.mobility.hotspotOn with
  | true =>
    rw [Mobility.onHotspotChanged_same hon]
    exact hon
  | false =>
    rw [Mobility.onHotspotChanged_up hon]
    rfl

/-- What is reported off is forgotten, if it was on. -/
theorem hotspotClean_reported_false_iff :
    (s.withNetwork (s.mobility.onHotspotChanged false s.timers s.world)).HotspotClean ↔
      s.HotspotClean := by
  cases hon : s.mobility.hotspotOn with
  | false => rw [Mobility.onHotspotChanged_same hon]; rfl
  | true =>
    obtain ⟨_, _, _, heq⟩ := Mobility.onHotspotChanged_down (w := s.world) (t := s.timers) hon
    rw [heq]
    refine iff_of_true (fun _ => ⟨rfl, ?_, ?_⟩) (.of_on hon)
    · rw [withNetwork_timers, Timers.isActive_cancelKind, Timers.isActive_cancelKind]
      simp
    · rw [withNetwork_timers, Timers.isActive_cancelKind]
      simp

theorem hotspotClean_reported (hclean : s.HotspotClean) (enabled : Bool) :
    (s.withNetwork (s.mobility.onHotspotChanged enabled s.timers s.world)).HotspotClean := by
  cases enabled with
  | true => exact .of_on hotspotOn_reported_true
  | false => exact hotspotClean_reported_false_iff.2 hclean

end Reports

/-! ## Messages -/

variable [Host σ]

/-- A message overlooks a hotspot: with it the networks begin to be followed, the platform says that the
hotspot is off, and something of an earlier one is left. -/
def overlooksHotspot (s : Session σ) (input : Input) : Bool :=
  (s.begins? input).any fun s₀ => !s₀.world.platform.hotspotEnabled && !decide s₀.HotspotForgotten

theorem overlooksHotspot_of_not_begins {input : Input} (h : s.begins? input = none) :
    s.overlooksHotspot input = false := by
  rw [overlooksHotspot, h]
  rfl

/-- Where the networks begin to be followed, the hotspot is on or nothing may be left of it. -/
theorem hotspotClean_begun_iff : s.begun.HotspotClean ↔
    s.world.platform.hotspotEnabled = true ∨ s.HotspotForgotten := by
  obtain ⟨htimers, -, hon, haddresses⟩ := s.begun_hotspot
  cases henabled : s.world.platform.hotspotEnabled with
  | true => exact iff_of_true (.of_on (hon.trans henabled)) (.inl rfl)
  | false =>
    rw [henabled] at hon haddresses
    rw [HotspotClean, HotspotForgotten, hon, haddresses, htimers, or_iff_right Bool.false_ne_true]
    exact forall_prop_of_true rfl

/-- After the delay a hotspot that is on stays on, and one that is off stays as it is. -/
theorem hotspotClean_debounced (hclean : s.HotspotClean) {timers : Timers}
    (htimers : timers.active.Sublist s.timers.active) :
    (s.withNetwork (s.mobility.onHotspotDebounce timers s.world)).HotspotClean := by
  cases hon : s.mobility.hotspotOn with
  | true =>
    obtain ⟨_, _, -, heq⟩ := Mobility.onHotspotDebounce_on (w := s.world) (t := timers) hon
    rw [heq, Mobility.addHotspot_mobility]
    exact .of_on hon
  | false =>
    have hgone : ∀ kind, s.timers.isActive kind = false → timers.isActive kind = false := by
      intro kind hnone
      rw [← Timers.countKind_eq_zero_iff] at hnone ⊢
      exact Nat.eq_zero_of_le_zero (hnone ▸ htimers.countP_le)
    rw [Mobility.onHotspotDebounce_off hon]
    obtain ⟨hnone, hdebounce, hfollowUp⟩ := hclean hon
    exact fun _ => ⟨hnone, hgone _ hdebounce, hgone _ hfollowUp⟩

/-- **When a message leaves nothing of a hotspot that is off.** It does unless it overlooks one. -/
theorem hotspotClean_handle_iff (hnumbered : s.timers.Numbered) (hclean : s.HotspotClean)
    (input : Input) : (s.handle input).HotspotClean ↔ s.overlooksHotspot input = false := by
  have hstep := networkStep_handle (s := s) input
  generalize s.handle input = s' at hstep ⊢
  cases hstep with
  | kept _ _ hbegins hkeeps =>
    exact iff_of_true (hkeeps.hotspotClean hnumbered hclean) (overlooksHotspot_of_not_begins hbegins)
  | reported enabled =>
    exact iff_of_true (hotspotClean_reported hclean enabled) (overlooksHotspot_of_not_begins rfl)
  | debounced _ =>
    exact iff_of_true (hotspotClean_debounced hclean Timers.accept_active_sublist)
      (overlooksHotspot_of_not_begins rfl)
  | @began _ s₀ _ hbegins hspares =>
    have hnumbered₀ := (keepsNetwork_of_begins? hbegins).1.debounce.numbered hnumbered
    rw [hspares.hotspotClean_iff hnumbered₀, hotspotClean_begun_iff, overlooksHotspot, hbegins,
      Option.any_some, Bool.and_eq_false_iff, Bool.not_eq_false', Bool.not_eq_false',
      decide_eq_true_iff]
  | stopped hends hkeeps =>
    have hhalted : s.halted.HotspotClean := by
      intro hoff
      rw [halted_mobility] at hoff
      refine ⟨?_, isActive_halted _, isActive_halted _⟩
      rw [halted_mobility]
      exact (hclean hoff).1
    exact iff_of_true (hkeeps.hotspotClean (numbered_halted hnumbered) hhalted)
      (overlooksHotspot_of_not_begins (begins?_of_ends hends))

/-! ## A turn -/

/-- A report that the hotspot is on leaves nothing to be clean of, and no other notification matters. -/
theorem hotspotClean_handleNotification_iff (hnumbered : s.timers.Numbered)
    (notification : Notification) : (s.handleNotification notification).HotspotClean ↔
      s.HotspotClean ∨ notification = .network (.hotspotChanged true) := by
  have hother : ∀ {s' : Session σ}, s'.mobility.hotspotOn = s.mobility.hotspotOn →
      s'.mobility.hotspotAddresses = s.mobility.hotspotAddresses →
      s.timers.Spares TimerKind.isHotspot s'.timers →
      notification ≠ .network (.hotspotChanged true) →
      (s'.HotspotClean ↔ s.HotspotClean ∨ notification = .network (.hotspotChanged true)) :=
    fun hon haddresses htimers hne => by
      rw [hotspotClean_congr hon haddresses hnumbered htimers, or_iff_left hne]
  cases notification with
  | network change =>
    cases change with
    | hotspotChanged enabled =>
      cases enabled with
      | true => exact iff_of_true (.of_on hotspotOn_reported_true) (.inr rfl)
      | false =>
        rw [or_iff_left (by simp)]
        exact hotspotClean_reported_false_iff
    | _ =>
      have hkeeps := keepsNetwork_observe (s := s)
      exact hother (hkeeps _).hotspotOn (hkeeps _).hotspotAddresses .refl (by simp)
  | audioMode mode =>
    have hspares := spares_audioMode (s := s) mode
    exact hother (congrArg _ hspares.mobility) (congrArg _ hspares.mobility) hspares.timers nofun
  | toneFinished =>
    have hspares := spares_toneFinished (s := s)
    exact hother (congrArg _ hspares.mobility) (congrArg _ hspares.mobility) hspares.timers nofun

theorem hotspotClean_queued_iff (hnumbered : s.timers.Numbered) (queued : List Notification) :
    (queued.foldl handleNotification s).HotspotClean ↔
      s.HotspotClean ∨ .network (.hotspotChanged true) ∈ queued := by
  induction queued generalizing s with
  | nil => simp
  | cons notification rest ih =>
    have hlater := (networkStep_handleNotification notification).numbered hnumbered
    rw [List.foldl_cons, ih hlater, hotspotClean_handleNotification_iff hnumbered, List.mem_cons,
      or_assoc, eq_comm]

/-- **When a turn leaves nothing of a hotspot that is off.** A hotspot that its message overlooks is all the
same not off after it if one of the notifications of the turn says that it is on. -/
theorem hotspotClean_turn_iff (hnumbered : s.timers.Numbered) (hclean : s.HotspotClean)
    (hlive : s.ended = false) (input : Input) (queued : List Notification) :
    (s.turn input queued).HotspotClean ↔
      s.overlooksHotspot input = false ∨ .network (.hotspotChanged true) ∈ queued := by
  have hhandle := hotspotClean_handle_iff hnumbered hclean input
  cases hended : (s.handle input).ended with
  | true =>
    have hends : input.ends = true := by
      rwa [handle_ended, hlive, Bool.false_or] at hended
    have hbegins := overlooksHotspot_of_not_begins (begins?_of_ends (s := s) hends)
    rw [turn_of_ended hended, taken, if_pos hended]
    exact iff_of_true (hhandle.2 hbegins) (.inl hbegins)
  | false =>
    have hgoes : ¬(s.handle input).ended = true := Bool.eq_false_iff.1 hended
    obtain ⟨htimers, -, hon, haddresses⟩ :=
      (s.beforePass input queued).runPass_hotspot
    have hnumbered' := (networkStep_handle input).numbered hnumbered
    rw [turn_of_going hended, taken, if_neg hgoes, hotspotClean_congr hon haddresses
      (numbered_beforePass hnumbered input queued) (htimers ▸ .refl), beforePass,
      hotspotClean_queued_iff hnumbered', hhandle]

/-! ## Where the known addresses come from -/

/-- An address of the hotspot is found: on the interfaces of the platform when the delay is over, or where
the networks begin to be followed while the hotspot is on. -/
def Finds (s : Session σ) (input : Input) (a : Address) : Prop :=
  (s.takesFiring .hotspotDebounce input = true ∧
      a ∈ (Hotspot.discover s.world.platform.interfaces).addresses) ∨
    ∃ s₀, s.begins? input = some s₀ ∧ s₀.world.platform.hotspotEnabled = true ∧
      a ∈ (Hotspot.discover s₀.world.platform.interfaces).addresses

/-- An address was found by a message of the past, and the hotspot has been on ever since. -/
def FoundSinceUp (past : List (Session σ × Input)) (a : Address) : Prop :=
  ∃ before x later, past = before ++ x :: later ∧ x.1.Finds x.2 a ∧
    ∀ y ∈ later, y.1.mobility.hotspotOn = true

/-- A hotspot of which an address is known is on, and every known address was found since it came up. -/
def KnowsSinceUp (past : List (Session σ × Input)) (s : Session σ) : Prop :=
  ∀ a ∈ s.mobility.hotspotAddresses.addresses, s.mobility.hotspotOn = true ∧ FoundSinceUp past a

theorem foundSinceUp_concat_iff {input : Input} : FoundSinceUp (past ++ [(s, input)]) a ↔
    s.Finds input a ∨ FoundSinceUp past a ∧ s.mobility.hotspotOn = true := by
  rw [FoundSinceUp, exists_since_concat_iff]
  rfl

/-- The addresses that were known stay known as long as the hotspot stays on. -/
theorem KnowsSinceUp.concat (h : KnowsSinceUp past s) (input : Input)
    (haddresses : s'.mobility.hotspotAddresses = s.mobility.hotspotAddresses)
    (hon : s'.mobility.hotspotOn = s.mobility.hotspotOn) :
    KnowsSinceUp (past ++ [(s, input)]) s' := by
  intro a hknown
  rw [haddresses] at hknown
  obtain ⟨hup, hfound⟩ := h a hknown
  exact ⟨hon.trans hup, foundSinceUp_concat_iff.2 (.inr ⟨hfound, hup⟩)⟩

theorem knowsSinceUp_of_empty (h : s.mobility.hotspotAddresses = .empty) : KnowsSinceUp past s := by
  rw [KnowsSinceUp, h]
  exact List.forall_mem_nil _

theorem KnowsSinceUp.reported (h : KnowsSinceUp past s) (enabled : Bool) :
    KnowsSinceUp (past ++ [(s, .notification (.network (.hotspotChanged enabled)))])
      (s.withNetwork (s.mobility.onHotspotChanged enabled s.timers s.world)) := by
  rcases s.mobility.onHotspotChanged_cases enabled s.timers s.world with
    ⟨-, heq⟩ | ⟨rfl, hoff, heq⟩ | ⟨rfl, -, _, _, _, heq⟩
  · rw [heq]
    exact h.concat _ rfl rfl
  · rw [heq]
    intro a hknown
    -- Nothing is known of a hotspot that comes up, since it was off.
    have hon := (h a hknown).1
    rw [hoff] at hon
    cases hon
  · rw [heq]
    exact knowsSinceUp_of_empty rfl

theorem KnowsSinceUp.debounced (h : KnowsSinceUp past s) {firing : Firing}
    (hfiring : s.takesFiring .hotspotDebounce (.firing firing) = true) (timers : Timers) :
    KnowsSinceUp (past ++ [(s, .firing firing)])
      (s.withNetwork (s.mobility.onHotspotDebounce timers s.world)) := by
  cases hon : s.mobility.hotspotOn with
  | false =>
    rw [Mobility.onHotspotDebounce_off hon]
    exact h.concat _ rfl rfl
  | true =>
    obtain ⟨_, _, -, heq⟩ := Mobility.onHotspotDebounce_on (w := s.world) (t := timers) hon
    rw [heq]
    intro a hknown
    refine ⟨?_, foundSinceUp_concat_iff.2 ?_⟩
    · rw [withNetwork_mobility, Mobility.addHotspot_mobility]
      exact hon
    · rcases Mobility.mem_hotspotAddresses_addHotspot hknown with hold | hoffered
      · exact .inr ⟨(h a hold).2, hon⟩
      · obtain ⟨e, he, rfl⟩ := List.mem_map.1 hoffered
        exact .inl (.inl ⟨hfiring, List.mem_map_of_mem (List.mem_of_mem_filter he)⟩)

/-- Where the networks begin to be followed, what is known is looked up again, or there is nothing. -/
theorem knowsSinceUp_began {input : Input} (hbegins : s.begins? input = some s₀)
    (hsees : s.overlooksHotspot input = false) :
    KnowsSinceUp (past ++ [(s, input)]) s₀.begun := by
  obtain ⟨-, -, hon, haddresses⟩ := s₀.begun_hotspot
  rw [overlooksHotspot, hbegins, Option.any_some, Bool.and_eq_false_iff] at hsees
  cases henabled : s₀.world.platform.hotspotEnabled with
  | true =>
    rw [henabled, if_pos rfl] at haddresses
    intro a hknown
    rw [haddresses] at hknown
    exact ⟨hon.trans henabled, foundSinceUp_concat_iff.2 (.inl (.inr ⟨s₀, hbegins, henabled, hknown⟩))⟩
  | false =>
    have hforgotten : s₀.HotspotForgotten := by
      rcases hsees with hseen | hforgotten
      · rw [henabled] at hseen
        cases hseen
      · simpa using hforgotten
    rw [henabled, if_neg Bool.false_ne_true] at haddresses
    exact knowsSinceUp_of_empty (haddresses.trans hforgotten.1)

/-- **Where the known addresses come from.** As long as no hotspot is overlooked, every known address was
found since the hotspot came up. -/
theorem KnowsSinceUp.handle (h : KnowsSinceUp past s) {input : Input}
    (hsees : s.overlooksHotspot input = false) :
    KnowsSinceUp (past ++ [(s, input)]) (s.handle input) := by
  have hstep := networkStep_handle (s := s) input
  generalize s.handle input = s' at hstep ⊢
  cases hstep with
  | kept _ _ _ hkeeps => exact h.concat input hkeeps.hotspotAddresses hkeeps.hotspotOn
  | reported enabled => exact h.reported enabled
  | debounced hfiring => exact h.debounced hfiring _
  | began hbegins hspares =>
    rw [KnowsSinceUp, hspares.mobility]
    exact knowsSinceUp_began hbegins hsees
  | stopped _ hkeeps =>
    refine h.concat input ?_ ?_
    · rw [hkeeps.hotspotAddresses, halted_mobility]
    · rw [hkeeps.hotspotOn, halted_mobility]

end Session

end Softphone
