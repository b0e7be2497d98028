import Softphone.Proofs.Audio.Playing

/-!
# What sounds

A player has the device play and stop, and takes note of a busy tone that has ended: these are its cues. What
sounds is read off the cues alone. Each cue takes what is noted as playing from one thing to the next
(`Cue.Takes`), and everything that is done with a player is a course of such cues, one after the other. So
one thing sounds at a time, and what is noted is what sounds (`Player.one_sounds`).
-/

namespace Softphone

/-! ## Cues -/

/-- What one can observe of a player: it has the device do something, or it ends the busy tone. -/
inductive Cue
  | effect (e : Effect)
  | busyEnded
  deriving DecidableEq

namespace Cue

variable {cues xs ys : List Cue} {x : Cue} {tone : Tone}

/-- Whether the ringtone sounds: it does from a start on until it is stopped. -/
def RingtoneSounds (cues : List Cue) : Prop :=
  ∃ before cue later, cues = before ++ cue :: later ∧ (∃ looping, cue = effect (.startRingtone looping)) ∧
    ∀ x ∈ later, x ≠ effect .stopRingtone

/-- Whether a tone sounds: it does from when it was started until tones are stopped, or one has ended. -/
def ToneSounds (tone : Tone) (cues : List Cue) : Prop :=
  ∃ before cue later, cues = before ++ cue :: later ∧
    (∃ resource looping, cue = effect (.playTone tone resource looping true)) ∧
    ∀ x ∈ later, x ≠ effect .stopTone ∧ x ≠ busyEnded

theorem ringtoneSounds_concat_iff : RingtoneSounds (cues ++ [x]) ↔
    (∃ looping, x = effect (.startRingtone looping)) ∨ RingtoneSounds cues ∧ x ≠ effect .stopRingtone := by
  rw [RingtoneSounds, exists_since_concat_iff]
  exact Iff.rfl

theorem toneSounds_concat_iff : ToneSounds tone (cues ++ [x]) ↔
    (∃ resource looping, x = effect (.playTone tone resource looping true)) ∨
      ToneSounds tone cues ∧ x ≠ effect .stopTone ∧ x ≠ busyEnded := by
  rw [ToneSounds, exists_since_concat_iff]
  exact Iff.rfl

/-- What sounds, and what does not, when a cue comes. A tone may turn out not to play, but it is not tried
either while something sounds. -/
def Timely (before : List Cue) : Cue → Prop
  | effect (.startRingtone _) => ∀ tone, ¬ToneSounds tone before
  | effect .stopRingtone => RingtoneSounds before
  | effect (.playTone ..) => ¬RingtoneSounds before ∧ ∀ tone, ¬ToneSounds tone before
  | effect .stopTone => ∃ tone, ToneSounds tone before
  | busyEnded => ToneSounds .busy before
  | _ => True

/-- The ringtone and a tone do not sound together if every cue was timely. -/
theorem not_both (h : EachAfter Timely cues) : ¬(RingtoneSounds cues ∧ ToneSounds tone cues) := by
  induction cues using List.reverseRecOn with
  | nil =>
    rintro ⟨⟨before, cue, later, heq, -⟩, -⟩
    cases before <;> cases heq
  | append_singleton cues x ih =>
    obtain ⟨hcues, hx⟩ := eachAfter_concat_iff.1 h
    rw [ringtoneSounds_concat_iff, toneSounds_concat_iff]
    -- Whichever of the two begins last is timely, so the other does not sound by then.
    rintro ⟨⟨looping, rfl⟩ | ⟨hringtone, -⟩, ⟨resource, looping', hplay⟩ | ⟨htone, -⟩⟩
    · cases hplay
    · exact hx tone htone
    · subst hplay
      exact hx.1 hringtone
    · exact ih hcues ⟨hringtone, htone⟩

/-! ## What is noted as playing -/

/-- What a cue takes for granted to be noted as playing, and what is noted after it. -/
inductive Takes : Cue → Option Playing → Option Playing → Prop
  | ring {active : Option Playing} (looping : Bool)
    (h : ∀ playing, active = some playing → playing = .ringtone) :
    Takes (effect (.startRingtone looping)) active (some .ringtone)
  | hush : Takes (effect .stopRingtone) (some .ringtone) none
  | play (tone : Tone) (resource : String) (looping : Bool) :
    Takes (effect (.playTone tone resource looping true)) none (some (Player.playingOf tone))
  | fail (tone : Tone) (resource : String) (looping : Bool) :
    Takes (effect (.playTone tone resource looping false)) none none
  | stop (tone : Tone) : Takes (effect .stopTone) (some (Player.playingOf tone)) none
  | finish : Takes busyEnded (some .busy) none
  | vibrate {active : Option Playing} (ms : Nat) : Takes (effect (.vibrate ms)) active active
  | calm {active : Option Playing} : Takes (effect .cancelVibration) active active

/-- One cue after the other takes what is noted from the first to the last. -/
inductive Course : Option Playing → List Cue → Option Playing → Prop
  | nil {active : Option Playing} : Course active [] active
  | cons {active active' active'' : Option Playing} {x : Cue} {xs : List Cue} (hx : Takes x active active')
    (h : Course active' xs active'') : Course active (x :: xs) active''

variable {active active' active'' : Option Playing}

theorem Course.single (hx : Takes x active active') : Course active [x] active' := .cons hx .nil

theorem Course.append (h : Course active xs active') (h' : Course active' ys active'') :
    Course active (xs ++ ys) active'' := by
  induction h with
  | nil => exact h'
  | cons hx _ ih => exact .cons hx (ih h')

/-- What is noted as playing is what sounds, and every cue so far was timely. -/
structure Faithful (active : Option Playing) (cues : List Cue) : Prop where
  ringtone : active = some .ringtone ↔ RingtoneSounds cues
  tone : ∀ tone, active = some (Player.playingOf tone) ↔ ToneSounds tone cues
  timely : EachAfter Timely cues

namespace Faithful

theorem nil : Faithful none [] where
  ringtone := by
    refine ⟨nofun, ?_⟩
    rintro ⟨before, cue, later, heq, -⟩
    cases before <;> cases heq
  tone tone := by
    refine ⟨nofun, ?_⟩
    rintro ⟨before, cue, later, heq, -⟩
    cases before <;> cases heq
  timely := .nil

/-- Nothing sounds when nothing is noted. -/
theorem silent (h : Faithful none cues) : ¬RingtoneSounds cues ∧ ∀ tone, ¬ToneSounds tone cues :=
  ⟨fun hsounds => (nomatch h.ringtone.2 hsounds), fun tone hsounds => (nomatch (h.tone tone).2 hsounds)⟩

/-- A cue finds what it takes for granted. -/
theorem timely_of_takes (h : Faithful active cues) (hx : Takes x active active') : Timely cues x := by
  cases hx with
  | ring looping hringtone =>
    intro tone hsounds
    have hnoted := hringtone _ ((h.tone tone).2 hsounds)
    cases tone <;> cases hnoted
  | hush => exact h.ringtone.1 rfl
  | play | fail => exact h.silent
  | stop tone => exact ⟨tone, (h.tone tone).1 rfl⟩
  | finish => exact (h.tone .busy).1 rfl
  | vibrate | calm => trivial

theorem concat (h : Faithful active cues) (hx : Takes x active active') :
    Faithful active' (cues ++ [x]) where
  ringtone := by
    rw [ringtoneSounds_concat_iff, ← h.ringtone]
    cases hx with
    | ring | hush | fail | finish | vibrate | calm => simp
    | play tone | stop tone => cases tone <;> simp [Player.playingOf]
  tone tone := by
    rw [toneSounds_concat_iff, ← h.tone tone]
    cases hx with
    | ring looping hringtone =>
      have hother : active ≠ some (Player.playingOf tone) := fun hnoted => by
        have hsame := hringtone _ hnoted
        cases tone <;> cases hsame
      cases tone <;> simpa [Player.playingOf] using hother
    | play other | stop other => cases tone <;> cases other <;> simp [Player.playingOf]
    | hush | fail | finish | vibrate | calm => cases tone <;> simp [Player.playingOf]
  timely := eachAfter_concat_iff.2 ⟨h.timely, h.timely_of_takes hx⟩

theorem append (h : Faithful active cues) (hxs : Course active xs active') :
    Faithful active' (cues ++ xs) := by
  induction hxs generalizing cues with
  | nil => rwa [List.append_nil]
  | cons hx _ ih =>
    rw [List.append_cons]
    exact ih (h.concat hx)

end Faithful

end Cue

/-! ## What a player does -/

namespace Player

variable {σ : Type} {p p' p'' : Player} {timers : Timers} {w w' w'' : World σ} {e : Effect} {host : σ}

/-- The player has acted on the device by a course of cues. -/
def Plays (p : Player) (w : World σ) (p' : Player) (w' : World σ) : Prop :=
  ∃ es, w'.trace = w.trace ++ es ∧ Cue.Course p.active (es.map .effect) p'.active

namespace Plays

theorem of_active (h : p'.active = p.active) : p.Plays w p' w := by
  refine ⟨[], (List.append_nil _).symm, ?_⟩
  rw [h]
  exact .nil

theorem moveTo (h : Cue.Takes (.effect e) p.active p'.active) : p.Plays w p' (w.moveTo host e) :=
  ⟨[e], World.trace_moveTo, .single h⟩

theorem trans (h : p.Plays w p' w') (h' : p'.Plays w' p'' w'') : p.Plays w p'' w'' := by
  obtain ⟨es, htrace, hes⟩ := h
  obtain ⟨es', htrace', hes'⟩ := h'
  refine ⟨es ++ es', by rw [htrace', htrace, List.append_assoc], ?_⟩
  rw [List.map_append]
  exact hes.append hes'

end Plays

section Operations

variable [ToneDevice σ]

theorem plays_startRinging :
    p.Plays w (p.startRinging timers w).1 (p.startRinging timers w).2.2 := by
  unfold startRinging
  split
  · exact .of_active rfl
  · rename_i hnone
    exact .moveTo (.ring _ fun playing hplays => absurd (hplays ▸ rfl) hnone)

theorem plays_stopRinging : p.Plays w (p.stopRinging timers w).1 (p.stopRinging timers w).2.2 := by
  unfold stopRinging
  dsimp only
  generalize hcalmed : (if Timers.isActive _ _ then w.cancelVibration else w) = calmed
  have hcalm : p.Plays w p calmed := by
    subst hcalmed
    split
    · exact .moveTo .calm
    · exact .of_active rfl
  split
  · rename_i hrings
    refine hcalm.trans (.moveTo ?_)
    rw [hrings]
    exact .hush
  · exact hcalm

theorem plays_onRestartTick : p.Plays w p (p.onRestartTick w) := by
  unfold onRestartTick
  split
  · rename_i hended
    rw [Bool.and_eq_true, decide_eq_true_iff] at hended
    refine .moveTo ?_
    rw [hended.1]
    exact .ring _ fun playing hplays => (Option.some.inj hplays).symm
  · exact .of_active rfl

theorem plays_onVibrateTick : p.Plays w p (p.onVibrateTick w) := by
  unfold onVibrateTick
  split
  · exact .moveTo (.vibrate _)
  · exact .of_active rfl

theorem plays_play (tone : Tone) (looping : Bool) :
    p.Plays w (p.play tone looping w).1 (p.play tone looping w).2 := by
  unfold play
  cases hactive : p.active with
  | some playing => exact .of_active rfl
  | none =>
    simp only [Option.isSome_none, Bool.false_eq_true, if_false]
    refine ⟨[.playTone tone _ looping (w.playTone tone _ looping).1], World.trace_moveTo, ?_⟩
    rw [hactive]
    cases (w.playTone tone (tone.resource p.settings.toneCountry) looping).1 with
    | true => exact .single (.play _ _ _)
    | false =>
      simp only [Bool.false_eq_true, if_false, hactive]
      exact .single (.fail _ _ _)

theorem plays_stopTone : p.Plays w (p.stopTone w).1 (p.stopTone w).2 := by
  unfold stopTone
  split
  · rename_i hplays
    refine .moveTo ?_
    rcases hplays with hplays | hplays
    · rw [hplays]
      exact .stop .ringback
    · rw [hplays]
      exact .stop .busy
  · exact .of_active rfl

/-- Nothing is left to stop behind the ringing and the tones. -/
theorem stopTone_stopRinging_active : ((p.stopRinging timers w).1.stopTone w').1.active = none := by
  rw [stopTone_active, stopRinging_active]
  obtain hactive | hactive | hactive | hactive :
      p.active = none ∨ p.active = some .ringtone ∨ p.active = some .ringback ∨ p.active = some .busy := by
    rcases p.active with _ | _ | _ | _ <;> simp
  all_goals simp [hactive]

theorem plays_stopAll : p.Plays w (p.stopAll timers w).1 (p.stopAll timers w).2.2 :=
  (plays_stopRinging.trans plays_stopTone).trans (.of_active stopTone_stopRinging_active.symm)

theorem plays_onToneFinished :
    Cue.Course p.active (if p.onToneFinished.1 then [.busyEnded] else []) p.onToneFinished.2.active := by
  unfold onToneFinished
  split
  · rename_i hbusy
    rw [hbusy]
    exact .single .finish
  · exact .nil

end Operations

/-! ## One player -/

/-- A player at work on a device, and the cues it has given so far. -/
structure Stage (σ : Type) where
  player : Player
  timers : Timers
  world : World σ
  cues : List Cue := []

/-- What is done with a player, and what may happen to its surroundings meanwhile. -/
inductive Operation (σ : Type)
  | startRinging
  | stopRinging
  | restartTick
  | vibrateTick
  | playRingback
  | playBusy
  | stopTone
  | toneFinished
  | stopAll
  /-- The timers and the host are others than before. -/
  | meanwhile (timers : Timers) (host : σ)

namespace Stage

variable {s : Stage σ}

/-- A new player on a device. -/
def new (settings : AudioSettings) (timers : Timers) (world : World σ) : Stage σ :=
  { player := { settings }, timers, world }

/-- The stage after its player has acted on the device. -/
def acted (s : Stage σ) (player : Player) (timers : Timers) (world : World σ) : Stage σ :=
  ⟨player, timers, world, s.cues ++ (world.since s.world).map .effect⟩

/-- What the cues of a stage tell is what its player notes. -/
def IsFaithful (s : Stage σ) : Prop := Cue.Faithful s.player.active s.cues

theorem isFaithful_new (settings : AudioSettings) (timers : Timers) (w : World σ) :
    (new settings timers w).IsFaithful := Cue.Faithful.nil

theorem IsFaithful.acted (h : s.IsFaithful) (hplays : s.player.Plays s.world p w) (timers : Timers) :
    (s.acted p timers w).IsFaithful := by
  obtain ⟨es, htrace, hes⟩ := hplays
  unfold IsFaithful Stage.acted
  dsimp only
  rw [World.since_eq htrace]
  exact Cue.Faithful.append h hes

section Run

variable [ToneDevice σ]

def perform (s : Stage σ) : Operation σ → Stage σ
  | .startRinging =>
    let (p, timers, w) := s.player.startRinging s.timers s.world
    s.acted p timers w
  | .stopRinging =>
    let (p, timers, w) := s.player.stopRinging s.timers s.world
    s.acted p timers w
  | .restartTick => s.acted s.player s.timers (s.player.onRestartTick s.world)
  | .vibrateTick => s.acted s.player s.timers (s.player.onVibrateTick s.world)
  | .playRingback =>
    let (p, w) := s.player.playRingback s.world
    s.acted p s.timers w
  | .playBusy =>
    let (_, p, w) := s.player.playBusy s.world
    s.acted p s.timers w
  | .stopTone =>
    let (p, w) := s.player.stopTone s.world
    s.acted p s.timers w
  | .toneFinished =>
    let (ended, p) := s.player.onToneFinished
    { s with player := p, cues := s.cues ++ if ended then [.busyEnded] else [] }
  | .stopAll =>
    let (p, timers, w) := s.player.stopAll s.timers s.world
    s.acted p timers w
  | .meanwhile timers host => { s with timers, world := s.world.within host }

/-- A run of operations, from the first to the last. -/
def run (s : Stage σ) (operations : List (Operation σ)) : Stage σ := operations.foldl perform s

theorem IsFaithful.perform (h : s.IsFaithful) (operation : Operation σ) :
    (s.perform operation).IsFaithful := by
  cases operation with
  | startRinging => exact h.acted plays_startRinging _
  | stopRinging => exact h.acted plays_stopRinging _
  | restartTick => exact h.acted plays_onRestartTick _
  | vibrateTick => exact h.acted plays_onVibrateTick _
  | playRingback => exact h.acted (plays_play _ _) _
  | playBusy => exact h.acted (plays_play _ _) _
  | stopTone => exact h.acted plays_stopTone _
  | toneFinished => exact Cue.Faithful.append h plays_onToneFinished
  | stopAll => exact h.acted plays_stopAll _
  | meanwhile timers host => exact h

theorem IsFaithful.run (h : s.IsFaithful) (operations : List (Operation σ)) :
    (s.run operations).IsFaithful := by
  induction operations generalizing s with
  | nil => exact h
  | cons operation operations ih => exact ih (h.perform operation)

end Run

end Stage

/-- One thing sounds at a time, and the player names it. -/
structure OneSounds (s : Stage σ) : Prop where
  /-- At no time have the ringtone and a tone sounded together. -/
  alone : ∀ before tone, before <+: s.cues → ¬(Cue.RingtoneSounds before ∧ Cue.ToneSounds tone before)
  timely : EachAfter Cue.Timely s.cues
  ringtone : s.player.active = some .ringtone ↔ Cue.RingtoneSounds s.cues
  tone : ∀ tone, s.player.active = some (playingOf tone) ↔ Cue.ToneSounds tone s.cues
  silence : s.player.active = none ↔
    ¬Cue.RingtoneSounds s.cues ∧ ∀ tone, ¬Cue.ToneSounds tone s.cues

theorem oneSounds_of_faithful {s : Stage σ} (h : s.IsFaithful) : OneSounds s where
  alone before tone hbefore := by
    obtain ⟨later, hcues⟩ := hbefore
    exact Cue.not_both (EachAfter.of_append (hcues ▸ h.timely))
  timely := h.timely
  ringtone := h.ringtone
  tone := h.tone
  silence := by
    refine ⟨fun hnone => Cue.Faithful.silent (hnone ▸ h), fun ⟨hringtone, htone⟩ => ?_⟩
    rw [← h.ringtone] at hringtone
    simp only [← h.tone] at htone
    match hactive : s.player.active with
    | none => rfl
    | some .ringtone => exact absurd hactive hringtone
    | some .ringback => exact absurd hactive (htone .ringback)
    | some .busy => exact absurd hactive (htone .busy)

/-- **One player at a time.** Whatever is done with a player, in whatever order and on whatever device, the
ringtone and a tone never sound together, neither is begun while the other sounds, neither is stopped unless
it sounds, and what is noted as playing is what sounds. -/
theorem one_sounds [ToneDevice σ] (settings : AudioSettings) (timers : Timers) (w : World σ)
    (operations : List (Operation σ)) :
    OneSounds ((Stage.new settings timers w).run operations) :=
  oneSounds_of_faithful ((Stage.isFaithful_new settings timers w).run operations)

end Player

end Softphone
