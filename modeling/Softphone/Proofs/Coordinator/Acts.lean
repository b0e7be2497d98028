import Softphone.Proofs.Coordinator.Dealt
import Softphone.Proofs.Session.Told
import Softphone.Proofs.Since

/-!
# The acts of a run

A session acts when it deals with a message and when it runs the pass of a turn. Along a run the acts are listed
in order, each with the session that it finds. A property of the acts so far and of the session now holds along
every run if each act keeps it, and everything that passes the session by (`Coordinator.acts_induction`).
-/

namespace Softphone

variable {σ : Type} [Host σ]

namespace Session

variable {s : Session σ}

/-- What a session does at one time. -/
inductive Act
  | message (input : Input)
  | pass
  deriving DecidableEq, Repr

/-- Does it. -/
def act (s : Session σ) : Act → Session σ
  | .message input => s.handle input
  | .pass => s.runPass

/-- The acts of a turn, each with the session that it finds: the messages, and then the pass unless the session
has ended. -/
def acts (input : Input) (queued : List Notification) (s : Session σ) : List (Session σ × Act) :=
  (s.dealt input queued).map (fun x => (x.1, .message x.2)) ++
    if (s.handle input).ended then [] else [(s.beforePass input (s.taken input queued), .pass)]

theorem live_of_mem_dealtQueued (hlive : s.ended = false) (queued : List Notification) :
    ∀ x ∈ dealtQueued queued s, x.1.ended = false := by
  induction queued generalizing s with
  | nil => exact List.forall_mem_nil _
  | cons notification rest ih =>
    have hlater := (handleNotification_ended s notification).trans hlive
    exact List.forall_mem_cons.2 ⟨hlive, ih hlater⟩

/-- A session that has not ended goes through all acts of a turn before it ends. -/
theorem live_of_mem_acts (hlive : s.ended = false) (input : Input) (queued : List Notification) :
    ∀ x ∈ s.acts input queued, x.1.ended = false := by
  have hdealt : ∀ x ∈ s.dealt input queued, x.1.ended = false := by
    refine List.forall_mem_cons.2 ⟨hlive, ?_⟩
    unfold taken
    split
    · exact List.forall_mem_nil _
    · rename_i hgoes
      exact live_of_mem_dealtQueued (Bool.eq_false_iff.2 hgoes) queued
  refine List.forall_mem_append.2 ⟨fun x hx => ?_, ?_⟩
  · obtain ⟨y, hy, rfl⟩ := List.mem_map.1 hx
    exact hdealt y hy
  · split
    · exact List.forall_mem_nil _
    · rename_i hgoes
      rw [List.forall_mem_singleton, taken, if_neg hgoes]
      exact queued_induction (P := fun s' => s'.ended = false)
        (fun notification h => (handleNotification_ended _ notification).trans h)
        (Bool.eq_false_iff.2 hgoes) queued

theorem grows_act (s : Session σ) (act : Act) : s.world.Grows (fun _ => True) (s.act act).world := by
  cases act with
  | message input => exact (keepsTransport_handle input).mono fun _ _ => trivial
  | pass => exact sparesAccount_runPass.world.mono fun _ _ => trivial

variable {P : List (Session σ × Act) → Session σ → Prop} {past : List (Session σ × Act)}

theorem acts_induction (hact : ∀ {past s} act, P past s → P (past ++ [(s, act)]) (s.act act))
    (h : P past s) (input : Input) (queued : List Notification) :
    P (past ++ s.acts input queued) (s.turn input queued) := by
  have hbefore : P (past ++ (s.dealt input queued).map fun x => (x.1, .message x.2))
      (s.beforePass input (s.taken input queued)) := by
    have hnone : P (past ++ List.map (fun x : Session σ × Input => (x.1, .message x.2)) []) s := by
      rwa [List.map_nil, List.append_nil]
    refine dealt_beforePass_induction
      (P := fun dealt s => P (past ++ dealt.map fun x => (x.1, .message x.2)) s) ?_ hnone input queued
    intro dealt s input hdealt
    rw [List.map_append, ← List.append_assoc]
    exact hact (.message input) hdealt
  cases hended : (s.handle input).ended with
  | true =>
    rw [acts, if_pos hended, List.append_nil, turn_of_ended hended]
    exact hbefore
  | false =>
    rw [acts, if_neg (Bool.eq_false_iff.1 hended), turn_of_going hended, ← List.append_assoc]
    exact hact .pass hbefore

end Session

namespace Coordinator

variable {c : Coordinator σ}

/-- The acts of the session while one thing happens. -/
def acts (c : Coordinator σ) (m : Move σ) : List (Session σ × Session.Act) :=
  match c.turn? m with
  | some (input, queued) => c.session.acts input queued
  | none => []

/-- The acts of the session while several things happen in order. -/
def actsAlong : Coordinator σ → List (Move σ) → List (Session σ × Session.Act)
  | _, [] => []
  | c, m :: ms => c.acts m ++ actsAlong (c.move m) ms

/-- A session that acts has not ended. -/
theorem live_of_mem_actsAlong (ms : List (Move σ)) : ∀ x ∈ c.actsAlong ms, x.1.ended = false := by
  induction ms generalizing c with
  | nil => exact List.forall_mem_nil _
  | cons m ms ih =>
    refine List.forall_mem_append.2 ⟨?_, ih⟩
    unfold acts
    split
    · rename_i hturn
      exact Session.live_of_mem_acts (live_of_turn? hturn) _ _
    · exact List.forall_mem_nil _

variable {P : List (Session σ × Session.Act) → Session σ → Prop} {past : List (Session σ × Session.Act)}

theorem acts_move (haside : ∀ {past s s'}, s.Aside s' → P past s → P past s')
    (hact : ∀ {past s} act, P past s → P (past ++ [(s, act)]) (s.act act)) (h : P past c.session)
    (m : Move σ) : P (past ++ c.acts m) (c.move m).session := by
  rcases move_cases c m with ⟨input, queued, hturn, hmove⟩ | ⟨hnone, hmove⟩
  · have hacts : c.acts m = c.session.acts input queued := by
      rw [acts, hturn]
    rw [hacts]
    exact haside hmove (Session.acts_induction hact h input queued)
  · rw [acts, hnone, List.append_nil]
    exact haside hmove h

/-- What holds before anything was done, and is kept by every act and by everything that passes the session by,
holds of the acts of a run and of its session. -/
theorem acts_induction (haside : ∀ {past s s'}, s.Aside s' → P past s → P past s')
    (hact : ∀ {past s} act, P past s → P (past ++ [(s, act)]) (s.act act)) (h : P [] c.session)
    (ms : List (Move σ)) : P (c.actsAlong ms) (c.runMoves ms).session := by
  -- The induction is on the moves still to come, so what was done before them is any past.
  suffices hrun : ∀ {c : Coordinator σ} past, P past c.session →
      P (past ++ c.actsAlong ms) (c.runMoves ms).session from hrun [] h
  induction ms with
  | nil =>
    intro c past hpast
    rw [actsAlong, List.append_nil]
    exact hpast
  | cons m ms ih =>
    intro c past hpast
    rw [actsAlong, ← List.append_assoc]
    exact ih _ (acts_move (P := P) haside hact hpast m)

/-- The induction over the acts of a run, where an act need only be looked at in a session that has not
ended. -/
theorem live_acts_induction (haside : ∀ {past s s'}, s.Aside s' → P past s → P past s')
    (hact : ∀ {past s} act, s.ended = false → P past s → P (past ++ [(s, act)]) (s.act act))
    (h : P [] c.session) (ms : List (Move σ)) : P (c.actsAlong ms) (c.runMoves ms).session := by
  refine acts_induction (P := fun past s => (∀ x ∈ past, x.1.ended = false) → P past s)
    (fun haside' hpast hlive => haside haside' (hpast hlive)) ?_ (fun _ => h) ms
    (live_of_mem_actsAlong ms)
  intro past s act hpast hlive
  obtain ⟨hbefore, hnow⟩ := List.forall_mem_append.1 hlive
  exact hact act (hnow _ (List.mem_singleton_self _)) (hpast hbefore)

/-- What the induction over the acts gives holds whenever the session acts, of the acts before. -/
theorem live_acts_each (haside : ∀ {past s s'}, s.Aside s' → P past s → P past s')
    (hact : ∀ {past s} act, s.ended = false → P past s → P (past ++ [(s, act)]) (s.act act))
    (h : P [] c.session) (ms : List (Move σ)) :
    EachAfter (fun before x => P before x.1) (c.actsAlong ms) := by
  have hrun : P (c.actsAlong ms) (c.runMoves ms).session ∧
      EachAfter (fun before x => P before x.1) (c.actsAlong ms) := by
    refine live_acts_induction
      (P := fun past s => P past s ∧ EachAfter (fun before x => P before x.1) past) ?_ ?_ ⟨h, .nil⟩ ms
    · rintro past s s' haside' ⟨hs, hpast⟩
      exact ⟨haside haside' hs, hpast⟩
    · rintro past s act hlive ⟨hs, hpast⟩
      exact ⟨hact act hlive hs, eachAfter_concat_iff.2 ⟨hpast, hs⟩⟩
  exact hrun.2

end Coordinator

end Softphone
