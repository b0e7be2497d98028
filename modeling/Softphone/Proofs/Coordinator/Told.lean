import Softphone.Proofs.Session.Told

/-!
# The published registration along a run

Throughout a run the state of the registration is the one that was published last, exactly if the
coordinator never takes a request to sign in that releases an agent (`Coordinator.told_throughout_iff`).
-/

namespace Softphone.Coordinator

variable {σ : Type} {c : Coordinator σ}

/-- The coordinator takes a request to sign in, which releases an agent and changes the state. -/
def replacesUntold (c : Coordinator σ) (m : Move σ) : Bool :=
  match c.turn? m with
  | some (.command _ (.signIn account), _) => c.session.replacesUntold account
  | _ => false

theorem replacesUntold_turn {m : Move σ} {input : Input} {queued : List Notification}
    (h : c.turn? m = some (input, queued)) : c.replacesUntold m = false ↔
      ∀ ticket account, input = .command ticket (.signIn account) →
        c.session.replacesUntold account = false := by
  unfold replacesUntold
  rw [h]
  split
  · rename_i ticket account _ heq
    obtain ⟨rfl, rfl⟩ := Prod.mk.inj (Option.some.inj heq)
    constructor
    · rintro hspares ticket' other hother
      cases hother
      exact hspares
    · exact fun hspares => hspares ticket account rfl
  · rename_i hother
    refine iff_of_true rfl fun ticket account heq => ?_
    subst heq
    exact absurd rfl (hother ticket account queued)

variable [Host σ]

theorem told_move_iff (m : Move σ) (h : c.session.Told) :
    (c.move m).session.Told ↔ c.replacesUntold m = false := by
  rcases move_cases c m with ⟨input, queued, hturn, hmove⟩ | ⟨hnone, hmove⟩
  · rw [hmove.spares.account.told_iff, replacesUntold_turn hturn]
    exact Session.told_turn_iff h input queued
  · rw [hmove.spares.account.told_iff]
    refine iff_of_true h ?_
    unfold replacesUntold
    rw [hnone]

/-- **When the application knows the state of the registration.** Throughout a run of any moves it is the
state that was published last, or none as long as none was published, exactly if no move of the run signs
in and releases an agent whose state was another than cleared. -/
theorem told_throughout_iff {config : Config} {host : σ} (hstart : start config host = .ok c)
    (ms : List (Move σ)) :
    (∀ k, (c.runMoves (ms.take k)).session.Told) ↔
      ∀ k m, ms[k]? = some m → (c.runMoves (ms.take k)).replacesUntold m = false := by
  refine throughout_iff (P := fun c => c.session.Told) told_move_iff ?_ ms
  rw [session_of_start hstart]
  exact rfl

/-- An account signs in and is registered. -/
def registered : List (Move Bench) :=
  [.ask ⟨0⟩ (.signIn bob), .loop, .report ⟨1⟩ (.registration .registered), .loop]

/-- The account signs in once more. -/
def signedInTwice : List (Move Bench) := registered ++ [.ask ⟨2⟩ (.signIn bob), .loop]

/-- The registration is given up before the account signs in once more. -/
def signedInAgain : List (Move Bench) :=
  registered ++ [.ask ⟨2⟩ .unregister, .loop, .ask ⟨3⟩ (.signIn bob), .loop]

/-- The account that has signed in twice is cleared, and the application takes it for registered. -/
theorem signedInTwice_untold : start {} ({} : Bench) = .ok onBench ∧
    (¬ ∀ k, (onBench.runMoves (signedInTwice.take k)).session.Told) ∧
    (onBench.runMoves signedInTwice).session.registration.state = .cleared ∧
    (onBench.runMoves signedInTwice).session.world.published? = some .ok := by
  refine ⟨start_onBench, fun h => ?_, by decide, by decide⟩
  have htold := h 6
  unfold Session.Told at htold
  revert htold
  decide

/-- Where the registration was given up first, the application is told of it. -/
theorem told_throughout_signedInAgain : start {} ({} : Bench) = .ok onBench ∧
    (onBench.runMoves signedInAgain).session.world.published? = some .cleared ∧
    ∀ k, (onBench.runMoves (signedInAgain.take k)).session.Told := by
  have hspares : ∀ k : Fin signedInAgain.length,
      (onBench.runMoves (signedInAgain.take k)).replacesUntold signedInAgain[k] = false := by decide
  refine ⟨start_onBench, by decide, ?_⟩
  refine (told_throughout_iff start_onBench signedInAgain).2 fun k m hm => ?_
  obtain ⟨hk, rfl⟩ := List.getElem?_eq_some_iff.1 hm
  exact hspares ⟨k, hk⟩

end Softphone.Coordinator
