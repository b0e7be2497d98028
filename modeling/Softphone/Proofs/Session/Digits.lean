import Mathlib.Data.List.Basic
import Softphone.Proofs.Coordinator.Run

/-!
# Digits during a call

A text is looked at before anything is done: it must have a digit and nothing else. Then its digits are sent during
the current call, one after another, up to the first that the engine refuses, and nothing else is touched
(`Session.digits_sent_exactly`).
-/

namespace Softphone

variable {σ : Type}

namespace Digits

/-- The keys of a telephone, and the four letters beside them. -/
def keys : List Char := "0123456789*#ABCD".toList

/-- A text may be sent if it has keys only, and one at least. -/
def Sendable (digits : String) : Prop := digits ≠ "" ∧ ∀ c ∈ digits.toList, c ∈ keys

/-- Why a text may not be sent. -/
inductive Objection (digits : String) : String → Prop
  | empty (h : digits = "") : Objection digits "must not be empty"
  /-- The first character that is no key is named. -/
  | other {before later : List Char} {c : Char} (h : digits.toList = before ++ c :: later)
    (hbefore : ∀ d ∈ before, d ∈ keys) (hc : c ∉ keys) :
    Objection digits ("'" ++ String.singleton c ++ "' is not a DTMF digit")

theorem isDigit_iff {c : Char} : isDigit c = true ↔ c ∈ keys := by
  have hkeys : keys =
    ['0', '1', '2', '3', '4', '5', '6', '7', '8', '9', '*', '#', 'A', 'B', 'C', 'D'] := rfl
  simp only [hkeys, isDigit, Bool.or_eq_true, Bool.and_eq_true, decide_eq_true_eq, beq_iff_eq, List.mem_cons,
    List.not_mem_nil, or_false, Char.le_def, Char.ext_iff, ← UInt32.toNat_inj, UInt32.le_iff_toNat_le,
    Char.reduceVal, UInt32.reduceToNat]
  omega

/-- A check passes what may be sent, and objects to everything else. -/
theorem check_cases (digits : String) :
    (Sendable digits ∧ check digits = .ok ()) ∨
      (¬ Sendable digits ∧ ∃ message, Objection digits message ∧
        check digits = .error (.invalidArgument "digits" message)) := by
  unfold check
  by_cases hempty : digits = ""
  · rw [if_pos hempty]
    exact .inr ⟨fun h => h.1 hempty, _, .empty hempty, rfl⟩
  · rw [if_neg hempty]
    cases hfind : digits.toList.find? (!isDigit ·) with
    | none =>
      have hall : ∀ c ∈ digits.toList, c ∈ keys := by
        simpa [isDigit_iff] using hfind
      exact .inl ⟨⟨hempty, hall⟩, rfl⟩
    | some c =>
      obtain ⟨hc, before, later, heq, hbefore⟩ := List.find?_eq_some_iff_append.1 hfind
      have hbad : c ∉ keys := by
        rw [← isDigit_iff, Bool.not_eq_true, ← Bool.not_eq_true']
        exact hc
      have hgood : ∀ d ∈ before, d ∈ keys := by
        simpa [isDigit_iff] using hbefore
      refine .inr ⟨fun h => hbad (h.2 c ?_), _, .other heq hgood hbad, rfl⟩
      rw [heq]
      exact List.mem_append_right _ List.mem_cons_self

end Digits

namespace World

variable [Engine σ] {w : World σ} {call : CallHandle} {digits : List Char}

/-- The world after the engine was given some digits in order, whatever it made of each. -/
def withDigits (w : World σ) (call : CallHandle) (digits : List Char) : World σ :=
  digits.foldl (fun w digit => (w.sendDigit call digit).2) w

/-- The engine accepts each of some digits when it is given them in order. -/
def AcceptsDigits (w : World σ) (call : CallHandle) (digits : List Char) : Prop :=
  EachAfter (fun sent digit => ((w.withDigits call sent).sendDigit call digit).1 = true) digits

/-- What comes of sending digits one after another: all are sent, or those up to the first that the engine
refuses. -/
inductive SendsDigits (w : World σ) (call : CallHandle) (digits : List Char) : Bool × World σ → Prop
  | all (haccepted : w.AcceptsDigits call digits)
    (htrace : (w.withDigits call digits).trace = w.trace ++ digits.map (.sendDigit call · true)) :
    SendsDigits w call digits (true, w.withDigits call digits)
  | refused {sent rest : List Char} {digit : Char} (hdigits : digits = sent ++ digit :: rest)
    (haccepted : w.AcceptsDigits call sent)
    (hrefused : ((w.withDigits call sent).sendDigit call digit).1 = false)
    (htrace : (w.withDigits call (sent ++ [digit])).trace =
      w.trace ++ sent.map (.sendDigit call · true) ++ [.sendDigit call digit false]) :
    SendsDigits w call digits (false, w.withDigits call (sent ++ [digit]))

theorem withDigits_concat (w : World σ) (call : CallHandle) (digits : List Char) (digit : Char) :
    w.withDigits call (digits ++ [digit]) = ((w.withDigits call digits).sendDigit call digit).2 :=
  List.foldl_concat ..

theorem trace_withDigits_concat : (w.withDigits call (digits ++ [digit])).trace =
    (w.withDigits call digits).trace ++
      [.sendDigit call digit ((w.withDigits call digits).sendDigit call digit).1] := by
  rw [withDigits_concat]
  exact trace_moveTo

theorem AcceptsDigits.trace (h : w.AcceptsDigits call digits) :
    (w.withDigits call digits).trace = w.trace ++ digits.map (.sendDigit call · true) := by
  induction digits using List.reverseRecOn with
  | nil => exact (List.append_nil _).symm
  | append_singleton digits digit ih =>
    obtain ⟨hbefore, haccepted⟩ := eachAfter_concat_iff.1 h
    rw [trace_withDigits_concat, ih hbefore, haccepted, List.map_append, List.append_assoc]
    rfl

/-- All are sent exactly if the engine accepts each of them. -/
theorem SendsDigits.fst_iff {r : Bool × World σ} (h : w.SendsDigits call digits r) :
    r.1 = true ↔ w.AcceptsDigits call digits := by
  cases h with
  | all haccepted => exact iff_of_true rfl haccepted
  | refused hdigits _ hrefused =>
    refine iff_of_false Bool.false_ne_true fun haccepted => ?_
    cases hrefused.symm.trans (haccepted _ _ _ hdigits)

end World

namespace Session

section

variable [Engine σ]

/-- Digits go on being sent after some were accepted. -/
theorem sendEach_after {w : World σ} {call : CallHandle} {sent : List Char} (hsent : w.AcceptsDigits call sent)
    (rest : List Char) :
    w.SendsDigits call (sent ++ rest) (sendEach call rest (w.withDigits call sent)) := by
  induction rest generalizing sent with
  | nil =>
    rw [List.append_nil]
    exact .all hsent hsent.trace
  | cons digit rest ih =>
    rw [sendEach]
    cases haccepted : ((w.withDigits call sent).sendDigit call digit).1 with
    | true =>
      rw [if_pos rfl, List.append_cons, ← World.withDigits_concat]
      exact ih (eachAfter_concat_iff.2 ⟨hsent, haccepted⟩)
    | false =>
      rw [if_neg Bool.false_ne_true, ← World.withDigits_concat]
      refine .refused rfl hsent haccepted ?_
      rw [World.trace_withDigits_concat, hsent.trace, haccepted]

/-- What comes of a request to send digits. -/
structure SendsExactly (s : Session σ) (digits : String) (r : Except SessionError Bool × Session σ) : Prop where
  /-- What may not be sent is objected to, whether a call is current or not. -/
  objected (h : ¬ Digits.Sendable digits) : ∃ message, Digits.Objection digits message ∧
    r = (.error (.invalidArgument "digits" message), s)
  withoutCall (h : Digits.Sendable digits) (hnone : s.currentLive? = none) : r = (.error .noCurrentCall, s)
  sent (h : Digits.Sendable digits) {call : Call} (hcall : s.currentLive? = some call) :
    ∃ accepted world, r = (.ok accepted, { s with world }) ∧
      s.world.SendsDigits call.handle digits.toList (accepted, world) ∧
      (accepted = true ↔ s.world.AcceptsDigits call.handle digits.toList)

theorem sendsExactly_sendDigits (s : Session σ) (digits : String) :
    s.SendsExactly digits (s.sendDigits digits) := by
  unfold sendDigits
  rcases Digits.check_cases digits with ⟨hsendable, hcheck⟩ | ⟨hbad, message, hobjection, hcheck⟩
  · rw [hcheck]
    dsimp only
    refine ⟨fun hbad => absurd hsendable hbad, fun _ hnone => ?_, fun _ call hcall => ?_⟩
    · rw [withCurrent, hnone]
    · rw [withCurrent, hcall]
      have hsends : s.world.SendsDigits call.handle digits.toList
          (sendEach call.handle digits.toList s.world) := sendEach_after .nil digits.toList
      exact ⟨_, _, rfl, hsends, hsends.fst_iff⟩
  · rw [hcheck]
    exact ⟨fun _ => ⟨message, hobjection, rfl⟩, fun h => absurd h hbad, fun h => absurd h hbad⟩

end

/-- **Digits are sent as far as the engine accepts them.** Whatever is current and whatever the engine does, the
request comes to an objection, to the lack of a call, or to digits sent in order up to the first that is refused;
then it is answered, and nothing else is done. -/
theorem digits_sent_exactly [Host σ] (s : Session σ) (ticket : Ticket) (digits : String) :
    s.SendsExactly digits (s.sendDigits digits) ∧
      s.handle (.command ticket (.sendDigits digits)) =
        (s.sendDigits digits).2.reply ticket (.success (s.sendDigits digits).1) :=
  ⟨sendsExactly_sendDigits s digits, rfl⟩

end Session

namespace Coordinator

/-- A call comes in, and then the engine refuses one digit. -/
def refusingDigit : List (Move Bench) :=
  [.ask ⟨0⟩ (.signIn bob), .loop] ++ reported 1 .incoming ++ [.surroundings { engine.refusals := [.digit '2'] }]

example : ((onBench.runMoves refusingDigit).session.sendDigits "12#").1 = .ok false ∧
    ((onBench.runMoves refusingDigit).session.sendDigits "12#").2.world.since
      (onBench.runMoves refusingDigit).session.world =
        [.sendDigit ⟨1⟩ '1' true, .sendDigit ⟨1⟩ '2' false] := by
  decide

end Coordinator

end Softphone
