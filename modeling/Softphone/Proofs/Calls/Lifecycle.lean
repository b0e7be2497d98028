import Mathlib.Logic.Relation
import Softphone.Proofs.Calls.History
import Softphone.Proofs.Calls.Reported

/-!
# The life of a call

A call that is tracked after a happening is new, or it is the call from before, perhaps with a report on it
(`CallBook.origin_happen`). So a call that stays tracked goes on along the arrows of its states and never
back, remains the same call, and keeps the time at which it was first established
(`CallBook.lifecycle_monotone`).
-/

namespace Softphone

/-! ## States -/

namespace CallState

/-- How far a call has come. A call on hold is as far as an established one. -/
def rank : CallState → Nat
  | idle => 0
  | ringing _ => 1
  | early => 2
  | established | held => 3
  | closed => 4

/-- The arrows between the states of a call. -/
inductive Arrow : CallState → CallState → Prop
  | ring (direction : CallDirection) : Arrow idle (ringing direction)
  | proceed (direction : CallDirection) : Arrow (ringing direction) early
  | establish : Arrow early established
  | hold : Arrow established held
  | resume : Arrow held established
  | close {s : CallState} (hopen : s ≠ closed) : Arrow s closed

/-- Where a single report may take a call. A call that is answered at once leaves states out. -/
inductive Advance : CallState → CallState → Prop
  | ring : Advance idle (ringing .outbound)
  | proceed {s : CallState} (hsetup : s = idle ∨ ∃ direction, s = ringing direction) :
    Advance s early
  | establish {s : CallState} (hopen : s ≠ closed) : Advance s established
  | hold {s : CallState} (hanswered : s = established ∨ s = held) : Advance s held
  | close {s : CallState} (hopen : s ≠ closed) : Advance s closed

variable {s t : CallState}

theorem isAnswered_iff : s.isAnswered = true ↔ s = established ∨ s = held := by
  cases s <;> simp [isAnswered]

/-- A report takes a call along the arrows. -/
theorem Advance.path (h : Advance s t) : Relation.ReflTransGen Arrow s t := by
  have hearly : Relation.ReflTransGen Arrow early established := .single .establish
  have hringing (direction : CallDirection) :
      Relation.ReflTransGen Arrow (ringing direction) established := hearly.head (.proceed direction)
  cases h with
  | ring => exact .single (.ring .outbound)
  | proceed hsetup =>
    obtain rfl | ⟨direction, rfl⟩ := hsetup
    · exact .head (.ring .outbound) (.single (.proceed .outbound))
    · exact .single (.proceed direction)
  | establish hopen =>
    cases s with
    | idle => exact (hringing .outbound).head (.ring .outbound)
    | ringing direction => exact hringing direction
    | early => exact hearly
    | established => exact .refl
    | held => exact .single .resume
    | closed => exact absurd rfl hopen
  | hold hanswered =>
    obtain rfl | rfl := hanswered
    · exact .single .hold
    · exact .refl
  | close hopen => exact .single (.close hopen)

/-- A report leaves a call on hold only where it has been answered. -/
theorem Advance.answered_of_held (h : Advance s held) : s = established ∨ s = held := by
  cases h with
  | hold hanswered => exact hanswered

theorem Arrow.rank_le (h : Arrow s t) : s.rank ≤ t.rank := by
  cases h with
  | close => cases s <;> simp [rank]
  | _ => simp [rank]

theorem rank_le_of_path (h : Relation.ReflTransGen Arrow s t) : s.rank ≤ t.rank := by
  induction h with
  | refl => exact Nat.le_refl _
  | tail _ harrow ih => exact Nat.le_trans ih harrow.rank_le

theorem eq_closed_of_path (h : Relation.ReflTransGen Arrow closed t) : t = closed := by
  induction h with
  | refl => rfl
  | tail _ harrow ih =>
    subst ih
    cases harrow
    rfl

end CallState

/-! ## Calls -/

namespace Call

open CallState (Arrow Advance)

/-- Two records are of one call: they agree in all that is known of it from the beginning. -/
structure SameAs (c c' : Call) : Prop where
  id : c'.id = c.id
  handle : c'.handle = c.handle
  agent : c'.agent = c.agent
  direction : c'.direction = c.direction
  remote : c'.remote = c.remote
  createdAt : c'.createdAt = c.createdAt

/-- What one happening may make of a call that stays tracked. -/
structure Becomes (c c' : Call) : Prop where
  same : c.SameAs c'
  state : c'.state = c.state ∨ Advance c.state c'.state
  /-- The time at which it was established stays once it is set. -/
  kept : c.wasEstablished = true → c'.establishedAt = c.establishedAt

/-- What any course of happenings may make of a call that stays tracked. -/
structure Continues (c c' : Call) : Prop where
  same : c.SameAs c'
  path : Relation.ReflTransGen Arrow c.state c'.state
  rank_le : c.state.rank ≤ c'.state.rank
  closed : c.state = .closed → c'.state = .closed
  kept : c.wasEstablished = true → c'.establishedAt = c.establishedAt

/-- A call that has just been brought in or dialled. -/
structure IsNew (c : Call) : Prop where
  state : c.state = .idle ∨ c.state = .ringing c.direction
  unestablished : c.wasEstablished = false

/-- The time at which a call was established is set where it was answered, and not before. -/
structure Stamped (c : Call) : Prop where
  answered : c.state.isAnswered = true → c.wasEstablished = true
  unanswered : c.state.rank < CallState.established.rank → c.wasEstablished = false

variable {c c' c'' : Call}

theorem SameAs.refl : c.SameAs c := ⟨rfl, rfl, rfl, rfl, rfl, rfl⟩

theorem SameAs.trans (h : c.SameAs c') (h' : c'.SameAs c'') : c.SameAs c'' where
  id := h'.id.trans h.id
  handle := h'.handle.trans h.handle
  agent := h'.agent.trans h.agent
  direction := h'.direction.trans h.direction
  remote := h'.remote.trans h.remote
  createdAt := h'.createdAt.trans h.createdAt

theorem Becomes.refl : c.Becomes c := ⟨.refl, .inl rfl, fun _ => rfl⟩

theorem Becomes.path (h : c.Becomes c') : Relation.ReflTransGen Arrow c.state c'.state := by
  rcases h.state with hsame | hadvance
  · rw [hsame]
  · exact hadvance.path

theorem Continues.refl : c.Continues c := ⟨.refl, .refl, Nat.le_refl _, fun h => h, fun _ => rfl⟩

theorem Continues.tail (h : c.Continues c') (h' : c'.Becomes c'') : c.Continues c'' := by
  have hpath := h.path.trans h'.path
  refine ⟨h.same.trans h'.same, hpath, CallState.rank_le_of_path hpath, ?_, ?_⟩
  · intro hclosed
    rw [hclosed] at hpath
    exact CallState.eq_closed_of_path hpath
  · intro hestablished
    have hkept := h.kept hestablished
    rw [wasEstablished, ← hkept] at hestablished
    exact (h'.kept hestablished).trans hkept

theorem Continues.established (h : c.Continues c') (hestablished : c.wasEstablished = true) :
    c'.wasEstablished = true := by
  rw [wasEstablished, h.kept hestablished]
  exact hestablished

theorem state_ne_closed (hlive : c.isLive = true) : c.state ≠ .closed := by
  intro hclosed
  simp [isLive, hclosed, CallState.isTerminal] at hlive

theorem enterEarly_cases (c : Call) : CallBook.enterEarly c = c ∨
    ((c.state = .idle ∨ ∃ direction, c.state = .ringing direction) ∧
      CallBook.enterEarly c = { c with state := .early }) := by
  unfold CallBook.enterEarly
  cases c.state <;> simp

/-- Only a report that a call is established touches the time at which it was. -/
theorem establishedAt_reported {time : Timestamp} {kind : CallEventKind}
    (hkind : kind ≠ .established) : (c.reported time kind).establishedAt = c.establishedAt := by
  cases kind with
  | established => exact absurd rfl hkind
  | incoming | closed => rfl
  | ringing | progress =>
    rcases enterEarly_cases c with hsame | ⟨-, hearly⟩ <;> simp [reported, *]
  | outgoing | update code =>
    rw [reported]
    repeat' split
    all_goals rfl

/-- A report on a live call. -/
theorem becomes_reported (hlive : c.isLive = true) (time : Timestamp) (kind : CallEventKind) :
    c.Becomes (c.reported time kind) := by
  have hopen := state_ne_closed hlive
  have hchanged {state : CallState} (h : Advance c.state state) : c.Becomes { c with state } :=
    ⟨⟨rfl, rfl, rfl, rfl, rfl, rfl⟩, .inr h, fun _ => rfl⟩
  cases kind with
  | incoming => exact .refl
  | outgoing =>
    rw [reported]
    split
    · rename_i hidle
      refine hchanged ?_
      rw [hidle]
      exact .ring
    · exact .refl
  | ringing | progress =>
    rw [reported]
    rcases enterEarly_cases c with hsame | ⟨hsetup, hearly⟩
    · rw [hsame]
      exact .refl
    · rw [hearly]
      exact hchanged (.proceed hsetup)
  | update code =>
    rw [reported]
    split
    · rename_i hanswered
      split
      · exact hchanged (.hold (CallState.isAnswered_iff.1 hanswered))
      · split
        · exact hchanged (.establish hopen)
        · exact .refl
    · exact .refl
  | established =>
    refine ⟨⟨rfl, rfl, rfl, rfl, rfl, rfl⟩, .inr (.establish hopen), ?_⟩
    intro hestablished
    obtain ⟨first, hfirst⟩ := Option.isSome_iff_exists.1 hestablished
    simp [reported, hfirst]
  | closed tone => exact hchanged (.close hopen)

theorem IsNew.stamped (h : c.IsNew) : c.Stamped := by
  refine ⟨fun hanswered => ?_, fun _ => h.unestablished⟩
  rcases h.state with hstate | hstate <;> simp [hstate, CallState.isAnswered] at hanswered

theorem Stamped.reported (h : c.Stamped) (time : Timestamp) (kind : CallEventKind) :
    (c.reported time kind).Stamped := by
  cases kind with
  | incoming => exact h
  | outgoing =>
    rw [Call.reported]
    split
    · rename_i hidle
      refine ⟨fun hanswered => absurd hanswered Bool.false_ne_true, fun _ => h.unanswered ?_⟩
      rw [hidle]
      decide
    · exact h
  | ringing | progress =>
    rw [Call.reported]
    rcases enterEarly_cases c with hsame | ⟨hsetup, hearly⟩
    · rw [hsame]
      exact h
    · rw [hearly]
      refine ⟨fun hanswered => absurd hanswered Bool.false_ne_true, fun _ => h.unanswered ?_⟩
      obtain hstate | ⟨direction, hstate⟩ := hsetup <;> simp [hstate, CallState.rank]
  | update code =>
    rw [Call.reported]
    split
    · rename_i hanswered
      have hestablished := h.answered hanswered
      split
      · exact ⟨fun _ => hestablished, fun hearlier => by simp [CallState.rank] at hearlier⟩
      · split
        · exact ⟨fun _ => hestablished, fun hearlier => by simp [CallState.rank] at hearlier⟩
        · exact h
    · exact h
  | established => exact ⟨fun _ => rfl, fun hearlier => by simp [Call.reported] at hearlier⟩
  | closed tone =>
    exact ⟨fun hanswered => absurd hanswered Bool.false_ne_true,
      fun hearlier => by simp [Call.reported, CallState.rank] at hearlier⟩

end Call

namespace CallBook

variable {b : CallBook} {a : CallHandle} {c c' : Call} {x : Happening} {xs ys : List Happening}

/-! ## Where a call comes from -/

theorem isNew_broughtIn {stamp : Stamp} {agent : AgentHandle} {event : CallEvent}
    (hkind : event.kind.admitsNewCall = true) :
    ((broughtIn stamp agent event).reported stamp.time event.kind).IsNew := by
  cases hevent : event.kind with
  | incoming =>
    rw [broughtIn, hevent]
    exact ⟨.inr rfl, rfl⟩
  | outgoing =>
    rw [broughtIn, hevent]
    exact ⟨.inr rfl, rfl⟩
  | _ =>
    rw [hevent] at hkind
    cases hkind

/-- Where a tracked call comes from: it was there before, a report on it was dealt with, or it is new. -/
inductive Origin (b : CallBook) (a : CallHandle) : Call → Prop
  | unchanged {c : Call} (hc : b.registry.find? a = some c) : Origin b a c
  | reported {c : Call} (hc : b.registry.find? a = some c) (hlive : c.isLive = true)
    (time : Timestamp) (kind : CallEventKind) : Origin b a (c.reported time kind)
  | begun {c : Call} (hfree : b.registry.contains a = false) (hnew : c.IsNew) : Origin b a c

theorem origin_receive (h : b.Consistent) {stamp : Stamp} {agent : AgentHandle} {event : CallEvent}
    (hc' : (b.receive stamp (some agent) event).2.registry.find? a = some c') : b.Origin a c' := by
  cases hstale : b.isStale event with
  | true =>
    rw [receive_of_stale hstale] at hc'
    exact .unchanged hc'
  | false =>
    rw [find?_receive h hstale] at hc'
    split at hc'
    · rename_i ha
      subst ha
      rw [callAfter] at hc'
      split at hc'
      · cases hc'
      · obtain rfl := Option.some.inj hc'
        cases hfind : b.registry.find? event.handle with
        | some c =>
          rw [isStale, hfind] at hstale
          refine .reported hfind ?_ _ _
          simpa [Call.isLive] using hstale
        | none =>
          rw [isStale, hfind] at hstale
          refine .begun (find?_eq_none_iff.1 hfind) (isNew_broughtIn ?_)
          simpa using hstale
    · split at hc'
      · cases hc'
      · exact .unchanged hc'

/-- **Where a call comes from.** Whatever happens, a call that is tracked afterwards was tracked before, up
to a report on it, or it is new under a handle that was free. -/
theorem origin_happen (h : b.Consistent) (hc' : (b.happen x).2.registry.find? a = some c') :
    b.Origin a c' := by
  cases x with
  | report stamp agent event =>
    cases agent with
    | none => exact .unchanged hc'
    | some agent => exact origin_receive h hc'
  | toneFinished =>
    rw [happen, find?_onToneFinished] at hc'
    split at hc'
    · cases hc'
    · exact .unchanged hc'
  | dial stamp handle agent target connected =>
    rw [happen, find?_dialled] at hc'
    split at hc'
    · rename_i hdialled
      obtain rfl := Option.some.inj hc'
      exact .begun hdialled.2.1 ⟨.inl rfl, rfl⟩
    · exact .unchanged hc'

theorem becomes_happen (h : b.Consistent) (hc : b.registry.find? a = some c)
    (hc' : (b.happen x).2.registry.find? a = some c') : c.Becomes c' := by
  cases origin_happen h hc' with
  | unchanged hsame =>
    obtain rfl := Option.some.inj (hc.symm.trans hsame)
    exact .refl
  | reported hbefore hlive time kind =>
    obtain rfl := Option.some.inj (hc.symm.trans hbefore)
    exact Call.becomes_reported hlive time kind
  | begun hfree =>
    rw [find?_eq_none_iff.2 hfree] at hc
    cases hc

/-! ## A whole life -/

/-- A call is tracked under a handle after some happenings, and stays so through those that follow. -/
def Stays (xs ys : List Happening) (handle : CallHandle) : Prop :=
  ∀ zs, zs <+: ys → (History.after (xs ++ zs)).book.registry.contains handle = true

/-- The call under a handle was established at some time since it came to be tracked. -/
def EstablishedSince (xs : List Happening) (handle : CallHandle) : Prop :=
  ∃ before later, xs = before ++ later ∧ Stays before later handle ∧
    ∃ call, (History.after before).book.registry.find? handle = some call ∧
      call.state = .established

/-- The life of every call in the course of some happenings, and with those that come next. -/
structure Lifecycle (xs : List Happening) : Prop where
  begins : ∀ x handle call, (History.after xs).book.registry.contains handle = false →
    (History.after (xs ++ [x])).book.registry.find? handle = some call → call.IsNew
  /-- One happening takes a call that stays tracked one step on, or leaves it as it is. -/
  becomes : ∀ x handle call call',
    (History.after xs).book.registry.find? handle = some call →
    (History.after (xs ++ [x])).book.registry.find? handle = some call' → call.Becomes call'
  held_from : ∀ x handle call call',
    (History.after xs).book.registry.find? handle = some call →
    (History.after (xs ++ [x])).book.registry.find? handle = some call' →
    call'.state = .held → call.state = .established ∨ call.state = .held
  /-- However long it stays tracked, it goes along the arrows and never back. -/
  continues : ∀ ys handle call call', Stays xs ys handle →
    (History.after xs).book.registry.find? handle = some call →
    (History.after (xs ++ ys)).book.registry.find? handle = some call' → call.Continues call'
  established_iff : ∀ handle call,
    (History.after xs).book.registry.find? handle = some call →
    (call.wasEstablished = true ↔ EstablishedSince xs handle)
  stamped : ∀ handle call,
    (History.after xs).book.registry.find? handle = some call → call.Stamped

theorem find?_concat (xs : List Happening) (x : Happening) :
    (History.after (xs ++ [x])).book.registry.find? a =
      ((History.after xs).book.happen x).2.registry.find? a := by
  rw [History.after_concat]
  rfl

theorem Stays.of_concat (h : Stays xs (ys ++ [x]) a) : Stays xs ys a :=
  fun zs hzs => h zs (hzs.trans (List.prefix_append ys [x]))

theorem Stays.tracked (h : Stays xs ys a) :
    ∃ c, (History.after (xs ++ ys)).book.registry.find? a = some c :=
  Registry.contains_iff.1 (h ys List.prefix_rfl)

theorem Stays.concat (h : Stays xs ys a)
    (hc : (History.after (xs ++ ys ++ [x])).book.registry.find? a = some c) :
    Stays xs (ys ++ [x]) a := by
  intro zs hzs
  rcases List.prefix_concat_iff.1 hzs with rfl | hearlier
  · rw [← List.append_assoc]
    exact Registry.contains_iff.2 ⟨c, hc⟩
  · exact h zs hearlier

theorem continues_of_stays (h : Stays xs ys a)
    (hc : (History.after xs).book.registry.find? a = some c)
    (hc' : (History.after (xs ++ ys)).book.registry.find? a = some c') : c.Continues c' := by
  induction ys using List.reverseRecOn generalizing c' with
  | nil =>
    rw [List.append_nil] at hc'
    obtain rfl := Option.some.inj (hc.symm.trans hc')
    exact .refl
  | append_singleton ys y ih =>
    obtain ⟨d, hd⟩ := h.of_concat.tracked
    rw [← List.append_assoc, find?_concat] at hc'
    exact (ih h.of_concat hd).tail (becomes_happen (History.consistent_after _) hd hc')

theorem stamped_after (xs : List Happening)
    (hc : (History.after xs).book.registry.find? a = some c) : c.Stamped := by
  induction xs using List.reverseRecOn generalizing c with
  | nil => cases hc
  | append_singleton xs x ih =>
    rw [find?_concat] at hc
    cases origin_happen (History.consistent_after xs) hc with
    | unchanged hbefore => exact ih hbefore
    | reported hbefore _ time kind => exact (ih hbefore).reported time kind
    | begun _ hnew => exact hnew.stamped

/-- A report that sets the time at which a call was established makes it established. -/
theorem established_of_reported {time : Timestamp} {kind : CallEventKind}
    (hbefore : c.wasEstablished = false) (hafter : (c.reported time kind).wasEstablished = true) :
    (c.reported time kind).state = .established := by
  by_cases hkind : kind = .established
  · rw [hkind]
    rfl
  · rw [Call.wasEstablished, Call.establishedAt_reported hkind] at hafter
    exact absurd (hbefore.symm.trans hafter) Bool.false_ne_true

theorem established_iff_since (xs : List Happening)
    (hc : (History.after xs).book.registry.find? a = some c) :
    c.wasEstablished = true ↔ EstablishedSince xs a := by
  constructor
  · intro hestablished
    induction xs using List.reverseRecOn generalizing c with
    | nil => cases hc
    | append_singleton xs x ih =>
      have hnow (hstate : c.state = .established) : EstablishedSince (xs ++ [x]) a := by
        refine ⟨xs ++ [x], [], (List.append_nil _).symm, ?_, c, hc, hstate⟩
        intro zs hzs
        rw [List.prefix_nil.1 hzs, List.append_nil]
        exact Registry.contains_iff.2 ⟨c, hc⟩
      -- If it was established before, then it has been tracked ever since.
      have hearlier {d : Call} (hd : (History.after xs).book.registry.find? a = some d)
          (hbefore : d.wasEstablished = true) : EstablishedSince (xs ++ [x]) a := by
        obtain ⟨before, later, rfl, hstays, first⟩ := ih hd hbefore
        exact ⟨before, later ++ [x], List.append_assoc _ _ _, hstays.concat hc, first⟩
      have horigin := hc
      rw [find?_concat] at horigin
      cases origin_happen (History.consistent_after xs) horigin with
      | unchanged hbefore => exact hearlier hbefore hestablished
      | @reported d hbefore hlive time kind =>
        cases hwas : d.wasEstablished with
        | true => exact hearlier hbefore hwas
        | false => exact hnow (established_of_reported hwas hestablished)
      | begun _ hnew =>
        rw [hnew.unestablished] at hestablished
        cases hestablished
  · rintro ⟨before, later, rfl, hstays, first, hfirst, hstate⟩
    have hanswered := (stamped_after before hfirst).answered (by rw [hstate]; rfl)
    exact (continues_of_stays hstays hfirst hc).established hanswered

/-- **Calls do not go back.** Along every course of happenings a call that stays tracked goes along the
arrows of its states, is on hold only after it was established, remains the same call, and bears the time
at which it was first established from then on. -/
theorem lifecycle_monotone (xs : List Happening) : Lifecycle xs := by
  have hconsistent := History.consistent_after xs
  have hbecomes : ∀ x handle call call',
      (History.after xs).book.registry.find? handle = some call →
      (History.after (xs ++ [x])).book.registry.find? handle = some call' →
      call.Becomes call' := by
    intro x handle call call' hcall hcall'
    rw [find?_concat] at hcall'
    exact becomes_happen hconsistent hcall hcall'
  refine ⟨?_, hbecomes, ?_, ?_, ?_, ?_⟩
  · intro x handle call hfree hcall
    have hnone := find?_eq_none_iff.2 hfree
    rw [find?_concat] at hcall
    cases origin_happen hconsistent hcall with
    | unchanged hbefore | reported hbefore => simp [hnone] at hbefore
    | begun _ hnew => exact hnew
  · intro x handle call call' hcall hcall' hheld
    rcases (hbecomes x handle call call' hcall hcall').state with hsame | hadvance
    · exact .inr (hsame.symm.trans hheld)
    · rw [hheld] at hadvance
      exact hadvance.answered_of_held
  · intro ys handle call call' hstays hcall hcall'
    exact continues_of_stays hstays hcall hcall'
  · exact fun handle call => established_iff_since xs
  · exact fun handle call => stamped_after xs

end CallBook

end Softphone
