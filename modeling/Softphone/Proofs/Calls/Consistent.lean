import Softphone.CallBook
import Softphone.Proofs.Calls.Registry

/-!
# Consistent books of calls

A book of calls tracks at most one closed call, the one that it keeps for the sake of a busy tone. Every
report keeps it so (`CallBook.receive_consistent`), and so does the end of the tone.
-/

namespace Softphone.CallBook

variable {b b' : CallBook} {a : CallHandle} {c call : Call} {change : Call → Call}

/-- The book keeps a closed call exactly under the handle whose busy tone it waits for. -/
structure Consistent (b : CallBook) : Prop where
  unique : b.registry.Unique
  closed_iff : ∀ {a c}, b.registry.find? a = some c → (c.state = .closed ↔ b.closing = some a)
  tracked : ∀ {a}, b.closing = some a → b.registry.contains a = true

namespace Consistent

theorem empty : Consistent {} where
  unique := List.nodup_nil
  closed_iff := nofun
  tracked := nofun

/-- A closed call is tracked exactly while a busy tone is waited for. -/
theorem exists_closed_iff (h : b.Consistent) :
    (∃ c ∈ b.registry.calls, c.state = .closed) ↔ b.closing.isSome = true := by
  constructor
  · rintro ⟨c, hc, hclosed⟩
    rw [(h.closed_iff (Registry.find?_of_mem h.unique hc)).1 hclosed]
    rfl
  · intro hsome
    obtain ⟨a, ha⟩ := Option.isSome_iff_exists.1 hsome
    obtain ⟨c, hc⟩ := Registry.contains_iff.1 (h.tracked ha)
    exact ⟨c, Registry.mem_of_find? hc, (h.closed_iff hc).2 ha⟩

theorem closing_ne (h : b.Consistent) (hc : b.registry.find? a = some c)
    (hlive : c.isLive = true) : b.closing ≠ some a := by
  intro ha
  rw [Call.isLive, (h.closed_iff hc).2 ha] at hlive
  exact Bool.false_ne_true hlive

/-! ## Changes that keep the book consistent -/

theorem congr (h : b.Consistent) (hcalls : b'.registry.calls = b.registry.calls)
    (hclosing : b'.closing = b.closing) : b'.Consistent := by
  have hfind : ∀ a, b'.registry.find? a = b.registry.find? a := fun a =>
    congrArg (List.find? _) hcalls
  refine ⟨?_, fun hc => ?_, fun ha => ?_⟩
  · rw [Registry.Unique, hcalls]
    exact h.unique
  · rw [hclosing]
    exact h.closed_iff (hfind _ ▸ hc)
  · rw [Registry.contains, hfind]
    exact h.tracked (hclosing ▸ ha)

/-- A change that neither closes a call nor opens one again. -/
theorem modify (h : b.Consistent) (hhandle : ∀ c, (change c).handle = c.handle)
    (hstate : ∀ c, b.registry.find? a = some c →
      ((change c).state = .closed ↔ c.state = .closed)) :
    ({ b with registry := b.registry.modify a change } : CallBook).Consistent := by
  have hfind := @Registry.find?_modify b.registry a
  refine ⟨h.unique.modify a hhandle, fun {x d} hd => ?_, fun {x} hx => ?_⟩
  · rw [hfind hhandle] at hd
    split at hd
    · rename_i hxa
      obtain ⟨c, hc, rfl⟩ := Option.map_eq_some_iff.1 hd
      rw [hstate c (hxa ▸ hc)]
      exact h.closed_iff hc
    · exact h.closed_iff hd
  · obtain ⟨c, hc⟩ := Registry.contains_iff.1 (h.tracked hx)
    rw [Registry.contains, hfind hhandle, hc]
    split <;> rfl

theorem remove (h : b.Consistent) (ha : b.closing ≠ some a) :
    ({ b with registry := b.registry.remove a } : CallBook).Consistent := by
  refine ⟨h.unique.remove a, fun {x d} hd => ?_, fun {x} hx => ?_⟩
  · rw [Registry.find?_remove] at hd
    split at hd
    · cases hd
    · exact h.closed_iff hd
  · have hxa : x ≠ a := fun hxa => ha (hxa ▸ hx)
    rw [Registry.contains, Registry.find?_remove, if_neg hxa]
    exact h.tracked hx

/-- The closed call goes. -/
theorem drop (h : b.Consistent) (ha : b.closing = some a) :
    ({ b with registry := b.registry.remove a, closing := none } : CallBook).Consistent := by
  refine ⟨h.unique.remove a, fun {x d} hd => ?_, nofun⟩
  rw [Registry.find?_remove] at hd
  split at hd
  · cases hd
  · rename_i hxa
    have hopen : b.closing ≠ some x := fun hx => hxa (Option.some.inj (hx.symm.trans ha))
    exact iff_of_false (fun hclosed => hopen ((h.closed_iff hd).1 hclosed)) nofun

theorem finishClosing (h : b.Consistent) : b.finishClosing.2.Consistent := by
  unfold CallBook.finishClosing
  split
  · exact h
  · exact h.drop ‹_›

theorem onToneFinished (h : b.Consistent) : b.onToneFinished.2.Consistent := by
  unfold CallBook.onToneFinished
  split
  · exact h
  · exact h.drop ‹_›

end Consistent

theorem closes_cases (b : CallBook) (a : CallHandle) (tone : Option String) :
    (tone = some busyHint ∧ b.otherActive? a = none) ∨
      (tone ≠ some busyHint ∨ (b.otherActive? a).isSome = true) := by
  by_cases hhint : tone = some busyHint
  · cases hothers : b.otherActive? a with
    | none => exact .inl ⟨hhint, rfl⟩
    | some other => exact .inr (.inr rfl)
  · exact .inr (.inl hhint)

/-- A call that closes with the hint, and with no other to act on, stays for the busy tone. -/
theorem onClosed_lingering (hc : b.registry.find? a = some c) (hothers : b.otherActive? a = none)
    (time : Timestamp) :
    ∃ rest missed, .playBusy ∉ rest ∧ .stopTone ∉ rest ∧ b.onClosed time a (some busyHint) =
      ([.stopRinging, .stopTone, .playBusy] ++ rest, { b.linger a with missed }) := by
  unfold onClosed
  rw [hc, hothers]
  dsimp only
  split
  · exact ⟨_, _, by simp, by simp, rfl⟩
  · exact ⟨[.emit .hangup], _, by simp, by simp, rfl⟩

/-- Any other call that closes leaves at once. -/
theorem onClosed_leaving (hc : b.registry.find? a = some c) {tone : Option String}
    (hleaves : tone ≠ some busyHint ∨ (b.otherActive? a).isSome = true) (time : Timestamp) :
    ∃ rest missed, .playBusy ∉ rest ∧ .stopTone ∉ rest ∧ b.onClosed time a tone =
      ([.stopRinging, .stopTone] ++ rest, { b with registry := b.registry.remove a, missed }) := by
  have hneither : ¬ (tone = some busyHint ∧ (!(b.otherActive? a).isSome) = true) := by
    rintro ⟨hhint, hothers⟩
    exact hleaves.elim (· hhint) fun hsome => by simp [hsome] at hothers
  unfold onClosed
  rw [hc]
  simp only [if_neg hneither]
  cases b.otherActive? a <;> cases isMissed c <;>
    exact ⟨_, _, by simp, by simp, rfl⟩

/-- Once a call lingers it is closed, and the one that was closed before is gone. -/
theorem find?_linger (hc : b.registry.find? a = some c) (hne : b.closing ≠ some a)
    (x : CallHandle) : (b.linger a).registry.find? x =
      if x = a then some { c with state := .closed }
      else if b.closing = some x then none else b.registry.find? x := by
  have hmodify : (b.registry.modify a fun c => { c with state := .closed }).find? x =
      if x = a then (b.registry.find? x).map fun c => { c with state := .closed }
      else b.registry.find? x := Registry.find?_modify fun _ => rfl
  unfold linger
  cases hclosing : b.closing with
  | none =>
    dsimp only
    rw [hmodify]
    by_cases hx : x = a
    · simp [hx, hc]
    · simp [hx]
  | some earlier =>
    have hearlier : a ≠ earlier := by
      intro heq
      exact hne (heq ▸ hclosing)
    dsimp only
    rw [Registry.find?_remove, hmodify]
    by_cases hx : x = a
    · simp [hx, hc, hearlier]
    · simp [hx, eq_comm]

theorem unique_linger (h : b.registry.Unique) : (b.linger a).registry.Unique := by
  have hmodified : (b.registry.modify a fun c => { c with state := .closed }).Unique :=
    h.modify a fun _ => rfl
  unfold linger
  cases b.closing with
  | none => exact hmodified
  | some earlier => exact hmodified.remove earlier

theorem track_eq_ok (h : b.track call = .ok b') :
    ∃ r, b.registry.put call = .ok r ∧
      b' = { b with registry := { r with currentHandle := some call.handle } } := by
  unfold track at h
  cases hput : b.registry.put call with
  | error e =>
    rw [hput] at h
    cases h
  | ok r =>
    rw [hput] at h
    cases hcurrent : r.setCurrent call.handle with
    | error e =>
      simp [bind, Except.bind, hcurrent] at h
    | ok r' =>
      simp only [bind, Except.bind, hcurrent, pure, Except.pure, Except.ok.injEq] at h
      obtain ⟨_, rfl⟩ := Registry.setCurrent_eq_ok_iff.1 hcurrent
      exact ⟨r, rfl, h.symm⟩

theorem track_closing (h : b.track call = .ok b') : b'.closing = b.closing := by
  obtain ⟨r, _, rfl⟩ := track_eq_ok h
  rfl

/-- An outgoing call was dialled before, or it is tracked now. -/
theorem markOutgoing_cases {stamp : Stamp} {agent : AgentHandle} {event : CallEvent}
    (h : b.markOutgoing stamp agent event = .ok b') :
    (b'.registry.calls = b.registry.calls ∧ b'.closing = b.closing) ∨
      b.track (Call.new stamp event.handle agent .outbound event.remote) = .ok b' := by
  unfold markOutgoing at h
  split at h
  · cases hcurrent : b.registry.setCurrent event.handle with
    | error e =>
      rw [hcurrent] at h
      cases h
    | ok r =>
      rw [hcurrent] at h
      cases h
      exact .inl ⟨Registry.setCurrent_calls hcurrent, rfl⟩
  · exact .inr h

namespace Consistent

/-- The handle of a call that is tracked anew is not the one of the closed call. -/
theorem closing_ne_of_track (h : b.Consistent) (htrack : b.track call = .ok b') :
    b.closing ≠ some call.handle := by
  obtain ⟨r, hput, _⟩ := track_eq_ok htrack
  intro hclosing
  have hnew := (Registry.put_eq_ok_iff.1 hput).1
  exact Bool.false_ne_true (hnew.symm.trans (h.tracked hclosing))

theorem track (h : b.Consistent) (htrack : b.track call = .ok b') (hopen : call.state ≠ .closed) :
    b'.Consistent := by
  have hother := h.closing_ne_of_track htrack
  obtain ⟨r, hput, rfl⟩ := track_eq_ok htrack
  have hfind : ∀ x, r.find? x = if x = call.handle then some call else b.registry.find? x :=
    fun x => Registry.find?_put hput
  have hadded : ({ b with registry := r } : CallBook).Consistent := by
    refine ⟨h.unique.put hput, fun {x d} hd => ?_, fun {x} hx => ?_⟩
    · rw [hfind] at hd
      split at hd
      · rename_i hx
        obtain rfl := Option.some.inj hd
        exact iff_of_false hopen (hx ▸ hother)
      · exact h.closed_iff hd
    · have hne : x ≠ call.handle := fun heq => hother (heq ▸ hx)
      rw [Registry.contains, hfind, if_neg hne]
      exact h.tracked hx
  exact hadded.congr rfl rfl

/-- A live call closes and takes the place of the one that was closed. -/
theorem linger (h : b.Consistent) (hc : b.registry.find? a = some c) (hlive : c.isLive = true) :
    (b.linger a).Consistent := by
  have hfind := fun x => find?_linger hc (h.closing_ne hc hlive) x
  refine ⟨unique_linger h.unique, fun {x d} hd => ?_, fun {x} hx => ?_⟩
  · change d.state = .closed ↔ some a = some x
    rw [hfind] at hd
    split at hd
    · rename_i hx
      obtain rfl := Option.some.inj hd
      exact iff_of_true rfl (congrArg some hx.symm)
    · rename_i hx
      split at hd
      · cases hd
      · rename_i hopen
        exact iff_of_false (fun hclosed => hopen ((h.closed_iff hd).1 hclosed))
          fun hax => hx (Option.some.inj hax).symm
  · obtain rfl : a = x := Option.some.inj hx
    rw [Registry.contains, hfind, if_pos rfl]
    rfl

/-! ## Reports keep the book consistent -/

variable {stamp : Stamp} {agent : AgentHandle} {event : CallEvent}

theorem onIncoming (h : b.Consistent) : (b.onIncoming stamp agent event).2.Consistent := by
  unfold CallBook.onIncoming
  split
  · exact h
  · dsimp only
    split
    · exact h.finishClosing
    · rename_i htrack
      exact h.finishClosing.track htrack nofun

theorem markOutgoing (h : b.Consistent) (hmark : b.markOutgoing stamp agent event = .ok b') :
    b'.Consistent := by
  rcases markOutgoing_cases hmark with ⟨hcalls, hclosing⟩ | htrack
  · exact h.congr hcalls hclosing
  · exact h.track htrack nofun

theorem onOutgoing (h : b.Consistent) : (b.onOutgoing stamp agent event).2.Consistent := by
  unfold CallBook.onOutgoing
  dsimp only
  split
  · exact h.finishClosing
  · rename_i marked hmark
    have hmarked : marked.Consistent := h.finishClosing.markOutgoing hmark
    split
    · exact hmarked
    · refine hmarked.modify (fun c => ?_) fun c _ => ?_
      · split <;> rfl
      · split
        · rename_i hidle
          simp [hidle]
        · rfl

theorem enterEarly (h : b.Consistent) (a : CallHandle) :
    ({ b with registry := b.registry.modify a CallBook.enterEarly } : CallBook).Consistent := by
  refine h.modify (fun c => ?_) fun c _ => ?_
  · unfold CallBook.enterEarly
    split <;> rfl
  · unfold CallBook.enterEarly
    split <;> simp_all

theorem onUpdate (h : b.Consistent) (a : CallHandle) (code : UInt32) :
    (b.onUpdate a code).2.Consistent := by
  have henter : ∀ state : CallState, state ≠ .closed →
      ({ b with registry := b.registry.modify a fun c =>
        if c.state.isAnswered then { c with state } else c } : CallBook).Consistent := by
    intro state hopen
    refine h.modify (fun c => ?_) fun c _ => ?_
    · split <;> rfl
    · split
      · rename_i hanswered
        refine iff_of_false hopen fun hclosed => ?_
        rw [hclosed] at hanswered
        exact Bool.false_ne_true hanswered
      · rfl
  unfold CallBook.onUpdate
  dsimp only
  split
  · exact henter .held nofun
  · split
    · exact henter .established nofun
    · exact h

theorem onEstablished (h : b.Consistent) (hc : b.registry.find? a = some c)
    (hlive : c.isLive = true) (time : Timestamp) : (b.onEstablished time a).2.Consistent := by
  have hopen : c.state ≠ .closed := fun hclosed => h.closing_ne hc hlive ((h.closed_iff hc).1 hclosed)
  have hmodified : ({ b with registry := b.registry.modify a fun c =>
      { c with state := .established, establishedAt := some (c.establishedAt.getD time) } } :
      CallBook).Consistent := by
    refine h.modify (fun _ => rfl) fun d hd => ?_
    obtain rfl := Option.some.inj (hc.symm.trans hd)
    exact iff_of_false nofun hopen
  unfold CallBook.onEstablished
  dsimp only
  split
  · rename_i hcurrent
    exact hmodified.congr (Registry.setCurrent_calls hcurrent) rfl
  · exact hmodified

theorem onClosed (h : b.Consistent) (hc : b.registry.find? a = some c) (hlive : c.isLive = true)
    (time : Timestamp) (tone : Option String) : (b.onClosed time a tone).2.Consistent := by
  rcases closes_cases b a tone with ⟨rfl, hothers⟩ | hleaves
  · obtain ⟨_, _, _, _, heq⟩ := onClosed_lingering hc hothers time
    rw [heq]
    exact (h.linger hc hlive).congr rfl rfl
  · obtain ⟨_, _, _, _, heq⟩ := onClosed_leaving hc hleaves time
    rw [heq]
    exact (h.remove (h.closing_ne hc hlive)).congr rfl rfl

end Consistent

/-- A report that brings in no call and is not passed over is on a live call. -/
theorem live_of_not_stale {event : CallEvent} (hstale : b.isStale event = false)
    (hkind : event.kind.admitsNewCall = false) :
    ∃ c, b.registry.find? event.handle = some c ∧ c.isLive = true := by
  unfold isStale at hstale
  split at hstale
  · simp [hkind] at hstale
  · exact ⟨_, ‹_›, by simpa [Call.isLive] using hstale⟩

theorem receive_consistent (h : b.Consistent) (stamp : Stamp) (agent : Option AgentHandle)
    (event : CallEvent) : (b.receive stamp agent event).2.Consistent := by
  unfold receive
  split
  · exact h
  split
  · exact h
  rename_i hstale
  have hlive := live_of_not_stale (Bool.eq_false_iff.2 hstale)
  cases hkind : event.kind with
  | incoming => exact h.onIncoming
  | outgoing => exact h.onOutgoing
  | ringing => exact h.enterEarly event.handle
  | progress flags => exact h.enterEarly event.handle
  | update code => exact h.onUpdate event.handle code
  | established =>
    obtain ⟨c, hc, hlive⟩ := hlive (congrArg CallEventKind.admitsNewCall hkind)
    exact h.onEstablished hc hlive stamp.time
  | closed tone =>
    obtain ⟨c, hc, hlive⟩ := hlive (congrArg CallEventKind.admitsNewCall hkind)
    exact h.onClosed hc hlive stamp.time tone

end Softphone.CallBook
