import Softphone.Proofs.Calls.Live

/-!
# When the audio is to be given back

A book of calls asks for the audio to be given back only where no live call is current
(`CallBook.currentLive?_receive`), and never lets the last call go without asking
(`CallBook.receive_of_emptied`).
-/

namespace Softphone

namespace Registry

variable {r : Registry} {a x : CallHandle} {c : Call}

theorem currentLive?_eq_some_iff : r.currentLive? = some c ↔
    r.currentHandle = some c.handle ∧ r.find? c.handle = some c ∧ c.isLive = true := by
  rw [currentLive?, current?, Option.filter_eq_some_iff, Option.bind_eq_some_iff, ← and_assoc]
  refine and_congr_left fun _ => ?_
  constructor
  · rintro ⟨x, hcurrent, hfind⟩
    obtain rfl := handle_of_find? hfind
    exact ⟨hcurrent, hfind⟩
  · rintro ⟨hcurrent, hfind⟩
    exact ⟨_, hcurrent, hfind⟩

theorem remove_currentHandle_iff (hx : x ≠ a) :
    (r.remove a).currentHandle = some x ↔ r.currentHandle = some x := by
  rw [remove]
  split
  · rw [Option.filter_eq_some_iff]
    exact and_iff_left (by simpa using hx)
  · exact Iff.rfl

/-- The live call that is current after a call was dropped, if it was not that one. -/
theorem currentLive?_remove (r : Registry) (a : CallHandle) :
    (r.remove a).currentLive? = r.currentLive?.filter (·.handle ≠ a) := by
  ext c
  rw [Option.filter_eq_some_iff, currentLive?_eq_some_iff, currentLive?_eq_some_iff, find?_remove]
  by_cases ha : c.handle = a
  · simp [ha]
  · rw [if_neg ha, remove_currentHandle_iff ha]
    simp [ha]

theorem currentLive?_of_empty (h : r.calls = []) : r.currentLive? = none := by
  apply Option.eq_none_iff_forall_ne_some.2
  intro c hc
  have hmem := mem_of_find? (currentLive?_eq_some_iff.1 hc).2.1
  rw [h] at hmem
  cases hmem

end Registry

namespace CallBook

variable {b : CallBook} {a : CallHandle} {stamp : Stamp} {agent : AgentHandle} {event : CallEvent}

theorem otherActive?_eq (b : CallBook) (a : CallHandle) :
    b.otherActive? a = (b.registry.remove a).currentLive? := (Registry.currentLive?_remove _ _).symm

/-! ## The end of a busy tone -/

theorem onToneFinished_of_none (h : b.closing = none) : b.onToneFinished = ([], b) := by
  rw [onToneFinished, h]

theorem onToneFinished_of_closing (h : b.closing = some a) : b.onToneFinished =
    (if (b.registry.remove a).currentLive?.isSome then [] else [.releaseAudio],
      { b with registry := b.registry.remove a, closing := none }) := by
  rw [onToneFinished, h]

theorem currentLive?_onToneFinished (h : b.registry.currentLive? = none) :
    b.onToneFinished.2.registry.currentLive? = none := by
  cases hclosing : b.closing with
  | none =>
    rw [onToneFinished_of_none hclosing]
    exact h
  | some a =>
    rw [onToneFinished_of_closing hclosing]
    dsimp only
    rw [Registry.currentLive?_remove, h]
    rfl

/-- At the end of a busy tone the audio is given back unless a live call is current then. -/
theorem releaseAudio_mem_onToneFinished_iff : .releaseAudio ∈ b.onToneFinished.1 ↔
    b.closing.isSome = true ∧ b.onToneFinished.2.registry.currentLive? = none := by
  cases hclosing : b.closing with
  | none => simp [onToneFinished_of_none hclosing]
  | some a =>
    rw [onToneFinished_of_closing hclosing]
    cases (b.registry.remove a).currentLive? <;> simp

/-- The last call does not go with the busy tone unless the audio is given back. -/
theorem onToneFinished_of_emptied (h : b.onToneFinished.2.registry.calls = []) :
    b.registry.calls = [] ∨ .releaseAudio ∈ b.onToneFinished.1 := by
  cases hclosing : b.closing with
  | none =>
    rw [onToneFinished_of_none hclosing] at h
    exact .inl h
  | some a =>
    have hidle := Registry.currentLive?_of_empty h
    exact .inr (releaseAudio_mem_onToneFinished_iff.2 ⟨hclosing ▸ rfl, hidle⟩)

/-! ## Reports -/

/-- When a call closes the audio is given back, unless the busy tone is to be tried or another live call
is current. -/
theorem releaseAudio_mem_onClosed_iff {c : Call} (hc : b.registry.find? a = some c)
    (time : Timestamp) (tone : Option String) : .releaseAudio ∈ (b.onClosed time a tone).1 ↔
      tone ≠ some busyHint ∧ b.otherActive? a = none := by
  rw [actions_onClosed hc]
  cases isMissed c <;> simp [mem_parting_iff, and_comm]

/-- A report that counts and ends its call. -/
theorem receive_closed {tone : Option String} (hfresh : b.isStale event = false)
    (hkind : event.kind = .closed tone) (stamp : Stamp) (agent : AgentHandle) :
    (∃ c, b.registry.find? event.handle = some c ∧ c.isLive = true) ∧
      b.receive stamp (some agent) event = b.onClosed stamp.time event.handle tone := by
  refine ⟨live_of_not_stale hfresh (hkind ▸ rfl), ?_⟩
  rw [receive, hfresh, hkind]
  rfl

/-- Where a report asks for the audio to be given back no live call is current. -/
theorem currentLive?_receive {agent : Option AgentHandle}
    (h : .releaseAudio ∈ (b.receive stamp agent event).1) :
    (b.receive stamp agent event).2.registry.currentLive? = none := by
  obtain ⟨hagent, hfresh, hasks⟩ := mem_receive_iff.1 h
  obtain ⟨agent, rfl⟩ := Option.isSome_iff_exists.1 hagent
  cases hasks with
  | releaseAudio hkind hhint hothers =>
    obtain ⟨⟨c, hc, -⟩, heq⟩ := receive_closed hfresh hkind stamp agent
    obtain ⟨_, _, _, _, hleft⟩ := onClosed_leaving hc (.inl hhint) stamp.time
    rw [heq, hleft]
    exact (otherActive?_eq b event.handle).symm.trans hothers

/-- The last call does not close unless the busy tone is to be tried or the audio given back. -/
theorem onClosed_of_emptied (hb : b.Consistent) {c : Call} (hc : b.registry.find? a = some c)
    (hlive : c.isLive = true) {time : Timestamp} {tone : Option String}
    (h : (b.onClosed time a tone).2.registry.calls = []) :
    .releaseAudio ∈ (b.onClosed time a tone).1 := by
  rcases closes_cases b a tone with ⟨rfl, hothers⟩ | hleaves
  · obtain ⟨_, _, _, _, heq⟩ := onClosed_lingering hc hothers time
    rw [heq] at h
    have hfind := find?_linger hc (hb.closing_ne hc hlive) a
    rw [if_pos rfl] at hfind
    have hmem := Registry.mem_of_find? hfind
    rw [show (b.linger a).registry.calls = [] from h] at hmem
    cases hmem
  · obtain ⟨_, _, _, _, heq⟩ := onClosed_leaving hc hleaves time
    rw [heq] at h
    have hothers : b.otherActive? a = none :=
      (otherActive?_eq b a).trans (Registry.currentLive?_of_empty h)
    rw [hothers] at hleaves
    exact (releaseAudio_mem_onClosed_iff hc time tone).2
      ⟨hleaves.resolve_right Bool.false_ne_true, hothers⟩

/-- The last call does not go with a report unless the audio is to be given back. -/
theorem receive_of_emptied (hb : b.Consistent) {agent : Option AgentHandle}
    (h : (b.receive stamp agent event).2.registry.calls = []) :
    b.registry.calls = [] ∨ .releaseAudio ∈ (b.receive stamp agent event).1 := by
  cases agent with
  | none => exact .inl h
  | some agent =>
    cases hstale : b.isStale event with
    | true =>
      rw [receive_of_stale hstale] at h
      exact .inl h
    | false =>
      cases hkind : event.kind with
      | closed tone =>
        obtain ⟨⟨c, hc, hlive⟩, heq⟩ := receive_closed hstale hkind stamp agent
        rw [heq] at h ⊢
        exact .inr (onClosed_of_emptied hb hc hlive h)
      | _ =>
        -- Any other report that counts is on a call that is live afterwards.
        have hlive : (b.receive stamp (some agent) event).2.isLive event.handle = true := by
          rw [isStale_eq, Bool.not_eq_false'] at hstale
          rw [isLive_receive hb, if_pos rfl, hkind, hstale]
          rfl
        obtain ⟨c, hc, -⟩ := exists_of_isLive hlive
        have hmem := Registry.mem_of_find? hc
        rw [h] at hmem
        cases hmem

end CallBook

end Softphone
