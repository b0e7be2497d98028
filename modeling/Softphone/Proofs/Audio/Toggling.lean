import Softphone.Proofs.Audio.Coupling

/-!
# Two toggles in a row

The second toggle undoes the first one, unless the first has to wait for normal mode. A toggle asks for the route
that is not in force, and a switch that waits is not in force yet: the second toggle joins it, and the mode that
is confirmed then completes the switch (`route_toggled_twice_iff`).
-/

namespace Softphone.Router

namespace Standing

variable {needsNormalMode : Bool} {p : Standing}

theorem modeChanged_of_idle (hidle : p.switching = false) (mode : AudioMode) : p.modeChanged mode = p := by
  simp [modeChanged, hidle]

theorem modeChanged_of_waiting (hwaits : p.switching = true) :
    p.modeChanged .normal = ⟨.speaker, .inCommunication, false⟩ := by
  simp [modeChanged, hwaits]

/-- Of many confirmations the first one counts: it leaves no switch that waits. -/
theorem foldl_confirmed (k : Nat) :
    (List.replicate k (.modeChanged .normal)).foldl (after needsNormalMode) p =
      if k = 0 then p else p.modeChanged .normal := by
  induction k generalizing p with
  | zero => rfl
  | succ k ih =>
    rw [List.replicate_succ, List.foldl_cons, ih, if_neg k.succ_ne_zero]
    change (if k = 0 then p.modeChanged .normal else (p.modeChanged .normal).modeChanged .normal) = _
    split
    · rfl
    · cases hwaits : p.switching with
      | false => rw [modeChanged_of_idle hwaits, modeChanged_of_idle hwaits]
      | true => rw [modeChanged_of_waiting hwaits, modeChanged_of_idle rfl]

/-- Where a switch waits on the earpiece, a toggle joins it. -/
theorem toggle_of_waiting (hroute : p.route = .earpiece) (hwaits : p.switching = true) :
    p.toggle needsNormalMode = p := by
  simp [toggle, request, hroute, hwaits]

/-- After a toggle a switch waits on the earpiece only, where it was before. -/
theorem route_of_waiting (hwaits : (p.toggle needsNormalMode).switching = true) :
    p.route = .earpiece ∧ (p.toggle needsNormalMode).route = .earpiece := by
  obtain ⟨route, mode, switching⟩ := p
  revert hwaits
  cases route <;> cases mode <;> cases switching <;> cases needsNormalMode <;> decide

/-- After a toggle that is carried out at once no switch waits, and the next one takes it back. -/
theorem toggle_toggle_of_done (hdone : (p.toggle needsNormalMode).switching = false) :
    ((p.toggle needsNormalMode).toggle needsNormalMode).route = p.route ∧
      ((p.toggle needsNormalMode).toggle needsNormalMode).switching = false ∧
      (p.modeChanged .normal).route = p.route := by
  obtain ⟨route, mode, switching⟩ := p
  revert hdone
  cases route <;> cases mode <;> cases switching <;> cases needsNormalMode <;> decide

theorem route_toggle_toggle_iff (needsNormalMode : Bool) (p : Standing) (k : Nat) :
    ((List.replicate k (.modeChanged .normal)).foldl (after needsNormalMode)
          ((p.toggle needsNormalMode).toggle needsNormalMode)).route =
        ((List.replicate k (.modeChanged .normal)).foldl (after needsNormalMode) p).route ↔
      ¬(p.switching = false ∧ (p.toggle needsNormalMode).switching = true ∧ 0 < k) := by
  rw [foldl_confirmed, foldl_confirmed]
  cases htoggled : (p.toggle needsNormalMode).switching with
  | false =>
    obtain ⟨hroute, hidle, hconfirmed⟩ := toggle_toggle_of_done htoggled
    rw [modeChanged_of_idle hidle, ite_self]
    refine iff_of_true ?_ fun h => Bool.false_ne_true h.2.1
    split
    · exact hroute
    · exact hroute.trans hconfirmed.symm
  | true =>
    obtain ⟨hroute, hroute'⟩ := route_of_waiting htoggled
    rw [toggle_of_waiting hroute' htoggled, modeChanged_of_waiting htoggled]
    cases hwaits : p.switching with
    | true =>
      rw [toggle_of_waiting hroute hwaits, modeChanged_of_waiting hwaits]
      exact iff_of_true rfl fun h => Bool.noConfusion h.1
    | false =>
      rw [modeChanged_of_idle hwaits, ite_self]
      cases k with
      | zero => exact iff_of_true (hroute'.trans hroute.symm) fun h => Nat.lt_irrefl 0 h.2.2
      | succ k =>
        rw [if_neg k.succ_ne_zero, hroute]
        exact iff_of_false nofun (not_not_intro ⟨rfl, rfl, k.succ_pos⟩)

end Standing

variable {σ : Type} [AudioDevice σ] [RoutesAsGranted σ] {needsNormalMode : Bool} {among : σ → Prop}
  {s : Router × World σ}

/-- **Two toggles in a row.** Whatever a router has in hand, and whether its device needs normal mode for the speaker
or not, the two toggles change nothing about the route that is reached, unless the first of them begins a switch
that has to wait and the device confirms normal mode. -/
theorem route_toggled_twice_iff (hdevice : Obliging needsNormalMode among) (hs : among s.2.host)
    (first second : Ticket) (k : Nat) :
    AudioDevice.currentRoute
          (run s (.toggle first :: .toggle second :: List.replicate k (.modeChanged .normal))).2.host =
        AudioDevice.currentRoute (run s (List.replicate k (.modeChanged .normal))).2.host ↔
      ¬(s.1.switching = false ∧ (s.1.toggle first s.2).1.switching = true ∧ 0 < k) := by
  have htoggled : standing (run s (.toggle first :: .toggle second ::
      List.replicate k (.modeChanged .normal))) = (List.replicate k (.modeChanged .normal)).foldl
        (Standing.after needsNormalMode)
        (((standing s).toggle needsNormalMode).toggle needsNormalMode) := (standsAt_run hdevice hs _).2
  have hconfirmed := (standsAt_run hdevice hs (List.replicate k (.modeChanged .normal))).2
  have hfirst : (s.1.toggle first s.2).1.switching = ((standing s).toggle needsNormalMode).switching :=
    congrArg Standing.switching (standsAt_move hdevice hs (.toggle first)).2
  have hroutes := Standing.route_toggle_toggle_iff needsNormalMode (standing s) k
  rw [← htoggled, ← hconfirmed] at hroutes
  rw [hfirst]
  exact hroutes

/-- A switch waits already when the two toggles come. Both join it, and it is completed with them as without them. -/
theorem route_toggled_twice_joined :
    (move ({}, ⟨inCall, []⟩) (.request true ⟨0⟩)).2.host.Grants true ∧
      AudioDevice.currentRoute (run (move ({}, ⟨inCall, []⟩) (.request true ⟨0⟩))
        [.toggle ⟨1⟩, .toggle ⟨2⟩, .modeChanged .normal, .modeChanged .normal]).2.host =
      AudioDevice.currentRoute (run (move ({}, ⟨inCall, []⟩) (.request true ⟨0⟩))
        [.modeChanged .normal, .modeChanged .normal]).2.host := by
  have hgrants : (move ({}, ⟨inCall, []⟩) (.request true ⟨0⟩)).2.host.Grants true :=
    (standsAt_move (s := ({}, ⟨inCall, []⟩)) (Bench.obliging true) grants_inCall (.request true ⟨0⟩)).1
  exact ⟨hgrants, (route_toggled_twice_iff (Bench.obliging true) hgrants ⟨1⟩ ⟨2⟩ 2).2 (by decide)⟩

/-- On the earpiece in communication mode the first toggle has to wait and the second one joins it, so that the
confirmation brings the speaker, which it would not do by itself. -/
theorem toggled_twice_speaks :
    inCall.Grants true ∧
      AudioDevice.currentRoute (run ({}, ⟨inCall, []⟩)
        [.toggle ⟨0⟩, .toggle ⟨1⟩, .modeChanged .normal]).2.host = .speaker ∧
      AudioDevice.currentRoute (run ({}, ⟨inCall, []⟩) [.modeChanged .normal]).2.host = .earpiece :=
  ⟨grants_inCall, by decide, by decide⟩

end Softphone.Router
