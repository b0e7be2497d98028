import Softphone.Bench
import Softphone.Proofs.Network.Pass

/-!
# Passes against a steady host

The platform stays as it is, and the engine refuses the same addresses again and again. After one pass
the mobility is settled (`Settled`): all that it still wants changed is refused. Every later pass then
asks for these changes once more and does nothing else (`later_pass_quiet`).
-/

namespace Softphone.Mobility

variable {σ : Type}

/-- Among some states of a host the platform tells `p`, and the engine refuses exactly the additions of
addresses that are `unbindable` and the removals of those that are `stuck`. -/
structure Steady [Engine σ] [Connectivity σ] (p : Platform) (unbindable stuck : Address → Prop)
    (among : σ → Prop) : Prop where
  platform : ∀ {host}, among host → Connectivity.platform host = p
  add_iff : ∀ {host a name}, among host →
    ((Engine.addAddress a name host).1 = true ↔ ¬ unbindable a)
  remove_iff : ∀ {host a}, among host → ((Engine.removeAddress a host).1 = true ↔ ¬ stuck a)
  addAddress : ∀ {host a name}, among host → among (Engine.addAddress a name host).2
  removeAddress : ∀ {host a}, among host → among (Engine.removeAddress a host).2
  resetTransport : ∀ {host}, among host → among (Engine.resetTransport true true host).2
  setResolvers : ∀ {host servers}, among host → among (Engine.setResolvers servers host).2
  acquireLock : ∀ {host}, among host → among (Connectivity.acquireLock host)
  releaseLock : ∀ {host}, among host → among (Connectivity.releaseLock host)

/-- Of what a pass wants changed everything is refused, and nothing else is left to be done. -/
structure Settled (m : Mobility) (p : Platform) (unbindable stuck : Address → Prop) : Prop where
  stuck : ∀ a ∈ (m.steps p).removed, stuck a
  unbindable : ∀ e ∈ (m.steps p).added, unbindable e.1
  active : m.snapshot.active = p.active
  clean : m.dirty = false
  lock : m.lockHeld = usesWifi p p.active

namespace Steady

variable [Engine σ] [Connectivity σ] {p : Platform} {unbindable stuck : Address → Prop}
  {among : σ → Prop} {m : Mobility} {w : World σ} {a : Address}

/-! ## The host stays among its states -/

theorem removeAll_host (H : Steady p unbindable stuck among) {as : List Address}
    (hw : among w.host) : among (removeAll as w).2.host := by
  induction as generalizing w with
  | nil => exact hw
  | cons a as ih => exact ih (w := (w.removeAddress a).2) (H.removeAddress hw)

theorem addAll_host (H : Steady p unbindable stuck among) {es : List (Address × String)}
    (hw : among w.host) : among (addAll es w).2.host := by
  induction es generalizing w with
  | nil => exact hw
  | cons e es ih => exact ih (w := (w.addAddress e.1 e.2).2) (H.addAddress hw)

theorem updateResolvers_host (H : Steady p unbindable stuck among) {q : Platform}
    (hw : among w.host) : among (m.updateResolvers q w).2.2.host := by
  unfold updateResolvers
  dsimp only
  repeat' split
  all_goals first | exact hw | exact H.setResolvers hw

theorem followWifi_host (H : Steady p unbindable stuck among) {wifi : Bool} (hw : among w.host) :
    among (m.followWifi wifi w).2.host := by
  unfold followWifi dropLock
  repeat' split
  all_goals first | exact hw | exact H.acquireLock hw | exact H.releaseLock hw

theorem additions_host (H : Steady p unbindable stuck among) (hw : among w.host) :
    among (m.additions w).2.host :=
  H.addAll_host (H.removeAll_host (H.updateResolvers_host hw))

theorem afterReset_host (H : Steady p unbindable stuck among) (hw : among w.host) :
    among (m.afterReset w).host := by
  unfold afterReset
  split
  · exact H.resetTransport (H.additions_host hw)
  · exact H.additions_host hw

theorem reconcile_host (H : Steady p unbindable stuck among) (hw : among w.host) :
    among (m.reconcile w).2.2.host := by
  unfold reconcile
  dsimp only
  rw [updateResolvers_mobility]
  exact H.followWifi_host (H.afterReset_host (m := m) hw)

/-- A pass finds the platform the same whenever it looks at it. -/
theorem surveyed (H : Steady p unbindable stuck among) (hw : among w.host) : m.surveyed w = p :=
  H.platform (H.updateResolvers_host hw)

theorem wifiInUse (H : Steady p unbindable stuck among) (hw : among w.host) :
    m.wifiInUse w = usesWifi p p.active := by
  have hlater : (m.afterReset w).platform = p := H.platform (H.afterReset_host hw)
  rw [Mobility.wifiInUse, hlater, H.surveyed hw]

/-! ## What is refused -/

/-- What is refused of a call and of those after it. -/
theorem mem_refused_iff {bad : Address → Prop} {accepted : Bool} {b : Address}
    {as later : List Address} (hb : accepted = true ↔ ¬ bad b)
    (hlater : a ∈ later ↔ a ∈ as ∧ bad a) :
    a ∈ (if accepted then later else b :: later) ↔ a ∈ b :: as ∧ bad a := by
  split
  · rename_i haccepted
    rw [hlater, List.mem_cons]
    refine ⟨fun h => ⟨.inr h.1, h.2⟩, fun ⟨hmem, hbad⟩ => ⟨hmem.resolve_left ?_, hbad⟩⟩
    rintro rfl
    exact hb.1 haccepted hbad
  · rename_i hrefused
    rw [List.mem_cons, List.mem_cons, hlater, or_and_right]
    refine or_congr_left ⟨fun h => ⟨h, ?_⟩, And.left⟩
    exact h ▸ not_not.1 fun hgood => hrefused (hb.2 hgood)

theorem mem_removeAll_iff (H : Steady p unbindable stuck among) {as : List Address}
    (hw : among w.host) : a ∈ (removeAll as w).1 ↔ a ∈ as ∧ stuck a := by
  induction as generalizing w with
  | nil => simp [removeAll]
  | cons b as ih => exact mem_refused_iff (H.remove_iff hw) (ih (H.removeAddress hw))

theorem mem_addAll_iff (H : Steady p unbindable stuck among) {es : List (Address × String)}
    (hw : among w.host) : a ∈ (addAll es w).1 ↔ a ∈ es.map (·.1) ∧ unbindable a := by
  induction es generalizing w with
  | nil => simp [addAll]
  | cons e es ih => exact mem_refused_iff (H.add_iff hw) (ih (H.addAddress hw))

theorem mem_unremoved_iff (H : Steady p unbindable stuck among) (hw : among w.host) :
    a ∈ m.unremoved w ↔ a ∈ (m.steps p).removed ∧ stuck a := by
  rw [← H.surveyed (m := m) hw]
  exact H.mem_removeAll_iff (H.updateResolvers_host hw)

theorem mem_unadded_iff (H : Steady p unbindable stuck among) (hw : among w.host) :
    a ∈ m.unadded w ↔ a ∈ (m.steps p).added.map (·.1) ∧ unbindable a := by
  rw [← H.surveyed (m := m) hw]
  exact H.mem_addAll_iff (H.removeAll_host (H.updateResolvers_host hw))

/-! ## Settling -/

theorem wanted_reconcile : (m.reconcile w).2.1.wanted p = m.wanted p := by
  rw [reconcile_mobility]
  rfl

theorem get?_snapshot_reconcile (H : Steady p unbindable stuck among) (hw : among w.host) :
    (m.reconcile w).2.1.snapshot.addresses.get? a =
      (if a ∈ m.unadded w then none else (m.wanted p).addresses.get? a).or
        (if a ∈ m.unremoved w then m.snapshot.addresses.get? a else none) := by
  rw [reconcile_mobility, reachedAddresses, get?_reached, H.surveyed hw]

/-- One pass settles the mobility, whatever was before. -/
theorem settled_reconcile (H : Steady p unbindable stuck among) (hw : among w.host) :
    (m.reconcile w).2.1.Settled p unbindable stuck where
  stuck := by
    intro a ha
    obtain ⟨hdiffers, name, hname⟩ := SnapshotDiff.mem_removed_iff.1 ha
    rw [wanted_reconcile] at hdiffers
    rw [H.get?_snapshot_reconcile hw] at hdiffers hname
    by_contra hfree
    have hgone : a ∉ m.unremoved w := fun h => hfree ((H.mem_unremoved_iff hw).1 h).2
    rw [if_neg hgone, Option.or_none] at hdiffers hname
    split at hdiffers
    · rename_i hunadded
      rw [if_pos hunadded] at hname
      cases hname
    · exact hdiffers rfl
  unbindable := by
    rintro ⟨a, name⟩ he
    obtain ⟨hwanted, hdiffers⟩ := SnapshotDiff.mem_added_iff.1 he
    rw [wanted_reconcile] at hwanted
    rw [H.get?_snapshot_reconcile hw, hwanted] at hdiffers
    by_contra hfree
    have htaken : a ∉ m.unadded w := fun h => hfree ((H.mem_unadded_iff hw).1 h).2
    rw [if_neg htaken] at hdiffers
    exact hdiffers rfl
  active := by
    rw [reconcile_mobility]
    exact congrArg Platform.active (H.surveyed hw)
  clean := by rw [reconcile_mobility]
  lock := by
    rw [reconcile_mobility]
    exact H.wifiInUse hw

end Steady

/-! ## A pass when all is settled -/

namespace Settled

variable [Engine σ] [Connectivity σ] {p : Platform} {unbindable stuck : Address → Prop}
  {among : σ → Prop} {m : Mobility} {w : World σ} {a : Address}

theorem mem_unremoved_iff (S : m.Settled p unbindable stuck)
    (H : Steady p unbindable stuck among) (hw : among w.host) :
    a ∈ m.unremoved w ↔ a ∈ (m.steps p).removed := by
  rw [H.mem_unremoved_iff hw]
  exact ⟨And.left, fun ha => ⟨ha, S.stuck a ha⟩⟩

theorem mem_unadded_iff (S : m.Settled p unbindable stuck)
    (H : Steady p unbindable stuck among) (hw : among w.host) :
    a ∈ m.unadded w ↔ a ∈ (m.steps p).added.map (·.1) := by
  rw [H.mem_unadded_iff hw]
  refine ⟨And.left, fun ha => ⟨ha, ?_⟩⟩
  obtain ⟨e, he, rfl⟩ := List.mem_map.1 ha
  exact S.unbindable e he

theorem removedCount_eq_zero (S : m.Settled p unbindable stuck)
    (H : Steady p unbindable stuck among) (hw : among w.host) : m.removedCount w = 0 := by
  have hle : (m.steps p).removed.length ≤ (m.unremoved w).length :=
    (List.subperm_of_subset (nodup_removed m p) fun a ha => (S.mem_unremoved_iff H hw).2 ha).length_le
  rw [← H.surveyed (m := m) hw] at hle
  exact Nat.sub_eq_zero_of_le hle

theorem addedCount_eq_zero (S : m.Settled p unbindable stuck)
    (H : Steady p unbindable stuck among) (hw : among w.host) : m.addedCount w = 0 := by
  have hle : ((m.steps p).added.map (·.1)).length ≤ (m.unadded w).length :=
    (List.subperm_of_subset (nodup_added m p) fun a ha => (S.mem_unadded_iff H hw).2 ha).length_le
  rw [List.length_map, ← H.surveyed (m := m) hw] at hle
  exact Nat.sub_eq_zero_of_le hle

theorem not_resets (S : m.Settled p unbindable stuck) (H : Steady p unbindable stuck among)
    (hw : among w.host) : m.resets w = false := by
  have hactive : (m.surveyed w).active = m.snapshot.active := by
    rw [S.active, H.surveyed hw]
  unfold resets
  rw [S.removedCount_eq_zero H hw, S.addedCount_eq_zero H hw, S.clean, hactive]
  simp

theorem lockEffects_eq_nil (S : m.Settled p unbindable stuck) (H : Steady p unbindable stuck among)
    (hw : among w.host) : m.lockEffects (m.wifiInUse w) = [] := by
  have hlock : m.wifiInUse w = m.lockHeld := by
    rw [S.lock, H.wifiInUse hw]
  exact if_pos hlock

theorem snapshot_reconcile (S : m.Settled p unbindable stuck)
    (H : Steady p unbindable stuck among) (hw : among w.host) :
    (m.reconcile w).2.1.snapshot = m.snapshot := by
  have haddresses : (m.reconcile w).2.1.snapshot.addresses = m.snapshot.addresses := by
    refine AddressTable.ext_get? fun a => ?_
    have hremoved : a ∈ m.unremoved w ↔ m.snapshot.addresses.get? a ≠
        (m.wanted p).addresses.get? a ∧ ∃ name, m.snapshot.addresses.get? a = some name :=
      (S.mem_unremoved_iff H hw).trans SnapshotDiff.mem_removed_iff
    have hadded : a ∈ m.unadded w ↔ ∃ name, (m.wanted p).addresses.get? a = some name ∧
        m.snapshot.addresses.get? a ≠ some name := by
      rw [S.mem_unadded_iff H hw]
      simp only [List.mem_map, Prod.exists, exists_and_right, exists_eq_right]
      exact exists_congr fun _ => SnapshotDiff.mem_added_iff
    rw [H.get?_snapshot_reconcile hw]
    by_cases hsame : m.snapshot.addresses.get? a = (m.wanted p).addresses.get? a
    · have hkept : a ∉ m.unremoved w := fun h => (hremoved.1 h).1 hsame
      have htaken : a ∉ m.unadded w := fun h => by
        obtain ⟨name, hname, hne⟩ := hadded.1 h
        exact hne (hsame.trans hname)
      rw [if_neg hkept, if_neg htaken, Option.or_none, hsame]
    · have hfirst : (if a ∈ m.unadded w then none else (m.wanted p).addresses.get? a) = none := by
        split
        · rfl
        · rename_i htaken
          refine Option.eq_none_iff_forall_ne_some.2 fun name hname => htaken ?_
          exact hadded.2 ⟨name, hname, hname ▸ hsame⟩
      rw [hfirst, Option.none_or]
      split
      · rfl
      · rename_i hkept
        refine (Option.eq_none_iff_forall_ne_some.2 fun name hname => hkept ?_).symm
        exact hremoved.2 ⟨hsame, name, hname⟩
  have hactive : (m.reconcile w).2.1.snapshot.active = m.snapshot.active := by
    rw [(H.settled_reconcile hw).active, S.active]
  change Snapshot.mk (m.reconcile w).2.1.snapshot.addresses (m.reconcile w).2.1.snapshot.active =
    Snapshot.mk m.snapshot.addresses m.snapshot.active
  rw [haddresses, hactive]

/-- All that a pass still does is to ask for what is refused, and for name servers. -/
theorem mem_passEffects (S : m.Settled p unbindable stuck) (H : Steady p unbindable stuck among)
    (hw : among w.host) {e : Effect} (he : e ∈ m.passEffects w) :
    (∃ servers accepted, e = .setResolvers servers accepted) ∨
      (∃ a name, unbindable a ∧ e = .addAddress a name false) ∨
      (∃ a, stuck a ∧ e = .removeAddress a false) := by
  rcases (m.mem_passEffects_iff w).1 he with he | ⟨a, ha, rfl⟩ | ⟨x, hx, rfl⟩ | he | he
  · unfold resolverEffects at he
    split at he
    · exact .inl ⟨_, _, List.mem_singleton.1 he⟩
    · cases he
  · replace ha : a ∈ (m.steps p).removed := H.surveyed hw ▸ ha
    refine .inr (.inr ⟨a, S.stuck a ha, ?_⟩)
    simp [(S.mem_unremoved_iff H hw).2 ha]
  · replace hx : x ∈ (m.steps p).added := H.surveyed hw ▸ hx
    refine .inr (.inl ⟨x.1, x.2, S.unbindable x hx, ?_⟩)
    simp [(S.mem_unadded_iff H hw).2 (List.mem_map_of_mem hx)]
  · rw [resetEffects, S.not_resets H hw] at he
    cases he
  · rw [S.lockEffects_eq_nil H hw] at he
    cases he

end Settled

/-! ## Name servers -/

/-- The name servers are as they should be, or are not looked at. -/
def ResolversCurrent (m : Mobility) (p : Platform) : Prop :=
  (m.running = true ∧ m.settings.dns.isDynamic = false) ∨ m.wantedResolvers p = m.resolvers

theorem updateResolvers_of_current [Engine σ] {m : Mobility} {p : Platform} {w : World σ}
    (h : m.ResolversCurrent p) : m.updateResolvers p w = (false, m, w) := by
  unfold updateResolvers
  rcases h with ⟨hrunning, hstatic⟩ | hcurrent
  · simp [hrunning, hstatic]
  · simp [hcurrent]

theorem resolverEffects_of_current [Engine σ] {m : Mobility} {p : Platform} {w : World σ}
    (h : m.ResolversCurrent p) : m.resolverEffects p w = [] := by
  refine if_neg fun ⟨hrunning, hdynamic, hstale⟩ => ?_
  rcases h with ⟨-, hstatic⟩ | hcurrent
  · exact Bool.false_ne_true (hstatic.symm.trans hdynamic)
  · exact hstale hcurrent

/-- Name servers that the engine accepts are current after a pass. -/
theorem resolversCurrent_reconcile [Engine σ] [Connectivity σ] {m : Mobility} {w : World σ}
    (haccepts : ∀ servers, (w.setResolvers servers).1 = true) :
    (m.reconcile w).2.1.ResolversCurrent w.platform := by
  have hupdated : (m.running = true ∧ m.settings.dns.isDynamic = false) ∨
      m.wantedResolvers w.platform = (m.updateResolvers w.platform w).2.1.resolvers := by
    unfold updateResolvers
    split
    · rename_i hstatic
      exact .inl (by simpa using hstatic)
    · dsimp only
      rw [haccepts, if_pos rfl]
      repeat' split
      all_goals first | exact .inr ‹_› | exact .inr rfl
  rw [reconcile_mobility]
  exact hupdated

/-- A settled mobility of which nothing is refused has nothing to do. -/
theorem Settled.idle [Engine σ] [Connectivity σ] {p : Platform} {unbindable stuck : Address → Prop}
    {among : σ → Prop} {m : Mobility} {w : World σ} (S : m.Settled p unbindable stuck)
    (H : Steady p unbindable stuck among) (hw : among w.host) (hbind : ∀ a, ¬ unbindable a)
    (hfree : ∀ a, ¬ stuck a) (hcurrent : m.ResolversCurrent p) :
    m.passEffects w = [] ∧ (m.reconcile w).1 = {} := by
  have hremoved : (m.steps p).removed = [] :=
    List.eq_nil_iff_forall_not_mem.2 fun a ha => hfree a (S.stuck a ha)
  have hadded : (m.steps p).added = [] :=
    List.eq_nil_iff_forall_not_mem.2 fun e he => hbind e.1 (S.unbindable e he)
  have hkept : m.unremoved w = [] := List.eq_nil_iff_forall_not_mem.2 fun a ha => by
    simpa [hremoved] using (S.mem_unremoved_iff H hw).1 ha
  have htaken : m.unadded w = [] := List.eq_nil_iff_forall_not_mem.2 fun a ha => by
    simpa [hadded] using (S.mem_unadded_iff H hw).1 ha
  have hplatform : w.platform = p := H.platform hw
  constructor
  · rw [passEffects, S.lockEffects_eq_nil H hw, resetEffects, S.not_resets H hw, hplatform, H.surveyed hw,
      hremoved, hadded, resolverEffects_of_current hcurrent]
    rfl
  · rw [reconcile_outcome, S.addedCount_eq_zero H hw, S.removedCount_eq_zero H hw, hkept, htaken,
      S.not_resets H hw, hplatform, updateResolvers_of_current hcurrent]
    rfl

/-! ## Passes again and again -/

section

variable [Engine σ] [Connectivity σ]

/-- A mobility and its world after a number of passes with nothing between them. -/
def afterPasses (m : Mobility) (w : World σ) : Nat → Mobility × World σ
  | 0 => (m, w)
  | n + 1 => ((afterPasses m w n).1.reconcile (afterPasses m w n).2).2

variable {p : Platform} {unbindable stuck : Address → Prop} {among : σ → Prop}

theorem Steady.afterPasses_host (H : Steady p unbindable stuck among) (m : Mobility)
    {w : World σ} (hw : among w.host) (n : Nat) : among (m.afterPasses w n).2.host := by
  induction n with
  | zero => exact hw
  | succ n ih => exact H.reconcile_host ih

/-- **No flapping.** From any state, against a host that refuses the same addresses every time, every
pass after the first asks only for what is refused and leaves the snapshot alone; if nothing is refused
it asks for nothing. -/
theorem later_pass_quiet (H : Steady p unbindable stuck among) (m : Mobility) (w : World σ)
    (hw : among w.host) (n : Nat) :
    (∀ e ∈ (m.afterPasses w (n + 2)).2.since (m.afterPasses w (n + 1)).2,
      (∃ servers accepted, e = .setResolvers servers accepted) ∨
      (∃ a name, unbindable a ∧ e = .addAddress a name false) ∨
      (∃ a, stuck a ∧ e = .removeAddress a false)) ∧
    (m.afterPasses w (n + 2)).1.snapshot = (m.afterPasses w (n + 1)).1.snapshot ∧
    ((∀ a, ¬ unbindable a) → (∀ a, ¬ stuck a) →
      (∀ host servers, among host → (Engine.setResolvers servers host).1 = true) →
      (m.afterPasses w (n + 2)).2.since (m.afterPasses w (n + 1)).2 = [] ∧
      ((m.afterPasses w (n + 1)).1.reconcile (m.afterPasses w (n + 1)).2).1 = {}) := by
  have hbefore : among (m.afterPasses w n).2.host := H.afterPasses_host m hw n
  have hhost : among (m.afterPasses w (n + 1)).2.host := H.afterPasses_host m hw (n + 1)
  have S : (m.afterPasses w (n + 1)).1.Settled p unbindable stuck := H.settled_reconcile hbefore
  have hsince : (m.afterPasses w (n + 2)).2.since (m.afterPasses w (n + 1)).2 =
      (m.afterPasses w (n + 1)).1.passEffects (m.afterPasses w (n + 1)).2 :=
    World.since_eq (reconcile_trace _ _)
  rw [hsince]
  refine ⟨fun e he => S.mem_passEffects H hhost he, S.snapshot_reconcile H hhost,
    fun hbind hfree haccepts => S.idle H hhost hbind hfree ?_⟩
  have hcurrent : (m.afterPasses w (n + 1)).1.ResolversCurrent (m.afterPasses w n).2.platform :=
    resolversCurrent_reconcile fun servers => haccepts _ servers hbefore
  exact H.platform hbefore ▸ hcurrent

/-- The bench is steady as long as nobody tells its engine or its networks otherwise. -/
theorem steady_bench (engine : Bench.Exchange) (p : Platform) :
    Steady p (· ∈ engine.unbindable) (· ∈ engine.stuck)
      fun b : Bench => b.engine = engine ∧ b.networks.platform = p where
  platform h := h.2
  add_iff := by
    rintro b a - ⟨rfl, -⟩
    simp [Engine.addAddress]
  remove_iff := by
    rintro b a ⟨rfl, -⟩
    simp [Engine.removeAddress]
  addAddress h := h
  removeAddress h := h
  resetTransport h := h
  setResolvers h := h
  acquireLock h := h
  releaseLock h := h

/-- An engine that will not take 10.0.0.5 and will not let go of 10.0.0.9, on a device with 10.0.0.5. -/
def stuckBench : Bench where
  engine := { unbindable := [.v4 0x0A000005], stuck := [.v4 0x0A000009] }
  networks := {
    attached := [{
      id := ⟨1⟩
      properties := some { interface := some "wlan0", addresses := [⟨.v4 0x0A000005, .global⟩] }
      capabilities := some { foreground := true, wifi := true } }]
    active := some ⟨1⟩ }

/-- A mobility that has 10.0.0.9 from a network that is gone. -/
def leftBehind : Mobility where
  running := true
  dirty := true
  snapshot := { addresses := .ofList [(.v4 0x0A000009, "rmnet0")] }

/-- The second pass asks again for both changes, in vain, and keeps the snapshot. -/
theorem later_pass_quiet_stuck :
    (leftBehind.afterPasses ⟨stuckBench, []⟩ 2).1.snapshot =
        (leftBehind.afterPasses ⟨stuckBench, []⟩ 1).1.snapshot ∧
      (leftBehind.afterPasses ⟨stuckBench, []⟩ 2).2.since
          (leftBehind.afterPasses ⟨stuckBench, []⟩ 1).2 =
        [.removeAddress (.v4 0x0A000009) false, .addAddress (.v4 0x0A000005) "wlan0" false] := by
  have hquiet := later_pass_quiet (steady_bench stuckBench.engine stuckBench.networks.platform)
    leftBehind ⟨stuckBench, []⟩ ⟨rfl, rfl⟩ 0
  rw [Nat.zero_add, Nat.zero_add] at hquiet
  refine ⟨hquiet.2.1, ?_⟩
  decide

end

end Softphone.Mobility
