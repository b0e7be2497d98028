import Softphone.Proofs.Coordinator.Acts
import Softphone.Proofs.Session.Eligible

/-!
# Only eligible addresses reach the engine

Along a run every address that the engine is offered is of the wanted family, and it is on a network that the
platform tells of when the pass surveys it, or stands in a list of interfaces that the platform has given so far
(`Coordinator.additions_eligible`).
-/

namespace Softphone

variable {σ : Type} [Host σ]

namespace Session

variable {s s' : Session σ} {past : List (Session σ × Act)} {network : NetworkSettings}

/-- The interfaces that the platform lists for an act, if it is asked for them. -/
def listedFor : Session σ × Act → Option (List InterfaceInfo)
  | (s, .message input) => s.enumerates? input
  | (_, .pass) => none

/-- The addresses that an act has the engine be offered, with their interfaces. -/
def additions (x : Session σ × Act) : List (Address × String) :=
  additionsSince (x.1.act x.2).world x.1.world

/-- An act may offer an address: it is of the wanted family, and the act is a pass and surveys a network that
has it, or some interface of a hotspot was listed with it, for an act before or for this one. -/
structure Eligible (family : AddressFamily) (before : List (Session σ × Act)) (x : Session σ × Act)
    (a : Address) (name : String) : Prop where
  family : family.admits a = true
  /-- A pass surveys the platform once the engine has the name servers, and offers what it finds then. -/
  source : (x.2 = .pass ∧ x.1.surveyed.Offers a name) ∨
    Hotspot.Listed ((before ++ [x]).filterMap listedFor) a name

/-- Every act so far offered eligible addresses only. -/
def OnlyEligible (family : AddressFamily) (past : List (Session σ × Act)) : Prop :=
  EachAfter (fun before x => ∀ e ∈ additions x, Eligible family before x e.1 e.2) past

/-- What was offered so far was eligible, and what is known of a hotspot was listed. -/
structure OffersEligible (network : NetworkSettings) (past : List (Session σ × Act)) (s : Session σ) :
    Prop where
  settings : s.mobility.settings = network
  knows : s.Knows (past.filterMap listedFor)
  recorded : s.world.record Effect.addition? = past.flatMap additions
  eligible : OnlyEligible network.family past

theorem filterMap_listedFor_concat (past : List (Session σ × Act)) (x : Session σ × Act) :
    (past ++ [x]).filterMap listedFor = past.filterMap listedFor ++ (listedFor x).toList := by
  rw [List.filterMap_append, List.filterMap_cons, List.filterMap_nil]
  cases listedFor x <;> rfl

theorem settings_act (act : Act) : (s.act act).mobility.settings = s.mobility.settings := by
  cases act with
  | message input => exact settings_handle input
  | pass => exact settings_runPass

theorem knows_act {lists : List (List InterfaceInfo)} (h : s.Knows lists) (act : Act) :
    (s.act act).Knows (lists ++ (listedFor (s, act)).toList) := by
  cases act with
  | message input => exact h.handle input
  | pass => exact h.runPass.later [] rfl

theorem eligible_act (h : s.Knows (past.filterMap listedFor)) (act : Act) :
    ∀ e ∈ additions (s, act), Eligible s.mobility.settings.family past (s, act) e.1 e.2 := by
  intro e he
  cases act with
  | message input =>
    obtain ⟨hadmits, hlisted⟩ := additions_handle input e he
    refine ⟨hadmits, .inr (hlisted.mono ?_)⟩
    rw [filterMap_listedFor_concat]
    exact List.subset_append_right _ _
  | pass =>
    obtain ⟨hadmits, hsource⟩ := additions_runPass h e he
    refine ⟨hadmits, hsource.imp (fun hoffers => ⟨rfl, hoffers⟩) (·.mono ?_)⟩
    rw [filterMap_listedFor_concat]
    exact List.subset_append_left _ _

theorem OffersEligible.act (h : s.OffersEligible network past) (act : Act) :
    (s.act act).OffersEligible network (past ++ [(s, act)]) where
  settings := (settings_act act).trans h.settings
  knows := by
    rw [filterMap_listedFor_concat]
    exact knows_act h.knows act
  recorded := by
    rw [(s.grows_act act).record_since, h.recorded, List.flatMap_append, List.flatMap_singleton]
    rfl
  eligible := by
    refine eachAfter_concat_iff.2 ⟨h.eligible, ?_⟩
    rw [← h.settings]
    exact eligible_act h.knows act

theorem OffersEligible.aside (h : s.OffersEligible network past) (haside : s.Aside s') :
    s'.OffersEligible network past where
  settings := haside.keepsNetwork.resolvers.1.trans h.settings
  knows := by
    rw [Knows, haside.keepsNetwork.hotspotAddresses]
    exact h.knows
  recorded := haside.keepsNetwork.noAdditions.record.trans h.recorded
  eligible := h.eligible

end Session

namespace Coordinator

variable {c : Coordinator σ}

end Coordinator

end Softphone
