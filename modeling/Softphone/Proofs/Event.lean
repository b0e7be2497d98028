import Softphone.Event
import Softphone.Proofs.Json.Decode
import Softphone.Proofs.Timestamp.Written

/-!
# Events in JSON

An event is read back from its JSON, and from the form for the bridge exactly if it has a body
(`Event.read_back_bridge`).
-/

namespace Softphone

@[simp] theorem RegistrationState.ofJson?_toJson (state : RegistrationState) :
    ofJson? state.toJson = some state := by
  cases state <;> rfl

@[simp] theorem CallDirection.ofJson?_toJson (direction : CallDirection) :
    ofJson? direction.toJson = some direction := by
  cases direction <;> rfl

@[simp] theorem Timestamp.ofJson?_toJson (t : Timestamp) : ofJson? t.toJson = some t := by
  simp [ofJson?, toJson, Json.str?]

namespace Event

variable {e : Event} {body : Json}

variable {known : List String} {members : List (String × Json)}

theorem fields?_record (hknown : ∀ m ∈ members, m.1 ∈ known) (hnodup : (members.map Prod.fst).Nodup) :
    fields? known (some (.record members)) = some ⟨true, members⟩ :=
  Json.record?_record hknown hnodup

@[simp] theorem fillPayload_str (s : String) : fillPayload (.str s) = .str s := rfl

/-- A body is read under the name of its event, whether it was held or not. -/
theorem ofBody?_body (h : e.body? = some body) (held : Bool) : ofBody? held e.name (some body) = some e := by
  have hcase (s : String) : (if held then fillPayload (.str s) else .str s) = .str s := by
    rw [fillPayload_str, ite_self]
  cases e with
  | registrationChanged state =>
    cases h
    have hstate : (if held then fillPayload state.toJson else state.toJson) = state.toJson := hcase _
    rw [name, ofBody?, fields?_record (by simp) (by simp)]
    simp [Json.Record.required, hstate]
  | ring remote direction =>
    cases h
    have hdirection : (if held then fillPayload direction.toJson else direction.toJson) = direction.toJson :=
      hcase _
    rw [name, ofBody?, fields?_record (by simp) (by simp)]
    simp [Json.Record.required, List.lookup_cons, Json.str?, hdirection]
  | missed remote time =>
    cases h
    rw [name, ofBody?, fields?_record (by simp) (by simp)]
    simp [Json.Record.required, List.lookup_cons, Json.str?]
  | error message =>
    cases h
    rw [name, ofBody?, fields?_record (by simp) (by simp)]
    simp [Json.Record.required, Json.str?]
  | up | paused | resuming | hangup => cases h

/-- An event without a body is read without one, and not from an empty one. -/
theorem ofBody?_bare (h : e.body? = none) (held : Bool) :
    ofBody? held e.name none = some e ∧ ofBody? held e.name (some (.obj [])) = none := by
  cases e with
  | up | paused | resuming | hangup => exact ⟨rfl, rfl⟩
  | registrationChanged | ring | missed | error => cases h

theorem isHoldable_body (h : e.body? = some body) : body.isHoldable heldDepth = true := by
  cases e with
  | registrationChanged | ring | missed | error =>
    cases h
    rfl
  | up | paused | resuming | hangup => cases h

/-! ## Objects -/

theorem ofJson?_name (name : String) : ofJson? (.record [("event", .str name)]) = ofBody? false name none := by
  have hmembers := Json.knownMembers?_record ["event", "body"]
    [("event", Json.str name)] (by simp) (by simp)
  rw [Json.record, ofJson?, hmembers]
  rfl

theorem ofJson?_name_first (name : String) (body : Json) :
    ofJson? (.record [("event", .str name), ("body", body)]) = ofBody? false name (some body) := by
  have hmembers := Json.knownMembers?_record ["event", "body"]
    [("event", Json.str name), ("body", body)] (by simp) (by simp)
  rw [Json.record, ofJson?, hmembers]
  rfl

theorem ofJson?_body_first (name : String) (hbody : body.isHoldable heldDepth = true) :
    ofJson? (.record [("body", body), ("event", .str name)]) = ofBody? true name (some body) := by
  have hmembers := Json.knownMembers?_record ["event", "body"]
    [("body", body), ("event", Json.str name)] (by simp) (by simp)
  rw [Json.record, ofJson?, hmembers]
  exact if_pos hbody

/-- An event is read back from its own JSON. -/
theorem ofJson?_toJson (e : Event) : ofJson? e.toJson = some e := by
  cases h : e.body? with
  | some body =>
    rw [toJson, h]
    exact (ofJson?_name_first e.name body).trans (ofBody?_body h false)
  | none =>
    rw [toJson, h]
    exact (ofJson?_name e.name).trans (ofBody?_bare h false).1

/-- **Events for the bridge.** An event that has a body is read back from its form for the bridge, in whichever
order the members stand. The empty body that stands for none is refused. -/
theorem read_back_bridge (e : Event) :
    ofJson? e.toBridgeJson = (if e.body?.isSome then some e else none) ∧
    ofJson? (.record [("body", e.body?.getD (.obj [])), ("event", .str e.name)]) =
      (if e.body?.isSome then some e else none) := by
  rw [toBridgeJson, ofJson?_name_first]
  cases h : e.body? with
  | some body =>
    refine ⟨ofBody?_body h false, ?_⟩
    exact (ofJson?_body_first e.name (isHoldable_body h)).trans (ofBody?_body h true)
  | none => exact ⟨(ofBody?_bare h false).2, (ofJson?_body_first e.name rfl).trans (ofBody?_bare h true).2⟩

/-- The end of a call is not read back from its form for the bridge. -/
theorem hangup_not_read_back : ofJson? hangup.toBridgeJson ≠ some hangup := by
  decide

end Event

end Softphone
