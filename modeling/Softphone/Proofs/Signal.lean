import Softphone.Proofs.Text.Fields
import Softphone.Signal.Printer

/-!
# Lines of the engine, read and written

A report on a call is read back from its line, with any blanks around the fields, and whatever is read as a
report on a call could have been written so (`EngineEvent.calls_read_back`).
-/

namespace Softphone

/-! ## Fields -/

/-- A text has the fields of another one with blanks around them. -/
def Text.Respaced (padded text : String) : Prop :=
  List.Forall₂ Padded (splitOn ',' padded.toList) (splitOn ',' text.toList)

/-- What can be written of a call and read back: neither the other party nor a tone hint has a comma or blanks
around it, and a hint is not empty. -/
structure CallEvent.Writable (e : CallEvent) : Prop where
  remote : Text.IsField e.remote.toList
  tone : ∀ tone, e.kind = .closed (some tone) → tone ≠ "" ∧ Text.IsField tone.toList

namespace EngineEvent

variable {text : String} {fs : List String}

theorem fields_of_respaced {padded : String} (h : Text.Respaced padded text) :
    fields padded = fields text := by
  have hmap : ∀ {ps fs : List (List Char)}, List.Forall₂ Text.Padded ps fs →
      ps.map (fun s => String.ofList (Text.trimChars s)) =
        fs.map fun s => String.ofList (Text.trimChars s) := by
    intro ps fs hfields
    induction hfields with
    | nil => rfl
    | cons hpadded _ ih => rw [List.map_cons, List.map_cons, ih, Text.trimChars_of_padded hpadded]
  exact hmap h

theorem isField_of_mem_fields {field : String} (h : field ∈ fields text) :
    Text.IsField field.toList := by
  obtain ⟨s, hs, rfl⟩ := List.mem_map.1 h
  rw [String.toList_ofList]
  exact Text.isField_trimChars (Text.not_mem_of_mem_splitOn hs)

theorem fields_of_isField {field : String} (h : Text.IsField field.toList) :
    fields field = [field] := by
  rw [fields, Text.splitOn_of_not_mem h.comma, List.map_singleton, h.trimChars, String.ofList_toList]

theorem fields_ne_nil (text : String) : fields text ≠ [] :=
  mt List.map_eq_nil_iff.1 (Text.splitOn_ne_nil _ _)

theorem fields_intercalate (f : String) (fs : List String) :
    fields (",".intercalate (f :: fs)) = (f :: fs).flatMap fields := by
  have hcomma : ",".toList = [','] := rfl
  rw [fields, String.toList_intercalate, List.map_cons, hcomma, Text.splitOn_intercalate, List.map_flatMap,
    ← List.map_cons, List.flatMap_map]
  rfl

/-! ## Reading what was written -/

theorem fields_class (kind : CallEventKind) :
    fields ("call " ++ kind.name) = ["call " ++ kind.name] := by
  have hnames : ∀ name ∈ ["incoming", "outgoing", "ringing", "progress", "update", "established",
      "closed"], fields ("call " ++ name) = ["call " ++ name] := by decide
  exact hnames _ (by cases kind <;> simp [CallEventKind.name])

theorem fields_toString (n : Nat) : fields (toString n) = [toString n] := by
  apply fields_of_isField
  rw [Nat.toString_eq_repr, Nat.toList_repr]
  exact Text.isField_toDigits n

theorem number?_toString (n : UInt32) (first : String) (rest : List String) :
    number? (first :: toString n.toNat :: rest) 1 = some n := by
  have hread : Text.readUnsigned? UInt32.size (Nat.toDigits 10 n.toNat) = some n.toNat :=
    Text.readUnsigned?_toDigits n.toNat_lt
  simp [number?, hread]

/-- The hint is found from the end of a line, however many fields come before it. -/
theorem toneHint?_of_reasons {reasons : List String} (h : reasons ≠ []) {tone : String} (htone : tone ≠ "")
    (first remote : String) :
    toneHint? (first :: (reasons ++ [tone] ++ [remote])) = some tone := by
  have hreasons : 0 < reasons.length := List.length_pos_iff.2 h
  have hlength : (first :: (reasons ++ [tone] ++ [remote])).length = reasons.length + 1 + 2 := by simp
  have hhint : (first :: (reasons ++ [tone] ++ [remote]))[reasons.length + 1]? = some tone := by simp
  rw [toneHint?, hlength, if_pos (by omega), Nat.add_sub_cancel, hhint, nonempty?, Option.filter_some,
    if_pos (decide_eq_true htone)]

section

variable {e : CallEvent} (h : e.Writable) (reasons : String)
include h

theorem fields_line : fields (e.line reasons) =
    ("call " ++ e.kind.name) :: ((e.kind.arguments reasons).flatMap fields ++ [e.remote]) := by
  rw [CallEvent.line, fields_intercalate, List.flatMap_cons, List.flatMap_append, fields_class,
    List.flatMap_singleton, fields_of_isField h.remote]
  rfl

theorem remote_line : remote (fields (e.line reasons)) = e.remote := by
  rw [fields_line h, remote, if_pos (by simp), List.getLast?_cons, List.getLast?_concat]
  rfl

theorem callEventKind?_line : callEventKind? (fields (e.line reasons)) = some e.kind := by
  rw [fields_line h]
  obtain ⟨handle, kind, remote⟩ := e
  cases kind with
  | incoming | outgoing | ringing | established => rfl
  | progress flags =>
    have hread : callEventKind? ["call progress", toString flags.toNat, remote] =
        some (.progress ((number? ["call progress", toString flags.toNat, remote] 1).getD 0)) := rfl
    rw [number?_toString] at hread
    rw [CallEventKind.arguments, List.flatMap_singleton, fields_toString]
    exact hread
  | update code =>
    have hread : callEventKind? ["call update", toString code.toNat, remote] =
        (number? ["call update", toString code.toNat, remote] 1).map .update := rfl
    rw [number?_toString] at hread
    rw [CallEventKind.arguments, List.flatMap_singleton, fields_toString]
    exact hread
  | closed tone =>
    cases tone with
    | none => rfl
    | some tone =>
      obtain ⟨hsome, htone⟩ := h.tone tone rfl
      have hread : callEventKind? ("call closed" :: (fields reasons ++ [tone] ++ [remote])) =
          some (.closed (toneHint? ("call closed" :: (fields reasons ++ [tone] ++ [remote])))) := rfl
      rw [toneHint?_of_reasons (fields_ne_nil reasons) hsome] at hread
      rw [CallEventKind.arguments, List.flatMap_cons, List.flatMap_singleton, fields_of_isField htone]
      exact hread

/-- What is written is read back. -/
theorem parse?_line (handle : CallHandle) :
    parse? (e.line reasons) (some handle) = some (.call { e with handle }) := by
  have hread : parse? (e.line reasons) (some handle) =
      (callEventKind? (fields (e.line reasons))).map fun kind =>
        .call ⟨handle, kind, remote (fields (e.line reasons))⟩ := rfl
  rw [hread, callEventKind?_line h, remote_line h, Option.map_some]

end

/-! ## Writing what was read -/

theorem isField_remote (text : String) : Text.IsField (remote (fields text)).toList := by
  have hnone : Text.IsField "".toList := ⟨List.not_mem_nil, nofun, nofun⟩
  rw [remote]
  split
  · cases hlast : (fields text).getLast? with
    | none => exact hnone
    | some last => exact isField_of_mem_fields (List.mem_of_getLast? hlast)
  · exact hnone

theorem tone_of_closed {tone : String} (h : callEventKind? (fields text) = some (.closed (some tone))) :
    tone ≠ "" ∧ tone ∈ fields text := by
  have hhint : toneHint? (fields text) = some tone := by
    rw [callEventKind?] at h
    split at h
    · cases h
    · cases h
    · cases h
    · cases h
    · obtain ⟨code, -, hcode⟩ := Option.map_eq_some_iff.1 h
      cases hcode
    · cases h
    · exact CallEventKind.closed.inj (Option.some.inj h)
    · cases h
  rw [toneHint?] at hhint
  split at hhint
  · obtain ⟨hplace, hsome⟩ := Option.filter_eq_some_iff.1 hhint
    exact ⟨of_decide_eq_true hsome, List.mem_of_getElem? hplace⟩
  · cases hhint

/-- What is read as a report on a call can be written. -/
theorem writable_of_parse? {handle : CallHandle} {event : EngineEvent}
    (h : parse? text (some handle) = some event) :
    ∃ e : CallEvent, event = .call e ∧ e.handle = handle ∧ e.Writable := by
  have hread : parse? text (some handle) = (callEventKind? (fields text)).map fun kind =>
      .call ⟨handle, kind, remote (fields text)⟩ := rfl
  obtain ⟨kind, hkind, rfl⟩ := Option.map_eq_some_iff.1 (hread ▸ h)
  refine ⟨_, rfl, rfl, isField_remote text, fun tone htone => ?_⟩
  obtain ⟨hsome, hmem⟩ := tone_of_closed (hkind.trans (congrArg some htone))
  exact ⟨hsome, isField_of_mem_fields hmem⟩

/-- **Reports on calls are read back.** A report is read from its line exactly if it can be written and is on
the given call; whatever blanks stand around the fields of a text, it reads the same; and all that is read
with a call at hand is a report on that call that can be written, and reads the same when it is. Without a
call at hand only reports on the registration are read. -/
theorem calls_read_back :
    (∀ (e : CallEvent) (reasons : String) (handle : CallHandle),
      parse? (e.line reasons) (some handle) = some (.call e) ↔ e.handle = handle ∧ e.Writable) ∧
    (∀ (padded text : String) (call : Option CallHandle), Text.Respaced padded text →
      parse? padded call = parse? text call) ∧
    (∀ (text : String) (handle : CallHandle) (event : EngineEvent),
      parse? text (some handle) = some event →
      ∃ e : CallEvent, event = .call e ∧ e.handle = handle ∧ e.Writable ∧
        ∀ reasons, parse? (e.line reasons) (some handle) = some (.call e)) ∧
    (∀ (text : String) (event : EngineEvent), parse? text none = some event →
      ∃ signal, event = .registration signal) := by
  refine ⟨fun e reasons handle => ⟨fun h => ?_, ?_⟩, fun padded text call h => ?_,
    fun text handle event h => ?_, fun text event h => ?_⟩
  · obtain ⟨e', heq, hhandle, hwritable⟩ := writable_of_parse? h
    obtain rfl := EngineEvent.call.inj heq
    exact ⟨hhandle, hwritable⟩
  · rintro ⟨rfl, hwritable⟩
    exact parse?_line hwritable reasons e.handle
  · simp only [parse?, fields_of_respaced h]
  · obtain ⟨e, rfl, rfl, hwritable⟩ := writable_of_parse? h
    exact ⟨e, rfl, rfl, hwritable, fun reasons => parse?_line hwritable reasons e.handle⟩
  · obtain ⟨signal, -, rfl⟩ := Option.map_eq_some_iff.1 h
    exact ⟨signal, rfl⟩

/-- A call that closes with a tone hint after two fields of reasons. -/
def busyReport : CallEvent := ⟨⟨3⟩, .closed (some "busy"), "sip:bob@example.com"⟩

/-- Its line with blanks around the fields is read as well. -/
theorem calls_read_back_busy :
    busyReport.line "486,Busy Here" = "call closed,486,Busy Here,busy,sip:bob@example.com" ∧
    Text.Respaced " call closed,486 ,Busy Here,\tbusy, sip:bob@example.com "
      (busyReport.line "486,Busy Here") ∧
    parse? " call closed,486 ,Busy Here,\tbusy, sip:bob@example.com " (some ⟨3⟩) =
      some (.call busyReport) ∧
    busyReport.Writable := by
  have hline : busyReport.line "486,Busy Here" = "call closed,486,Busy Here,busy,sip:bob@example.com" := by
    decide
  have hrespaced : Text.Respaced " call closed,486 ,Busy Here,\tbusy, sip:bob@example.com "
      (busyReport.line "486,Busy Here") := by
    have hspace : Text.AllBlank [' '] := List.forall_mem_singleton.2 rfl
    have htab : Text.AllBlank ['\t'] := List.forall_mem_singleton.2 rfl
    have hnone : Text.AllBlank [] := nofun
    rw [hline]
    exact .cons ⟨[' '], [], hspace, hnone, rfl⟩ <| .cons ⟨[], [' '], hnone, hspace, rfl⟩ <|
      .cons ⟨[], [], hnone, hnone, rfl⟩ <| .cons ⟨['\t'], [], htab, hnone, rfl⟩ <|
      .cons ⟨[' '], [' '], hspace, hspace, rfl⟩ .nil
  have hbusy : Text.IsField "busy".toList := ⟨by decide, by rintro _ ⟨⟩; rfl, by rintro _ ⟨⟩; rfl⟩
  have hbob : Text.IsField "sip:bob@example.com".toList :=
    ⟨by decide, by rintro _ ⟨⟩; rfl, by rintro _ ⟨⟩; rfl⟩
  have hwritable : busyReport.Writable :=
    ⟨hbob, fun tone htone => by cases htone; exact ⟨by decide, hbusy⟩⟩
  exact ⟨hline, hrespaced, (calls_read_back.2.1 _ _ _ hrespaced).trans
    ((calls_read_back.1 busyReport "486,Busy Here" ⟨3⟩).2 ⟨rfl, hwritable⟩), hwritable⟩

end EngineEvent

end Softphone
