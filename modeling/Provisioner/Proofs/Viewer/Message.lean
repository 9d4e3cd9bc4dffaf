import Provisioner.Proofs.Json.Parsing
import Provisioner.Viewer.Message

/-!
# Messages are read back

A message is written as one object with its kind under `type` and is read back unchanged, whatever
characters its texts hold and whatever its number is.
-/

namespace Provisioner

@[simp] theorem MachineStatus.ofJson?_toJson (isNothing : Json.Value → Bool)
    (status : MachineStatus) : ofJson? isNothing status.toJson = some status :=
  ofWord?_word status

namespace Snapshot

/-- What is written for each field. -/
def fields (s : Snapshot) : List (String × Option Json.Value) :=
  [("id", some (.int s.id.toInt)), ("name", some (.text s.name)),
    ("address", some (.text s.address)), ("status", some s.status.toJson),
    ("credential_removed", some (.bool s.credentialRemoved))]

theorem toJson_eq (s : Snapshot) : s.toJson = .ofFields s.fields := rfl

/-- A snapshot is read back. -/
@[simp] theorem ofJson?_toJson (s : Snapshot) : ofJson? s.toJson = some s := by
  have hd : (s.fields.map (·.1)).Nodup := by simp [fields]
  have hr : (Json.Value.ofFields s.fields).record? fieldNames =
      some ⟨false, Json.given s.fields⟩ := Json.record?_ofFields hd (by simp [fields, fieldNames])
  have hi : s.fields.lookup "id" = some (some (.int s.id.toInt)) := by simp [fields]
  have hn : s.fields.lookup "name" = some (some (.text s.name)) := by
    simp [fields, List.lookup_cons]
  have ha : s.fields.lookup "address" = some (some (.text s.address)) := by
    simp [fields, List.lookup_cons]
  have hs : s.fields.lookup "status" = some (some s.status.toJson) := by
    simp [fields, List.lookup_cons]
  have hc : s.fields.lookup "credential_removed" = some (some (.bool s.credentialRemoved)) := by
    simp [fields, List.lookup_cons]
  have hid : Json.Value.int64? (.int s.id.toInt) = some s.id := Json.Number.toInt64?_ofInt s.id
  simp [ofJson?, toJson_eq, hr, Json.Record.required_given hd hi, Json.Record.required_given hd hn,
    Json.Record.required_given hd ha, Json.Record.required_given hd hs,
    Json.Record.required_given hd hc, hid]

theorem plain_toJson (s : Snapshot) : s.toJson.Plain 1 := by
  refine .record _ fun field h => ?_
  simp only [List.mem_cons, List.not_mem_nil, or_false] at h
  obtain rfl | rfl | rfl | rfl | rfl := h
  · have hlow := s.id.le_toInt
    have hhigh := s.id.toInt_lt
    exact .int _ (by simp only [UInt64.size]; omega)
  · exact .text s.name
  · exact .text s.address
  · exact .text s.status.word
  · exact .bool s.credentialRemoved

end Snapshot

namespace Message

variable (m : Message)

/-- A message is read back from its value. -/
theorem ofJson?_toJson : ofJson? m.toJson = some m := by
  cases m <;>
    simp [toJson, members, kind, Json.Value.record, ofJson?, ofMembers?, memberNames?,
      Json.Record.ofMembers?, Json.knownMembers?, Json.namesDistinct, ofFields?,
      Json.Record.required, Json.Record.get?, Json.Value.text, Json.Value.text?, List.lookup_cons]

/-- A message is one object that holds at most one more. -/
theorem plain_toJson : m.toJson.Plain 2 := by
  refine .record _ fun field h => ?_
  obtain rfl | h := List.mem_cons.1 h
  · exact .text m.kind
  · cases m with
    | init machine =>
      obtain rfl := List.mem_singleton.1 h
      exact machine.plain_toJson
    | log line =>
      obtain rfl := List.mem_singleton.1 h
      exact .text line
    | status value credentialRemoved =>
      simp only [members, List.mem_cons, List.not_mem_nil, or_false] at h
      obtain rfl | rfl := h
      · exact .text value.word
      · exact .bool credentialRemoved

theorem parse_text {reading : Json.Reading} (hr : reading.Admits 2) :
    Json.parse reading m.text.toList = .ok m.toJson :=
  Json.parse_render m.plain_toJson hr

/-- A message is read back from its text. -/
theorem ofText?_text : ofText? m.text = some m := by
  have hdepth : (Json.Reading.strict Json.maximalDepth).Admits 2 :=
    (by decide : 2 ≤ Json.maximalDepth)
  rw [ofText?, parse_text m hdepth]
  exact ofJson?_toJson m

/--
**What is sent is read back as the same message.** The text is one object whose only member
`type` is the message's kind, and no other message has the same text.
-/
theorem wire_round_trip :
    ofText? m.text = some m ∧
      (∃ members, Json.parse (.strict Json.maximalDepth) m.text.toList = .ok (.object members) ∧
        members.filter (·.1 == some "type") = [(some "type", .text m.kind)]) ∧
      ∀ other : Message, other.text = m.text ↔ other = m := by
  have hdepth : (Json.Reading.strict Json.maximalDepth).Admits 2 :=
    (by decide : 2 ≤ Json.maximalDepth)
  have hparse := parse_text m hdepth
  refine ⟨m.ofText?_text, ⟨_, hparse, ?_⟩, fun other => ⟨fun h => ?_, fun h => by rw [h]⟩⟩
  · cases m <;> simp [members]
  · exact Option.some.inj (other.ofText?_text.symm.trans (h ▸ m.ofText?_text))

end Message

end Provisioner
