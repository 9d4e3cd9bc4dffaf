import Provisioner.Inputs.Stored
import Provisioner.Proofs.Json.Parsing

/-!
# Stored inputs are read back from their text

Whatever characters the keys and tokens hold, the text that is stored for some inputs is read as
those inputs. A text that is empty and one that is absent stay apart.
-/

namespace Provisioner

/-- Fields are plain if what they hold is. -/
theorem Json.plain_ofFields {depth : Nat} {fields : List (String × Option Json.Value)}
    (h : ∀ f ∈ fields, ∀ v ∈ f.2, v.Plain depth) : (Json.Value.ofFields fields).Plain (depth + 1) := by
  refine .record _ fun member hmember => ?_
  obtain ⟨⟨name, value⟩, hmem, hgiven⟩ := List.mem_filterMap.1 hmember
  obtain ⟨v, hv, rfl⟩ := Option.map_eq_some_iff.1 hgiven
  exact h _ hmem v hv

/-- A text that may be absent is plain. -/
theorem Json.plain_map_text {depth : Nat} {text : Option String} :
    ∀ v ∈ text.map Json.Value.text, v.Plain depth := by
  intro v hv
  obtain ⟨text, -, rfl⟩ := Option.map_eq_some_iff.1 hv
  exact .text text

theorem Channel.plain_toJson (c : Channel) : c.toJson.Plain 1 := by
  refine Json.plain_ofFields fun f hf => ?_
  simp only [fields, List.mem_cons, List.not_mem_nil, or_false] at hf
  obtain rfl | rfl | rfl | rfl := hf
  · exact @Json.plain_map_text 0 (some c.kind)
  · exact Json.plain_map_text
  · exact Json.plain_map_text
  · exact Json.plain_map_text

namespace Inputs

variable (x : Inputs)

theorem plain_channelsField : ∀ v ∈ x.channelsField, v.Plain 2 := by
  intro v hv
  unfold channelsField at hv
  split at hv
  · cases hv
  · cases hv
    refine .array _ fun item hitem => ?_
    obtain ⟨c, -, rfl⟩ := List.mem_map.1 hitem
    exact c.plain_toJson

/-- Inputs are an object whose channels are objects in an array. -/
theorem plain_toJson : x.toJson.Plain 3 := by
  refine Json.plain_ofFields fun f hf => ?_
  simp only [fields, List.mem_cons, List.not_mem_nil, or_false] at hf
  obtain rfl | rfl | rfl | rfl | rfl | rfl := hf
  case inr.inr.inr.inr.inr => exact x.plain_channelsField
  all_goals exact Json.plain_map_text

/-- **The text of stored inputs is read as those inputs.** -/
theorem ofText?_stored : ofText? x.stored = some x := by
  have hparse : Json.parse .lenient x.stored.toList = .ok x.toJson :=
    Json.parse_render x.plain_toJson trivial
  rw [ofText?, hparse]
  exact ofJson?_toJson x

end Inputs

end Provisioner
