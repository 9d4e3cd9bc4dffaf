import Provisioner.Inputs.Basic
import Provisioner.Json.Parser
import Provisioner.Json.Record

/-!
# Stored inputs

Inputs are stored as a JSON object that leaves out what is not given; an empty text is written
and an empty list of channels is not. Reading accepts what writing gives, and more: other members,
`null` for nothing, and the fields by position.

**`Inputs.ofJson?_toJson`**: what is stored is read back unchanged.
-/

namespace Provisioner

namespace Channel

/-- The fields of a channel in their order. -/
def fieldNames : List String := ["type", "token", "name", "account"]

/-- What is written for each field. -/
def fields (c : Channel) : List (String × Option Json.Value) :=
  [("type", some (.text c.kind)), ("token", c.token.map .text), ("name", c.name.map .text),
    ("account", c.account.map .text)]

/-- A channel as it is stored. -/
def toJson (c : Channel) : Json.Value := .ofFields c.fields

/-- Reads a stored channel. -/
def ofJson? (value : Json.Value) : Option Channel := do
  let fields ← value.record? fieldNames
  let text := Json.Value.nullable? Json.Value.text?
  let kind ← fields.required "type" Json.Value.text?
  let token ← fields.defaulted "token" none text
  let name ← fields.defaulted "name" none text
  let account ← fields.defaulted "account" none text
  some ⟨kind, token, name, account⟩

/-- A stored channel is read back unchanged. -/
theorem ofJson?_toJson (c : Channel) : ofJson? c.toJson = some c := by
  have hd : (c.fields.map (·.1)).Nodup := by simp [fields]
  have hr : (Json.Value.ofFields c.fields).record? fieldNames = some ⟨false, Json.given c.fields⟩ :=
    Json.record?_ofFields hd (by simp [fields, fieldNames])
  have hk : c.fields.lookup "type" = some (some (.text c.kind)) := by simp [fields]
  have ht : c.fields.lookup "token" = some (c.token.map .text) := by simp [fields, List.lookup_cons]
  have hn : c.fields.lookup "name" = some (c.name.map .text) := by simp [fields, List.lookup_cons]
  have ha : c.fields.lookup "account" = some (c.account.map .text) := by
    simp [fields, List.lookup_cons]
  simp [ofJson?, toJson, hr, Json.Record.required_given hd hk,
    Json.Record.defaulted_text_given hd ht, Json.Record.defaulted_text_given hd hn,
    Json.Record.defaulted_text_given hd ha]

end Channel

namespace Inputs

/-- The fields of inputs in their order. -/
def fieldNames : List String :=
  ["ssh_public_key", "anthropic_api_key", "openai_api_key", "gemini_api_key",
    "wayfinder_api_key", "channels"]

/-- What is written for the channels. -/
def channelsField (x : Inputs) : Option Json.Value :=
  if x.channels.isEmpty then none else some (.array (x.channels.map Channel.toJson))

/-- What is written for each field. -/
def fields (x : Inputs) : List (String × Option Json.Value) :=
  [("ssh_public_key", x.sshPublicKey.map .text), ("anthropic_api_key", x.anthropicKey.map .text),
    ("openai_api_key", x.openaiKey.map .text), ("gemini_api_key", x.geminiKey.map .text),
    ("wayfinder_api_key", x.wayfinderKey.map .text), ("channels", x.channelsField)]

/-- Inputs as they are stored. -/
def toJson (x : Inputs) : Json.Value := .ofFields x.fields

/-- Reads inputs from the fields given for them. -/
def ofFields? (fields : Json.Record) : Option Inputs := do
  let text := Json.Value.nullable? Json.Value.text?
  let sshPublicKey ← fields.defaulted "ssh_public_key" none text
  let anthropicKey ← fields.defaulted "anthropic_api_key" none text
  let openaiKey ← fields.defaulted "openai_api_key" none text
  let geminiKey ← fields.defaulted "gemini_api_key" none text
  let wayfinderKey ← fields.defaulted "wayfinder_api_key" none text
  let channels ← fields.defaulted "channels" [] (Json.Value.list? Channel.ofJson?)
  some { sshPublicKey, anthropicKey, openaiKey, geminiKey, wayfinderKey, channels }

/-- Reads stored inputs. -/
def ofJson? (value : Json.Value) : Option Inputs := (value.record? fieldNames).bind ofFields?

theorem fields_nodup (x : Inputs) : (x.fields.map (·.1)).Nodup := by simp [fields]

/-- The channels that were written, or left out. -/
theorem defaulted_channels_given (x : Inputs) :
    Json.Record.defaulted ⟨false, Json.given x.fields⟩ "channels" []
      (Json.Value.list? Channel.ofJson?) = some x.channels := by
  have h : x.fields.lookup "channels" = some x.channelsField := by simp [fields, List.lookup_cons]
  cases hc : x.channels with
  | nil => simp [Json.Record.defaulted, Json.Record.get?, Json.lookup_given x.fields_nodup, h,
      channelsField, hc]
  | cons c cs =>
    have := Json.Value.list?_array Channel.ofJson?_toJson (c :: cs)
    simp only [List.map_cons] at this
    simp [Json.Record.defaulted, Json.Record.get?, Json.lookup_given x.fields_nodup, h,
      channelsField, hc, this]

/-- **Stored inputs are read back unchanged.** -/
theorem ofJson?_toJson (x : Inputs) : ofJson? x.toJson = some x := by
  have hd := x.fields_nodup
  have hr : (Json.Value.ofFields x.fields).record? fieldNames = some ⟨false, Json.given x.fields⟩ :=
    Json.record?_ofFields hd (by simp [fields, fieldNames])
  have h1 : x.fields.lookup "ssh_public_key" = some (x.sshPublicKey.map .text) := by simp [fields]
  have h2 : x.fields.lookup "anthropic_api_key" = some (x.anthropicKey.map .text) := by
    simp [fields, List.lookup_cons]
  have h3 : x.fields.lookup "openai_api_key" = some (x.openaiKey.map .text) := by
    simp [fields, List.lookup_cons]
  have h4 : x.fields.lookup "gemini_api_key" = some (x.geminiKey.map .text) := by
    simp [fields, List.lookup_cons]
  have h5 : x.fields.lookup "wayfinder_api_key" = some (x.wayfinderKey.map .text) := by
    simp [fields, List.lookup_cons]
  simp [ofJson?, toJson, hr, ofFields?, Json.Record.defaulted_text_given hd h1,
    Json.Record.defaulted_text_given hd h2, Json.Record.defaulted_text_given hd h3,
    Json.Record.defaulted_text_given hd h4, Json.Record.defaulted_text_given hd h5,
    defaulted_channels_given]

/-- The text of stored inputs. -/
def stored (x : Inputs) : String := x.toJson.render

/-- Reads the text of stored inputs. -/
def ofText? (text : String) : Option Inputs :=
  match Json.parse .lenient text.toList with
  | .ok value => ofJson? value
  | .error _ => none

end Inputs

/-- A JSON value that was stored for the inputs of a machine, and so reads as inputs. -/
structure StoredInputs where
  json : Json.Value
  isSome_ofJson? : (Inputs.ofJson? json).isSome = true

namespace StoredInputs

/-- Stores inputs. -/
def ofInputs (x : Inputs) : StoredInputs := ⟨x.toJson, by rw [Inputs.ofJson?_toJson]; rfl⟩

/-- Reads what was stored. -/
def inputs (s : StoredInputs) : Inputs := (Inputs.ofJson? s.json).get s.isSome_ofJson?

@[simp] theorem inputs_ofInputs (x : Inputs) : (ofInputs x).inputs = x := by
  simp [ofInputs, inputs, Inputs.ofJson?_toJson]

end StoredInputs

end Provisioner
