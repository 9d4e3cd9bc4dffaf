import Provisioner.Proofs.Inputs.Parameters
import Provisioner.Proofs.Log.Redactor

/-!
# What is handed over in confidence is masked

The secrets are collected from the inputs themselves, not from the parameters that are made of them.
Still they are just the keys of services and the tokens of channels among the parameters, short ones
apart (`Inputs.mem_secrets_iff_handsOver`), and so none of these is left in a line that was masked.
-/

namespace Provisioner.Inputs

/-- The names of the members for the keys of services. -/
def serviceNames : List String :=
  ["anthropic_api_key", "openai_api_key", "gemini_api_key", "wayfinder_api_key"]

/-- Some value is handed over under some name. -/
def HasParameter (x : Inputs) (name : String) (value : Json.Value) : Prop :=
  ∃ p, x.parameters = some p ∧ p.HasMember name value

/-- A text is handed over as the key of a service, or as the token of a channel. -/
def HandsOver (x : Inputs) (s : String) : Prop :=
  (∃ name ∈ serviceNames, x.HasParameter name (.text s)) ∨
    ∃ items, x.HasParameter "channels" (.array items) ∧
      ∃ item ∈ items, item.HasMember "token" (.text s)

variable {x : Inputs} {s : String}

/-! ## What is handed over -/

theorem hasParameter_iff {name : String} {value : Json.Value} :
    x.HasParameter name value ↔ (name, some value) ∈ x.parameterFields := by
  rw [← Json.Value.hasMember_ofFields]
  obtain ⟨hmembers, hnone⟩ | ⟨-, hsome⟩ := x.parameters_of_members
  · rw [parameterMembers_eq_given] at hmembers
    constructor
    · rintro ⟨p, hp, -⟩
      rw [hnone] at hp
      cases hp
    · intro h
      rw [Json.Value.hasMember_ofFields, ← Json.mem_given, hmembers] at h
      cases h
  · constructor
    · rintro ⟨p, hp, h⟩
      obtain rfl := Option.some.inj (hsome.symm.trans hp)
      exact h
    · intro h
      exact ⟨_, hsome, h⟩

theorem text_eq_presentText_iff {value : Option String} :
    some (.text s) = presentText value ↔ present value = some s := by
  have hsome : some (Json.Value.text s) = (some s).map .text := rfl
  rw [hsome, presentText, (Option.map_injective Json.Value.text_injective).eq_iff, eq_comm]

/-- The keys of services are handed over under their names. -/
theorem exists_key_iff : (∃ name ∈ serviceNames, x.HasParameter name (.text s)) ↔
    ∃ key ∈ x.serviceKeys, present key.2 = some s := by
  simp [serviceNames, hasParameter_iff, parameterFields, serviceKeys, text_eq_presentText_iff]

theorem hasParameter_channels_iff {items : List Json.Value} :
    x.HasParameter "channels" (.array items) ↔
      x.channels ≠ [] ∧ items = x.channels.map Channel.parameters := by
  have hfield : x.HasParameter "channels" (.array items) ↔
      x.channelsParameter = some (.array items) := by
    simp [hasParameter_iff, parameterFields, eq_comm]
  rw [hfield, channelsParameter]
  cases x.channels <;> simp [eq_comm]

theorem hasMember_token_iff {c : Channel} :
    c.parameters.HasMember "token" (.text s) ↔ present c.token = some s := by
  rw [c.parameters_eq_ofFields, Json.Value.hasMember_ofFields]
  simp [Channel.parameterFields, text_eq_presentText_iff]

/-- The tokens of channels are handed over with their channels. -/
theorem exists_token_iff :
    (∃ items, x.HasParameter "channels" (.array items) ∧
      ∃ item ∈ items, item.HasMember "token" (.text s)) ↔
    ∃ c ∈ x.channels, present c.token = some s := by
  constructor
  · rintro ⟨items, hitems, item, hitem, htoken⟩
    obtain ⟨-, rfl⟩ := hasParameter_channels_iff.mp hitems
    obtain ⟨c, hc, rfl⟩ := List.mem_map.mp hitem
    exact ⟨c, hc, hasMember_token_iff.mp htoken⟩
  · rintro ⟨c, hc, htoken⟩
    have hchannels := hasParameter_channels_iff.mpr ⟨List.ne_nil_of_mem hc, rfl⟩
    exact ⟨_, hchannels, c.parameters, List.mem_map_of_mem hc, hasMember_token_iff.mpr htoken⟩

/-! ## What is collected -/

/-- A secret is a long key of a service or a long token of a channel. -/
theorem mem_secrets : s ∈ x.secrets ↔ 3 < s.length ∧
    ((∃ key ∈ x.serviceKeys, present key.2 = some s) ∨
      ∃ c ∈ x.channels, present c.token = some s) := by
  rw [secrets, List.mem_filter, List.mem_append, List.mem_filterMap, List.mem_filterMap,
    decide_eq_true_iff, and_comm]
  rfl

/--
**Whatever is handed over in confidence is registered for masking.** The secrets are just the texts
of more than three characters that are handed over as a key of one of the four services or as the
token of a channel. Masked lines hold none of these that is free of asterisks.
-/
theorem mem_secrets_iff_handsOver (x : Inputs) (s : String) :
    (s ∈ x.secrets ↔ 3 < s.length ∧ x.HandsOver s) ∧
    (3 < s.length → x.HandsOver s → '*' ∉ s.toList → ∀ line : String,
      ¬s.toList <:+: ((Redactor.ofSecrets x.secrets).redact line).toList) := by
  have hsecrets : s ∈ x.secrets ↔ 3 < s.length ∧ x.HandsOver s := by
    rw [mem_secrets, HandsOver, exists_key_iff, exists_token_iff]
  refine ⟨hsecrets, fun hlong hover hstar line hleft => ?_⟩
  have hmasked := not_occursIn_redact (hsecrets.mpr ⟨hlong, hover⟩) hstar line
  rw [Text.occursIn_iff.mpr hleft] at hmasked
  cases hmasked

/-- Inputs with a short key, an empty one, and two channels of which one has no token. -/
def confidedInputs : Inputs :=
  { empty with
    sshPublicKey := some "ssh-ed25519 AAAA"
    anthropicKey := some "abc"
    openaiKey := some ""
    geminiKey := some "sk-g3m1n1"
    channels :=
      [⟨"slack", none, some "ops", some "default"⟩, ⟨"telegram", some "123:abc", none, none⟩] }

theorem mem_secrets_iff_handsOver_confided :
    3 < "123:abc".length ∧ confidedInputs.HandsOver "123:abc" ∧ '*' ∉ "123:abc".toList ∧
    confidedInputs.secrets = ["sk-g3m1n1", "123:abc"] ∧
    ¬confidedInputs.HandsOver "default" ∧
    ¬"123:abc".toList <:+:
      ((Redactor.ofSecrets confidedInputs.secrets).redact
        "token 123:abc, key sk-g3m1n1").toList := by
  have hlong : 3 < "123:abc".length := by decide +kernel
  have hstar : '*' ∉ "123:abc".toList := by decide +kernel
  have hsecrets : confidedInputs.secrets = ["sk-g3m1n1", "123:abc"] := by decide +kernel
  obtain ⟨hiff, hmasked⟩ := mem_secrets_iff_handsOver confidedInputs "123:abc"
  obtain ⟨hiff', -⟩ := mem_secrets_iff_handsOver confidedInputs "default"
  have hover : confidedInputs.HandsOver "123:abc" := by
    refine (hiff.mp ?_).2
    rw [hsecrets]
    exact .tail _ (.head _)
  refine ⟨hlong, hover, hstar, hsecrets, fun h => ?_, hmasked hlong hover hstar _⟩
  have hmem := hiff'.mpr ⟨by decide +kernel, h⟩
  rw [hsecrets] at hmem
  exact absurd hmem (by decide +kernel)

end Provisioner.Inputs
