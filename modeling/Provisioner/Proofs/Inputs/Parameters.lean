import Mathlib.Data.List.Forall2
import Mathlib.Tactic.TFAE
import Provisioner.Proofs.Json.Members
import Provisioner.Proofs.Json.Parsing
import Provisioner.Proofs.Tool.Invocation

/-!
# Nothing but empty texts is lost in the parameters

The parameters are an object with a member for each field that is given and not empty. Inputs that
differ in more than empty texts have different parameters, and these are written differently, so
the configuration tool gets another argument (`Inputs.parameters_lossless`).
-/

namespace Provisioner

/-! ## Inputs without their empty texts -/

/-- The channel without its empty texts. -/
def Channel.withoutEmpty (c : Channel) : Channel :=
  ⟨c.kind, Inputs.present c.token, Inputs.present c.name, Inputs.present c.account⟩

/-- The inputs without their empty texts. -/
def Inputs.withoutEmpty (x : Inputs) : Inputs :=
  { sshPublicKey := present x.sshPublicKey
    anthropicKey := present x.anthropicKey
    openaiKey := present x.openaiKey
    geminiKey := present x.geminiKey
    wayfinderKey := present x.wayfinderKey
    channels := x.channels.map Channel.withoutEmpty }

/-! ## What is handed over for each field -/

/-- What is handed over for a text that may be absent or empty. -/
def presentText (value : Option String) : Option Json.Value := (Inputs.present value).map .text

theorem presentText_inj {a b : Option String} :
    presentText a = presentText b ↔ Inputs.present a = Inputs.present b :=
  (Option.map_injective Json.Value.text_injective).eq_iff

theorem presentMember_eq (name : String) (value : Option String) :
    presentMember name value = Json.given [(name, presentText value)] := by
  unfold presentMember presentText
  cases Inputs.present value <;> rfl

namespace Channel

/-- What is handed over for each field of a channel. -/
def parameterFields (c : Channel) : List (String × Option Json.Value) :=
  [("account", presentText c.account), ("name", presentText c.name),
    ("token", presentText c.token), ("type", some (.text c.kind))]

variable {c d : Channel}

theorem parameterFields_nodup (c : Channel) : (c.parameterFields.map (·.1)).Nodup := by
  simp [parameterFields]

theorem parameters_eq_ofFields (c : Channel) : c.parameters = .ofFields c.parameterFields := by
  simp only [parameters, Json.Value.ofFields, parameterFields, presentMember_eq,
    Json.given_cons_cons, List.append_assoc]
  rfl

/-- Channels have the same parameters just when they differ in empty texts alone. -/
theorem parameters_inj : c.parameters = d.parameters ↔ c.withoutEmpty = d.withoutEmpty := by
  have hnames : c.parameterFields.map (·.1) = d.parameterFields.map (·.1) := rfl
  rw [parameters_eq_ofFields, parameters_eq_ofFields,
    Json.Value.ofFields_inj hnames c.parameterFields_nodup]
  simp only [parameterFields, List.cons.injEq, Prod.mk.injEq, presentText_inj, Option.some.injEq,
    Json.Value.text_injective.eq_iff, withoutEmpty, Channel.mk.injEq]
  tauto

end Channel

namespace Inputs

variable {x y : Inputs}

/-- What is handed over for the channels. -/
def channelsParameter (x : Inputs) : Option Json.Value :=
  if x.channels.isEmpty then none else some (.array (x.channels.map Channel.parameters))

/-- What is handed over for the access key. -/
def accessKeyParameter (x : Inputs) : Option Json.Value :=
  (present x.sshPublicKey).map fun key => .array [.text key]

/-- What is handed over for each field. -/
def parameterFields (x : Inputs) : List (String × Option Json.Value) :=
  [("anthropic_api_key", presentText x.anthropicKey), ("channels", x.channelsParameter),
    ("clawdbot_ssh_keys", x.accessKeyParameter),
    ("gemini_api_key", presentText x.geminiKey), ("openai_api_key", presentText x.openaiKey),
    ("wayfinder_api_key", presentText x.wayfinderKey)]

theorem parameterFields_nodup (x : Inputs) : (x.parameterFields.map (·.1)).Nodup := by
  simp [parameterFields]

theorem parameterMembers_eq_given (x : Inputs) :
    x.parameterMembers = Json.given x.parameterFields := by
  have hchannels : (if x.channels.isEmpty then [] else
      [("channels", Json.Value.array (x.channels.map Channel.parameters))]) =
        Json.given [("channels", x.channelsParameter)] := by
    unfold channelsParameter
    split <;> rfl
  simp only [parameterMembers, hchannels, parameterFields, presentMember_eq,
    Json.given_cons_cons, List.append_assoc]
  unfold accessKeyParameter
  cases present x.sshPublicKey <;> rfl

/-- The channels have the same parameters just when they differ in empty texts alone. -/
theorem channelsParameter_inj : x.channelsParameter = y.channelsParameter ↔
    x.channels.map Channel.withoutEmpty = y.channels.map Channel.withoutEmpty := by
  have hparameters : x.channels.map Channel.parameters = y.channels.map Channel.parameters ↔
      x.channels.map Channel.withoutEmpty = y.channels.map Channel.withoutEmpty := by
    simp only [← List.forall₂_eq_eq_eq, List.forall₂_map_left_iff, List.forall₂_map_right_iff,
      Channel.parameters_inj]
  rw [← hparameters]
  unfold channelsParameter
  cases x.channels <;> cases y.channels <;> simp

/-- Inputs have the same fields to be handed over just when they differ in empty texts alone. -/
theorem parameterFields_inj :
    x.parameterFields = y.parameterFields ↔ x.withoutEmpty = y.withoutEmpty := by
  have hkey : Function.Injective fun key : String => Json.Value.array [.text key] := by
    intro key key' h
    exact Json.Value.text_injective (List.cons.inj (Json.Value.array.inj h)).1
  simp only [parameterFields, List.cons.injEq, Prod.mk.injEq, presentText_inj,
    channelsParameter_inj, accessKeyParameter, (Option.map_injective hkey).eq_iff, withoutEmpty,
    Inputs.mk.injEq]
  tauto

theorem parameterMembers_inj :
    x.parameterMembers = y.parameterMembers ↔ x.withoutEmpty = y.withoutEmpty := by
  have hnames : x.parameterFields.map (·.1) = y.parameterFields.map (·.1) := rfl
  rw [parameterMembers_eq_given, parameterMembers_eq_given,
    Json.given_inj hnames x.parameterFields_nodup, parameterFields_inj]

theorem parameters_of_members (x : Inputs) :
    (x.parameterMembers = [] ∧ x.parameters = none) ∨
      (x.parameterMembers ≠ [] ∧ x.parameters = some (.ofFields x.parameterFields)) := by
  rw [Json.Value.ofFields, ← parameterMembers_eq_given, parameters]
  cases x.parameterMembers with
  | nil => exact .inl ⟨rfl, rfl⟩
  | cons m members => exact .inr ⟨List.cons_ne_nil m members, rfl⟩

/-- Inputs have the same parameters just when they differ in empty texts alone. -/
theorem parameters_inj : x.parameters = y.parameters ↔ x.withoutEmpty = y.withoutEmpty := by
  rw [← parameterMembers_inj]
  constructor
  · intro h
    obtain ⟨hx, hx'⟩ | ⟨hx, hx'⟩ := x.parameters_of_members
    · obtain ⟨hy, -⟩ | ⟨-, hy'⟩ := y.parameters_of_members
      · rw [hx, hy]
      · rw [hx', hy'] at h
        cases h
    · obtain ⟨-, hy'⟩ | ⟨-, hy'⟩ := y.parameters_of_members
      · rw [hx', hy'] at h
        cases h
      · rw [hx', hy'] at h
        rw [parameterMembers_eq_given, parameterMembers_eq_given]
        exact Json.Value.record_injective (Option.some.inj h)
  · intro h
    rw [parameters, parameters, h]

/-- Nothing is handed over just when nothing but empty texts is given, and no channel. -/
theorem parameters_eq_none_iff : x.parameters = none ↔ x.withoutEmpty = empty :=
  -- nothing is handed over for empty inputs, and these hold no empty text
  parameters_inj (y := empty)

/-- **Parameters that are written alike are the same.** -/
theorem render_parameters_inj :
    x.parameters.map Json.Value.render = y.parameters.map Json.Value.render ↔
      x.parameters = y.parameters := by
  refine ⟨fun h => ?_, congrArg _⟩
  cases hx : x.parameters with
  | none =>
    rw [hx, Option.map_none, eq_comm, Option.map_eq_none_iff] at h
    exact h.symm
  | some p =>
    rw [hx, Option.map_some, eq_comm] at h
    obtain ⟨p', hy, htext⟩ := Option.map_eq_some_iff.mp h
    rw [hy, Json.Value.render_injective (plain_parameters hy) (plain_parameters hx) htext]

end Inputs

theorem Tool.inputArguments_inj {x y : Inputs} : Tool.inputArguments x = Tool.inputArguments y ↔
    x.parameters.map Json.Value.render = y.parameters.map Json.Value.render := by
  unfold inputArguments
  cases x.parameters <;> cases y.parameters <;> simp

namespace Inputs

/--
**The parameters lose nothing but empty texts.**

* Inputs that differ in empty texts alone have the same parameters, and so the tool gets the same
  argument; any other two inputs have parameters of which other texts are written.
* Nothing is handed over just when nothing but empty texts is given, and no channel.
* What is read from the text of the parameters is an object with a member for each text that is
  given and not empty, and for the channels if there are any, but with no member for anything else;
  and so is each of the channels in it.
-/
theorem parameters_lossless (x : Inputs) :
    (∀ y : Inputs, List.TFAE [x.withoutEmpty = y.withoutEmpty, x.parameters = y.parameters,
      x.parameters.map Json.Value.render = y.parameters.map Json.Value.render,
      Tool.inputArguments x = Tool.inputArguments y]) ∧
    (x.parameters = none ↔ x.withoutEmpty = empty) ∧
    ∀ p, x.parameters = some p →
      ∃ v, Json.parse (.strict Json.maximalDepth) p.render.toList = .ok v ∧
        v.Comprises x.parameterFields ∧
        ∀ c ∈ x.channels, c.parameters.Comprises c.parameterFields := by
  refine ⟨fun y => ?_, parameters_eq_none_iff, fun p hp => ⟨p, ?_, ?_, ?_⟩⟩
  · tfae_have 2 ↔ 1 := parameters_inj
    tfae_have 3 ↔ 2 := render_parameters_inj
    tfae_have 4 ↔ 3 := Tool.inputArguments_inj
    tfae_finish
  · have hdepth : (Json.Reading.strict Json.maximalDepth).Admits 3 :=
      (by decide : 3 ≤ Json.maximalDepth)
    exact Json.parse_render (plain_parameters hp) hdepth
  · obtain ⟨-, hnone⟩ | ⟨-, hsome⟩ := x.parameters_of_members
    · rw [hnone] at hp
      cases hp
    · obtain rfl := Option.some.inj (hsome.symm.trans hp)
      exact Json.Value.comprises_ofFields x.parameterFields_nodup
  · intro c _
    rw [c.parameters_eq_ofFields]
    exact Json.Value.comprises_ofFields c.parameterFields_nodup

/-- Inputs with empty texts, and with a key of characters that have to be escaped. -/
def quotedInputs : Inputs :=
  { empty with
    anthropicKey := some ""
    openaiKey := some "a\"b\\\n"
    channels := [⟨"telegram", some "123:abc", some "", none⟩] }

/-- The parameters of these inputs. -/
def quotedParameters : Json.Value :=
  .record [("channels", .array [.record [("token", .text "123:abc"), ("type", .text "telegram")]]),
    ("openai_api_key", .text "a\"b\\\n")]

theorem parameters_lossless_quoted :
    quotedInputs.parameters = some quotedParameters ∧
    Tool.inputArguments quotedInputs = ["--extra-vars",
      "\x7b\"channels\":[\x7b\"token\":\"123:abc\",\"type\":\"telegram\"\x7d]," ++
        "\"openai_api_key\":\"a\\\"b\\\\\\n\"\x7d"] ∧
    Tool.inputArguments quotedInputs.withoutEmpty = Tool.inputArguments quotedInputs ∧
    Tool.inputArguments { quotedInputs with channels := [] } ≠ Tool.inputArguments quotedInputs ∧
    ∃ v, Json.parse (.strict Json.maximalDepth) quotedParameters.render.toList = .ok v ∧
      v.HasMember "openai_api_key" (.text "a\"b\\\n") ∧
      (∀ value, ¬v.HasMember "anthropic_api_key" value) ∧
      ∀ value, ¬v.HasMember "clawdbot_ssh_keys" value := by
  have hparameters : quotedInputs.parameters = some quotedParameters := rfl
  obtain ⟨hsame, -, hread⟩ := parameters_lossless quotedInputs
  obtain ⟨v, hparse, hcomprises, -⟩ := hread quotedParameters hparameters
  have hempty : quotedInputs.withoutEmpty = quotedInputs.withoutEmpty.withoutEmpty := by
    decide +kernel
  have hdiffer : quotedInputs.withoutEmpty ≠
      ({ quotedInputs with channels := [] } : Inputs).withoutEmpty := by
    decide +kernel
  have hmember (name : String) (field : Option Json.Value)
      (h : (name, field) ∈ quotedInputs.parameterFields) (value : Json.Value) :
      v.HasMember name value ↔ field = some value :=
    hcomprises.hasMember_iff (name, field) h value
  have hargument (y : Inputs) : quotedInputs.withoutEmpty = y.withoutEmpty ↔
      Tool.inputArguments quotedInputs = Tool.inputArguments y := (hsame y).out 0 3
  refine ⟨hparameters, by decide +kernel, ?_, ?_, v, hparse, ?_, ?_, ?_⟩
  · exact ((hargument _).mp hempty).symm
  · exact fun h => hdiffer ((hargument _).mpr h.symm)
  · exact (hmember _ _ (List.mem_of_getElem? (i := 4) rfl) _).mpr rfl
  · intro value h
    cases (hmember _ none (List.mem_of_getElem? (i := 0) rfl) value).mp h
  · intro value h
    cases (hmember _ none (List.mem_of_getElem? (i := 2) rfl) value).mp h

end Inputs

end Provisioner
