import Mathlib.Data.List.Nodup
import Provisioner.Json.Record

/-!
# Objects and the fields they are made of

An object that is made of fields holds a member for each field that has a value, and no others
(`Value.comprises_ofFields`). As long as the names stay the same, other fields make another object
(`Value.ofFields_inj`).
-/

namespace Provisioner.Json

variable {name : String} {value : Value} {fields fields' : List (String × Option Value)}

/-! ## Members -/

/-- The value is an object that has a member of some name with some value. -/
def Value.HasMember (v : Value) (name : String) (value : Value) : Prop :=
  ∃ members, v = .object members ∧ (some name, value) ∈ members

theorem Value.hasMember_record {members : List (String × Value)} :
    (record members).HasMember name value ↔ (name, value) ∈ members := by
  constructor
  · rintro ⟨_, hmembers, hmem⟩
    obtain rfl := Value.object.inj hmembers
    obtain ⟨member, hmember, heq⟩ := List.mem_map.mp hmem
    obtain ⟨hname, hvalue⟩ := Prod.mk.inj heq
    obtain rfl := Option.some.inj hname
    obtain rfl := hvalue
    exact hmember
  · intro hmem
    exact ⟨_, rfl, List.mem_map_of_mem hmem⟩

/-- The members of an object are the fields that have a value. -/
theorem mem_given : (name, value) ∈ given fields ↔ (name, some value) ∈ fields := by
  constructor
  · intro h
    obtain ⟨⟨name', value'⟩, hfield, hgiven⟩ := List.mem_filterMap.mp h
    obtain ⟨v, rfl, heq⟩ := Option.map_eq_some_iff.mp hgiven
    obtain ⟨rfl, rfl⟩ := Prod.mk.inj heq
    exact hfield
  · intro h
    exact List.mem_filterMap.mpr ⟨_, h, rfl⟩

theorem Value.hasMember_ofFields :
    (ofFields fields).HasMember name value ↔ (name, some value) ∈ fields :=
  hasMember_record.trans mem_given

/--
The value is an object with a member for each field that has a value, and no others. A field without
a value has no member.
-/
structure Value.Comprises (v : Value) (fields : List (String × Option Value)) : Prop where
  isObject : ∃ members, v = .object members
  hasMember_iff : ∀ field ∈ fields, ∀ value, v.HasMember field.1 value ↔ field.2 = some value
  mem_names : ∀ name value, v.HasMember name value → name ∈ fields.map (·.1)

/-- **An object is made of just those fields that have a value.** -/
theorem Value.comprises_ofFields (hd : (fields.map (·.1)).Nodup) :
    (ofFields fields).Comprises fields where
  isObject := ⟨_, rfl⟩
  hasMember_iff field hfield value := by
    rw [hasMember_ofFields]
    constructor
    · intro hmem
      exact congrArg Prod.snd (List.inj_on_of_nodup_map hd hfield hmem rfl)
    · rintro hvalue
      rwa [← hvalue]
  mem_names name value h := List.mem_map_of_mem (hasMember_ofFields.mp h)

/-! ## Different fields make different objects -/

/-- The members of several fields, one field after the other. -/
theorem given_cons_cons (field next : String × Option Value)
    (fields : List (String × Option Value)) :
    given (field :: next :: fields) = given [field] ++ given (next :: fields) := by
  obtain ⟨name, value⟩ := field
  cases value <;> rfl

/-- Fields with the same names have the same members only if they are the same. -/
theorem given_inj (hnames : fields.map (·.1) = fields'.map (·.1))
    (hd : (fields.map (·.1)).Nodup) : given fields = given fields' ↔ fields = fields' := by
  refine ⟨fun h => ?_, congrArg given⟩
  induction fields generalizing fields' with
  | nil => exact (List.map_eq_nil_iff.mp hnames.symm).symm
  | cons field fields ih =>
    obtain _ | ⟨field', fields'⟩ := fields'
    · cases hnames
    obtain ⟨name, value⟩ := field
    obtain ⟨name', value'⟩ := field'
    obtain ⟨hname, htail⟩ := List.cons.inj hnames
    obtain rfl : name = name' := hname
    obtain ⟨hfresh, hdtail⟩ := List.nodup_cons.mp hd
    -- the name belongs to no later field of either, so the first members have to agree
    have hlater : ∀ v, (name, v) ∉ given fields := fun v hmem =>
      hfresh (mem_names_of_mem_given hmem)
    have hlater' : ∀ v, (name, v) ∉ given fields' := fun v hmem =>
      hfresh (htail ▸ mem_names_of_mem_given hmem)
    cases value with
    | none =>
      cases value' with
      | none => rw [ih htail hdtail h]
      | some v => exact absurd (h ▸ List.mem_cons_self) (hlater v)
    | some v =>
      cases value' with
      | none => exact absurd (h ▸ List.mem_cons_self) (hlater' v)
      | some v' =>
        obtain ⟨heq, hrest⟩ := List.cons.inj h
        rw [ih htail hdtail hrest, (Prod.mk.inj heq).2]

theorem Value.record_injective : Function.Injective record := by
  intro members members' h
  refine List.map_injective_iff.mpr ?_ (Value.object.inj h)
  rintro ⟨name, value⟩ ⟨name', value'⟩ heq
  simpa using heq

theorem Value.text_injective : Function.Injective text :=
  fun _ _ h => Option.some.inj (Value.string.inj h)

/-- **Other fields of the same names make another object.** -/
theorem Value.ofFields_inj (hnames : fields.map (·.1) = fields'.map (·.1))
    (hd : (fields.map (·.1)).Nodup) : ofFields fields = ofFields fields' ↔ fields = fields' :=
  record_injective.eq_iff.trans (given_inj hnames hd)

end Provisioner.Json
