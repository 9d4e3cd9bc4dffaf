import Provisioner.Json.Value

/-!
# Records read from JSON

A record of named fields is given as an object or as an array of its fields in order. In an
object, members with other names are passed over, a field may be given once only, and every
member's name must be a text. An array may leave out fields at its end, but may not hold more.
-/

namespace Provisioner.Json

/-- The fields that a value gives for a record. -/
structure Record where
  /-- Given as an array, by position. -/
  byPosition : Bool
  fields : List (String × Value)

/-- The members whose names are among `names`; `none` if a name is no text. -/
def knownMembers? (names : List String) :
    List (Option String × Value) → Option (List (String × Value))
  | [] => some []
  | (none, _) :: _ => none
  | (some name, value) :: members =>
    (knownMembers? names members).map fun known =>
      if names.contains name then (name, value) :: known else known

/-- Whether no name is given twice. -/
def namesDistinct : List (String × Value) → Bool
  | [] => true
  | (name, _) :: fields => !fields.any (·.1 == name) && namesDistinct fields

/-- The fields that have a value, in their order. -/
def given (fields : List (String × Option Value)) : List (String × Value) :=
  fields.filterMap fun (name, value) => value.map (name, ·)

/-- An object that leaves out the fields without a value. -/
def Value.ofFields (fields : List (String × Option Value)) : Value := .record (given fields)

/-- The fields that the members of an object give for a record with the fields `names`. -/
def Record.ofMembers? (names : List String) (members : List (Option String × Value)) :
    Option Record := do
  let known ← knownMembers? names members
  if namesDistinct known then some ⟨false, known⟩ else none

/-- The fields that a value gives for a record with the fields `names`. -/
def Value.record? (names : List String) : Value → Option Record
  | .object members => Record.ofMembers? names members
  | .array items => if items.length ≤ names.length then some ⟨true, names.zip items⟩ else none
  | _ => none

namespace Record

/-- What is given for the field `name`. -/
def get? (r : Record) (name : String) : Option Value := r.fields.lookup name

/-- Reads a field that must be given. -/
def required (r : Record) (name : String) (read : Value → Option α) : Option α :=
  (r.get? name).bind read

/-- Reads a field that has the value `default` if it is not given. -/
def defaulted (r : Record) (name : String) (default : α) (read : Value → Option α) : Option α :=
  match r.get? name with
  | some value => read value
  | none => some default

/-- Reads a field that may be absent, where an array must still give a value for it. -/
def optional (r : Record) (name : String) (read : Value → Option (Option α)) : Option (Option α) :=
  match r.get? name with
  | some value => read value
  | none => if r.byPosition then none else some none

end Record

/-! ## Reading what was written -/

@[simp] theorem given_nil : given [] = [] := rfl

@[simp] theorem given_cons_none (name : String) (fields : List (String × Option Value)) :
    given ((name, none) :: fields) = given fields := rfl

@[simp] theorem given_cons_some (name : String) (value : Value)
    (fields : List (String × Option Value)) :
    given ((name, some value) :: fields) = (name, value) :: given fields := rfl

theorem mem_names_of_mem_given {fields : List (String × Option Value)} {f : String × Value}
    (h : f ∈ given fields) : f.1 ∈ fields.map (·.1) := by
  obtain ⟨⟨name, value⟩, hm, hf⟩ := List.mem_filterMap.1 h
  obtain ⟨v, rfl, rfl⟩ := Option.map_eq_some_iff.1 hf
  exact List.mem_map.2 ⟨_, hm, rfl⟩

/-- A field is found under its name. -/
theorem lookup_given {fields : List (String × Option Value)} (h : (fields.map (·.1)).Nodup)
    (name : String) : (given fields).lookup name = (fields.lookup name).join := by
  induction fields with
  | nil => rfl
  | cons f fields ih =>
    obtain ⟨n, v⟩ := f
    simp only [List.map_cons, List.nodup_cons] at h
    have ih := ih h.2
    by_cases hn : name = n
    · subst hn
      cases v with
      | some v => simp
      | none =>
        have : (given fields).lookup name = none := by
          rw [List.lookup_eq_none_iff]
          intro f hf
          have := mem_names_of_mem_given hf
          simp only [bne_iff_ne, ne_eq]
          rintro rfl
          exact h.1 this
        simp [this]
    · have hb : (name == n) = false := by simpa using hn
      cases v <;> simp [List.lookup_cons, hb, ih]

/-- All members of the fields wanted are kept. -/
theorem knownMembers?_given {names : List String} {fields : List (String × Option Value)}
    (h : ∀ n ∈ fields.map (·.1), n ∈ names) :
    knownMembers? names ((given fields).map fun (name, value) => (some name, value)) =
      some (given fields) := by
  induction fields with
  | nil => rfl
  | cons f fields ih =>
    obtain ⟨n, v⟩ := f
    simp only [List.map_cons, List.mem_cons, forall_eq_or_imp] at h
    cases v with
    | none => exact ih h.2
    | some v => simp [knownMembers?, ih h.2, h.1]

theorem namesDistinct_given {fields : List (String × Option Value)}
    (h : (fields.map (·.1)).Nodup) : namesDistinct (given fields) = true := by
  induction fields with
  | nil => rfl
  | cons f fields ih =>
    obtain ⟨n, v⟩ := f
    simp only [List.map_cons, List.nodup_cons] at h
    cases v with
    | none => exact ih h.2
    | some v =>
      have : (given fields).any (·.1 == n) = false := by
        rw [List.any_eq_false]
        intro f hf
        simp only [beq_iff_eq]
        rintro rfl
        exact h.1 (mem_names_of_mem_given hf)
      simp [namesDistinct, this, ih h.2]

/-- An object written from fields of a record gives just these fields. -/
theorem record?_ofFields {names : List String} {fields : List (String × Option Value)}
    (hd : (fields.map (·.1)).Nodup) (hn : ∀ n ∈ fields.map (·.1), n ∈ names) :
    (Value.ofFields fields).record? names = some ⟨false, given fields⟩ := by
  simp [Value.ofFields, Value.record, Value.record?, Record.ofMembers?, knownMembers?_given hn,
    namesDistinct_given hd]

namespace Value

/-- A text. -/
def text? : Value → Option String
  | .string text => text
  | _ => none

/-- A truth value. -/
def bool? : Value → Option Bool
  | .bool value => some value
  | _ => none

/-- A whole number of 64 bits. -/
def int64? : Value → Option Int64
  | .number value => value.toInt64?
  | _ => none

/-- A value that `null` stands for the absence of. -/
def nullable? (read : Value → Option α) : Value → Option (Option α)
  | .null => some none
  | value => (read value).map some

@[simp] theorem text?_text (value : String) : (text value).text? = some value := rfl

@[simp] theorem bool?_bool (value : Bool) : (bool value).bool? = some value := rfl

@[simp] theorem nullable?_text (value : String) :
    nullable? text? (text value) = some (some value) := rfl

/-- An array of values of one kind. -/
def list? (read : Value → Option α) : Value → Option (List α)
  | .array items => items.mapM read
  | _ => none

/-- What is written for each item is read back. -/
theorem list?_array {read : Value → Option α} {write : α → Value}
    (h : ∀ a, read (write a) = some a) (items : List α) :
    list? read (array (items.map write)) = some items := by
  simp only [list?]
  induction items with
  | nil => rfl
  | cons a items ih => simp [List.mapM_cons, h, ih]

end Value

namespace Record

/-- A field that must be given and was written. -/
theorem required_given {fields : List (String × Option Value)} (hd : (fields.map (·.1)).Nodup)
    {name : String} {value : Value} (h : fields.lookup name = some (some value))
    (read : Value → Option α) :
    required ⟨false, given fields⟩ name read = read value := by
  simp [required, get?, lookup_given hd, h]

/-- An optional text that was written, or left out. -/
theorem defaulted_text_given {fields : List (String × Option Value)}
    (hd : (fields.map (·.1)).Nodup) {name : String} {value : Option String}
    (h : fields.lookup name = some (value.map Value.text)) :
    defaulted ⟨false, given fields⟩ name none (Value.nullable? Value.text?) = some value := by
  cases value <;> simp [defaulted, get?, lookup_given hd, h]

end Record

end Provisioner.Json
