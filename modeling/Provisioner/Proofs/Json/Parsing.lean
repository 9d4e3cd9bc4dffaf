import Provisioner.Proofs.Json.Lexing

/-!
# Reading what was written

**`parse_chars`**: a plain value that was written is read back, strictly if it is not nested too
deep and leniently at any depth. So different values are never written alike
(`Value.render_injective`). What the parser does with the tokens of a value is to complete
that value inside the frames that are open (`Parser.Completes`); from there it goes on with the
tokens behind.
-/

namespace Provisioner.Json

/-- Whether `open` arrays and objects may be open at once. -/
def Reading.Admits : Reading → Nat → Prop
  | .strict depth, «open» => «open» ≤ depth
  | .lenient, _ => True

theorem Reading.Admits.mono {reading : Reading} {a b : Nat} (h : reading.Admits b) (hab : a ≤ b) :
    reading.Admits a := by
  cases reading with
  | strict depth => exact Nat.le_trans hab h
  | lenient => trivial

theorem Reading.Admits.allowsInside {reading : Reading} {frames : List Frame}
    (h : reading.Admits (frames.length + 1)) : reading.allowsInside frames = true := by
  cases reading with
  | strict depth => exact decide_eq_true h
  | lenient => rfl

theorem Reading.allowsNumber_ofInt (reading : Reading) {value : Int}
    (h : value.natAbs < UInt64.size) : reading.allowsNumber (.ofInt value) = true := by
  cases reading with
  | strict depth => simp [Reading.allowsNumber, Number.exceedsDouble_ofInt h]
  | lenient => rfl

theorem Reading.allowsString_some (reading : Reading) (text : String) :
    reading.allowsString (some text) = true := by
  cases reading <;> rfl

namespace Parser

variable {reading : Reading}

/-- What is read from `rest` once a token led to `p`. -/
def resume (reading : Reading) (p : Progress) (rest : List Token) :
    Except ReadError (Value × List Token) :=
  match p with
  | .continued p => run reading p rest
  | .finished value => .ok (value, rest)
  | .failed => .error .malformed

theorem run_cons (p : Parser) (token : Token) (rest : List Token) :
    run reading p (token :: rest) = resume reading (p.push reading token) rest := rfl

/-- Reading a value inside `frames` completes it there. -/
def Completes (reading : Reading) (frames : List Frame) (v : Value) : Prop :=
  ∀ rest, run reading ⟨frames, .value⟩ (v.tokens ++ rest) =
    resume reading (complete frames v) rest

theorem run_openBracket {frames : List Frame} (h : reading.allowsInside frames = true)
    (rest : List Token) :
    run reading ⟨frames, .value⟩ (.openBracket :: rest) =
      run reading ⟨.array [] :: frames, .firstItem⟩ rest := by
  simp [run_cons, push, pushValue, h, resume]

theorem run_openBrace {frames : List Frame} (h : reading.allowsInside frames = true)
    (rest : List Token) :
    run reading ⟨frames, .value⟩ (.openBrace :: rest) =
      run reading ⟨.object [] none :: frames, .firstName⟩ rest := by
  simp [run_cons, push, pushValue, h, resume]

/-- An array with items does not start with its end. -/
theorem run_firstItem (frames : List Frame) (item : Value) (items : List Value)
    (rest : List Token) :
    run reading ⟨frames, .firstItem⟩ (Value.itemTokens (item :: items) ++ rest) =
      run reading ⟨frames, .value⟩ (Value.itemTokens (item :: items) ++ rest) := by
  have hstart (v : Value) (tail : List Token) :
      run reading ⟨frames, .firstItem⟩ (v.tokens ++ tail) =
        run reading ⟨frames, .value⟩ (v.tokens ++ tail) := by
    cases v <;> simp only [Value.tokens] <;> rfl
  cases items with
  | nil => simp only [Value.itemTokens_singleton, List.append_assoc, hstart]
  | cons next items => simp only [Value.itemTokens_cons_cons, List.append_assoc, hstart]

/-- An object with members does not start with its end. -/
theorem run_firstName (frames : List Frame) (m : String × Value) (members : List (String × Value))
    (rest : List Token) :
    run reading ⟨frames, .firstName⟩ (Value.recordTokens (m :: members) ++ rest) =
      run reading ⟨frames, .name⟩ (Value.recordTokens (m :: members) ++ rest) := by
  cases members with
  | nil => rw [Value.recordTokens_singleton]; rfl
  | cons next members => rw [Value.recordTokens_cons_cons]; rfl

/-- The items of an array complete it if each of them is completed inside it. -/
theorem run_itemTokens {frames : List Frame} {items : List Value} (hne : items ≠ [])
    (done : List Value)
    (h : ∀ item ∈ items, ∀ done, Completes reading (.array done :: frames) item)
    (rest : List Token) :
    run reading ⟨.array done :: frames, .value⟩ (Value.itemTokens items ++ rest) =
      resume reading (complete frames (.array (done.reverse ++ items))) rest := by
  induction items generalizing done with
  | nil => exact absurd rfl hne
  | cons item items ih =>
    simp only [List.mem_cons, forall_eq_or_imp] at h
    cases items with
    | nil =>
      rw [Value.itemTokens_singleton, List.append_assoc, h.1 done]
      simp [complete, resume, run_cons, push, closeArray]
    | cons next items =>
      have hrest := ih (List.cons_ne_nil _ _) (item :: done) h.2
      rw [List.reverse_cons, List.append_assoc] at hrest
      rw [Value.itemTokens_cons_cons, List.append_assoc, h.1 done]
      exact hrest

/-- The name of a member, up to where its value starts. -/
theorem run_name (done : List (Option String × Value)) (frames : List Frame) (name : String)
    (rest : List Token) :
    run reading ⟨.object done none :: frames, .name⟩ (.string (some name) :: .colon :: rest) =
      run reading ⟨.object done (some name) :: frames, .value⟩ rest := by
  simp [run_cons, push, pushName, reading.allowsString_some, resume]

/-- The members of a record complete it if the value of each of them is completed inside it. -/
theorem run_recordTokens {frames : List Frame} {members : List (String × Value)}
    (hne : members ≠ []) (done : List (Option String × Value))
    (h : ∀ m ∈ members, ∀ done name, Completes reading (.object done name :: frames) m.2)
    (rest : List Token) :
    run reading ⟨.object done none :: frames, .name⟩ (Value.recordTokens members ++ rest) =
      resume reading (complete frames
        (.object (done.reverse ++ members.map fun (name, value) => (some name, value)))) rest := by
  induction members generalizing done with
  | nil => exact absurd rfl hne
  | cons m members ih =>
    obtain ⟨name, value⟩ := m
    simp only [List.mem_cons, forall_eq_or_imp] at h
    cases members with
    | nil =>
      rw [Value.recordTokens_singleton, List.cons_append, List.cons_append, run_name,
        List.append_assoc, h.1 done (some name)]
      simp [complete, resume, run_cons, push, closeObject]
    | cons next members =>
      have hrest := ih (List.cons_ne_nil _ _) ((some name, value) :: done) h.2
      rw [List.reverse_cons, List.append_assoc] at hrest
      rw [Value.recordTokens_cons_cons, List.cons_append, List.cons_append, run_name,
        List.append_assoc, h.1 done (some name)]
      exact hrest

/-- **The tokens of a plain value complete it.** -/
theorem completes_of_plain {depth : Nat} {v : Value} (h : v.Plain depth) {frames : List Frame}
    (hr : reading.Admits (frames.length + depth)) : Completes reading frames v := by
  induction h generalizing frames with
  | null | bool => intro rest; rfl
  | int value hv =>
    intro rest
    simp [Value.int, Value.tokens, run_cons, push, pushValue, reading.allowsNumber_ofInt hv]
  | text value =>
    intro rest
    simp [Value.text, Value.tokens, run_cons, push, pushValue, reading.allowsString_some]
  | @array depth items _ ih =>
    intro rest
    have hopen : reading.allowsInside frames = true := (hr.mono (by omega)).allowsInside
    have hitems : ∀ item ∈ items, ∀ done, Completes reading (.array done :: frames) item :=
      fun item hi done => ih item hi (by rw [List.length_cons]; exact hr.mono (by omega))
    rw [Value.tokens, List.cons_append, run_openBracket hopen]
    cases items with
    | nil => rfl
    | cons item items =>
      rw [run_firstItem, run_itemTokens (List.cons_ne_nil _ _) [] hitems]
      rfl
  | @record depth members _ ih =>
    intro rest
    have hopen : reading.allowsInside frames = true := (hr.mono (by omega)).allowsInside
    have hmembers : ∀ m ∈ members, ∀ done name,
        Completes reading (.object done name :: frames) m.2 :=
      fun m hm done name => ih m hm (by rw [List.length_cons]; exact hr.mono (by omega))
    rw [Value.tokens_record, List.cons_append, run_openBrace hopen]
    cases members with
    | nil => rfl
    | cons m members =>
      rw [run_firstName, run_recordTokens (List.cons_ne_nil _ _) [] hmembers]
      rfl

end Parser

/-- **What was written is read back.** -/
theorem parse_chars {reading : Reading} {depth : Nat} {v : Value} (h : v.Plain depth)
    (hr : reading.Admits depth) : parse reading v.chars = .ok v := by
  have hcompletes : Parser.Completes reading [] v := Parser.completes_of_plain h (by simpa using hr)
  have hread := hcompletes []
  rw [List.append_nil] at hread
  rw [parse, parseTokens, tokens_chars h, readValue, Parser.start, hread]
  rfl

/-- Bytes that are UTF-8 are read as their text is. -/
theorem parseBytes_encode (reading : Reading) (text : List Char) :
    parseBytes reading (Text.Utf8.encode text) = parse reading text := by
  have htokens : tokensOfBytes (Text.Utf8.encode text) = tokens text := by
    rw [tokensOfBytes, Text.Utf8.decode_encode, List.foldl_map]
    rfl
  rw [parseBytes, htokens, parse]

theorem parse_render {reading : Reading} {depth : Nat} {v : Value} (h : v.Plain depth)
    (hr : reading.Admits depth) : parse reading v.render.toList = .ok v := by
  rw [Value.render, String.toList_ofList, parse_chars h hr]

/-- **Values of which the same text is written are the same.** -/
theorem Value.render_injective {a b : Nat} {v w : Value} (hv : v.Plain a) (hw : w.Plain b)
    (h : v.render = w.render) : v = w := by
  have hread : parse .lenient v.render.toList = .ok v := parse_render hv trivial
  have hread' : parse .lenient w.render.toList = .ok w := parse_render hw trivial
  rw [h, hread'] at hread
  exact (Except.ok.inj hread).symm

end Provisioner.Json
