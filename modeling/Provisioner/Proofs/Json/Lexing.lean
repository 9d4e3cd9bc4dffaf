import Provisioner.Json.Parser
import Provisioner.Proofs.Json.Number
import Provisioner.Proofs.Text.Utf8

/-!
# Cutting a written value into its tokens

A value that was written is cut into the tokens that it was written from. A word or a number ends
only where the next token begins, so what reading keeps is where the lexer stands *behind* some
tokens: in the gap behind them, or still in the last one with nothing of it to come.
-/

namespace Provisioner.Json

/--
A value of whole numbers and texts that is nested at most `depth` deep. Whatever the service
writes is of this kind.
-/
inductive Value.Plain : Nat → Value → Prop where
  | null {depth} : Plain depth .null
  | bool {depth} (value : Bool) : Plain depth (.bool value)
  | int {depth} (value : Int) (h : value.natAbs < UInt64.size) : Plain depth (.int value)
  | text {depth} (value : String) : Plain depth (.text value)
  | array {depth} (items : List Value) (h : ∀ item ∈ items, Plain depth item) :
      Plain (depth + 1) (.array items)
  | record {depth} (members : List (String × Value)) (h : ∀ m ∈ members, Plain depth m.2) :
      Plain (depth + 1) (.record members)

namespace Value

theorem itemTokens_singleton (item : Value) :
    itemTokens [item] = item.tokens ++ [.closeBracket] := by rw [itemTokens]

theorem itemTokens_cons_cons (item next : Value) (items : List Value) :
    itemTokens (item :: next :: items) = item.tokens ++ .comma :: itemTokens (next :: items) := by
  rw [itemTokens]
  exact List.cons_ne_nil _ _

/-- The tokens of the members of a record and of its end. -/
def recordTokens (members : List (String × Value)) : List Token :=
  memberTokens (members.map fun (name, value) => (some name, value))

theorem tokens_record (members : List (String × Value)) :
    (record members).tokens = .openBrace :: recordTokens members := by
  rw [record, tokens, recordTokens]

theorem recordTokens_singleton (name : String) (value : Value) :
    recordTokens [(name, value)] =
      .string (some name) :: .colon :: (value.tokens ++ [.closeBrace]) := by
  simp only [recordTokens, List.map_cons, List.map_nil, memberTokens, List.cons_append]

theorem recordTokens_cons_cons (name : String) (value : Value) (next : String × Value)
    (members : List (String × Value)) :
    recordTokens ((name, value) :: next :: members) =
      .string (some name) :: .colon :: (value.tokens ++ .comma :: recordTokens (next :: members)) := by
  simp only [recordTokens, List.map_cons, memberTokens, List.cons_append]

end Value

/-! ## Texts -/

/-- The digits of a control character are read as its number. -/
theorem hexDigit?_digitChar {d : Nat} (h : d < 16) : Text.hexDigit? (Nat.digitChar d) = some d := by
  interval_cases d <;> decide

namespace OpenString

theorem push_paired (chars : List Char) (c : Char) :
    push ⟨chars, true, none⟩ c = ⟨c :: chars, true, none⟩ := rfl

theorem foldl_push (text chars : List Char) :
    text.foldl push ⟨chars, true, none⟩ = ⟨text.reverse ++ chars, true, none⟩ := by
  induction text generalizing chars with
  | nil => rfl
  | cons c text ih => rw [List.foldl_cons, push_paired, ih, List.reverse_cons, List.append_assoc]; rfl

/-- The code unit of a control character stands for that character. -/
theorem pushUnit_toNat (s : OpenString) {c : Char} (h : c.toNat < 0x20) :
    s.pushUnit c.toNat = s.push c := by
  rw [pushUnit, if_neg (by omega), if_neg (by omega), Char.ofNat_toNat]

end OpenString

namespace Lexer

variable (ts : List Token)

/-- **However a character is escaped, it is read as itself.** -/
theorem foldl_escape (s : OpenString) (c : Char) :
    (Token.escape c).foldl push ⟨ts, .string s⟩ = ⟨ts, .string (s.push c)⟩ := by
  by_cases hquote : c = '"'
  · subst hquote; rfl
  by_cases hslash : c = '\\'
  · subst hslash; rfl
  by_cases hb : c = '\x08'
  · subst hb; rfl
  by_cases hf : c = '\x0c'
  · subst hf; rfl
  by_cases hn : c = '\n'
  · subst hn; rfl
  by_cases hr : c = '\r'
  · subst hr; rfl
  by_cases ht : c = '\t'
  · subst ht; rfl
  by_cases hcontrol : c.toNat < 0x20
  · have hhigh := hexDigit?_digitChar (d := c.toNat / 16) (by omega)
    have hlow := hexDigit?_digitChar (d := c.toNat % 16) (by omega)
    have hzero : Text.hexDigit? '0' = some 0 := rfl
    have hvalue : c.toNat / 16 * 16 + c.toNat % 16 = c.toNat := by omega
    simp [Token.escape, hquote, hslash, hb, hf, hn, hr, ht, hcontrol, Token.controlHex, push,
      pushEscape, hzero, hhigh, hlow, hvalue, OpenString.pushUnit_toNat]
  · simp [Token.escape, hquote, hslash, hb, hf, hn, hr, ht, hcontrol, push]

theorem foldl_flatMap_escape (text : List Char) (s : OpenString) :
    (text.flatMap Token.escape).foldl push ⟨ts, .string s⟩ =
      ⟨ts, .string (text.foldl OpenString.push s)⟩ := by
  induction text generalizing s with
  | nil => rfl
  | cons c text ih => rw [List.flatMap_cons, List.foldl_append, foldl_escape, ih, List.foldl_cons]

/-- A quoted text is read as a token of its own. -/
theorem foldl_quote (text : String) :
    (Token.quote text.toList).foldl push ⟨ts, .gap⟩ = ⟨.string (some text) :: ts, .gap⟩ := by
  have hopen : push ⟨ts, .gap⟩ '"' = ⟨ts, .string .empty⟩ := rfl
  have hread : text.toList.foldl OpenString.push .empty = ⟨text.toList.reverse, true, none⟩ := by
    rw [OpenString.empty, OpenString.foldl_push, List.append_nil]
  have hclose : OpenString.close ⟨text.toList.reverse, true, none⟩ = .string (some text) := by
    simp [OpenString.close, OpenString.unpair]
  rw [Token.quote, List.cons_append, List.foldl_cons, List.foldl_append, hopen,
    foldl_flatMap_escape, hread, ← hclose]
  rfl

/-! ## Whole numbers -/

theorem foldl_digits {digits : List Char} (h : ∀ c ∈ digits, Number.isDigit c = true)
    (chars : List Char) :
    digits.foldl push ⟨ts, .number .whole chars⟩ =
      ⟨ts, .number .whole (digits.reverse ++ chars)⟩ := by
  induction digits generalizing chars with
  | nil => rfl
  | cons c digits ih =>
    simp only [List.mem_cons, forall_eq_or_imp] at h
    have hpush : push ⟨ts, .number .whole chars⟩ c = ⟨ts, .number .whole (c :: chars)⟩ := by
      simp [push, pushNumber, NumberPart.next?, h.1]
    rw [List.foldl_cons, hpush, ih h.2, List.reverse_cons, List.append_assoc]
    rfl

/-- Which part of a whole number may be read last. -/
inductive EndsWhole : NumberPart → Prop where
  | leadingZero : EndsWhole .leadingZero
  | whole : EndsWhole .whole

/-- The digits of a number, read where a number starts or behind its sign. -/
theorem foldl_toDigits (n : Nat) (l : Lexer) (chars : List Char)
    (hzero : push l '0' = ⟨ts, .number .leadingZero ('0' :: chars)⟩)
    (hother : ∀ c, Number.isDigit c = true → c ≠ '0' →
      push l c = ⟨ts, .number .whole (c :: chars)⟩) :
    ∃ part, EndsWhole part ∧
      (Nat.toDigits 10 n).foldl push l =
        ⟨ts, .number part ((Nat.toDigits 10 n).reverse ++ chars)⟩ := by
  obtain ⟨c, text, hd, -, h0⟩ := Text.exists_toDigits_eq_cons n
  by_cases hc : c = '0'
  · obtain rfl := h0 hc
    exact ⟨.leadingZero, .leadingZero, hzero⟩
  · have hdigits := Number.isDigit_of_mem_toDigits (n := n)
    rw [hd] at hdigits ⊢
    simp only [List.mem_cons, forall_eq_or_imp] at hdigits
    refine ⟨.whole, .whole, ?_⟩
    rw [List.foldl_cons, hother c hdigits.1 hc, foldl_digits ts hdigits.2, List.reverse_cons,
      List.append_assoc]
    rfl

theorem pushGap_digit {c : Char} (h : Number.isDigit c = true) (h0 : c ≠ '0') :
    pushGap ts c = ⟨ts, .number .whole [c]⟩ := by
  have hne (other : Char) (ho : Number.isDigit other = false) : c ≠ other := by
    rintro rfl; simp [ho] at h
  simp (disch := decide) [pushGap, hne, h, h0]

/-- A whole number is read up to its last digit. -/
theorem foldl_ofInt (value : Int) :
    ∃ part, EndsWhole part ∧
      (Number.ofInt value).chars.foldl push ⟨ts, .gap⟩ =
        ⟨ts, .number part (Number.ofInt value).chars.reverse⟩ := by
  by_cases hv : value < 0
  · have hsign : push ⟨ts, .gap⟩ '-' = ⟨ts, .number .sign ['-']⟩ := rfl
    obtain ⟨part, hpart, hread⟩ := foldl_toDigits ts value.natAbs ⟨ts, .number .sign ['-']⟩ ['-']
      rfl fun c hc h0 => by simp [push, pushNumber, NumberPart.next?, h0, hc]
    exact ⟨part, hpart, by simpa [Number.ofInt, hv, hsign] using hread⟩
  · obtain ⟨part, hpart, hread⟩ := foldl_toDigits ts value.natAbs ⟨ts, .gap⟩ [] rfl fun c hc h0 =>
      pushGap_digit ts hc h0
    exact ⟨part, hpart, by simpa [Number.ofInt, hv] using hread⟩

/-! ## Values -/

variable {ts}

/-- The lexer stands behind the tokens `ts`, last first. -/
inductive Behind : Lexer → List Token → Prop where
  | gap (ts : List Token) : Behind ⟨ts, .gap⟩ ts
  | word (ts : List Token) (token : Token) : Behind ⟨ts, .word [] token⟩ (token :: ts)
  | number (ts : List Token) (part : NumberPart) (chars : List Char) (h : EndsWhole part) :
      Behind ⟨ts, .number part chars⟩ (.number ⟨chars.reverse⟩ :: ts)

theorem Behind.finish_eq {l : Lexer} (h : Behind l ts) : l.finish = ts.reverse := by
  cases h with
  | gap => rfl
  | word => rfl
  | number _ _ _ hpart => cases hpart <;> rfl

/-- A token that may stand behind a value. -/
inductive Follows : Token → Prop where
  | comma : Follows .comma
  | closeBracket : Follows .closeBracket
  | closeBrace : Follows .closeBrace

/-- What was still being read ends where such a token begins. -/
theorem Behind.foldl_follow {l : Lexer} (h : Behind l ts) {token : Token} (ht : Follows token) :
    token.chars.foldl push l = ⟨token :: ts, .gap⟩ := by
  cases h with
  | gap | word => cases ht <;> rfl
  | number _ _ _ hpart => cases hpart <;> cases ht <;> rfl

/-- What reading some tokens, as they are written, leads to. -/
def read (l : Lexer) (tokens : List Token) : Lexer := (tokens.flatMap Token.chars).foldl push l

@[simp] theorem read_nil (l : Lexer) : l.read [] = l := rfl

theorem read_cons (l : Lexer) (token : Token) (tokens : List Token) :
    l.read (token :: tokens) = (token.chars.foldl push l).read tokens := by
  simp [read]

theorem read_append (l : Lexer) (a b : List Token) : l.read (a ++ b) = (l.read a).read b := by
  simp [read]

theorem Behind.read_follow {l : Lexer} (h : Behind l ts) {token : Token} (ht : Follows token)
    (tokens : List Token) : l.read (token :: tokens) = read ⟨token :: ts, .gap⟩ tokens := by
  rw [read_cons, h.foldl_follow ht]

theorem read_name (ts : List Token) (name : String) (tokens : List Token) :
    read ⟨ts, .gap⟩ (.string (some name) :: .colon :: tokens) =
      read ⟨.colon :: .string (some name) :: ts, .gap⟩ tokens := by
  rw [read_cons, Token.chars, foldl_quote]
  rfl

/-- What it takes to read a value: wherever it starts, the lexer ends behind its tokens. -/
def Reads (v : Value) : Prop :=
  ∀ ts, Behind (read ⟨ts, .gap⟩ v.tokens) (v.tokens.reverse ++ ts)

/-- The items of an array are read if each of them is. -/
theorem read_itemTokens {items : List Value} (h : ∀ item ∈ items, Reads item) (ts : List Token) :
    read ⟨ts, .gap⟩ (Value.itemTokens items) =
      ⟨(Value.itemTokens items).reverse ++ ts, .gap⟩ := by
  induction items generalizing ts with
  | nil => rfl
  | cons item items ih =>
    simp only [List.mem_cons, forall_eq_or_imp] at h
    cases items with
    | nil =>
      rw [Value.itemTokens_singleton, read_append, (h.1 ts).read_follow .closeBracket, read_nil]
      simp
    | cons next items =>
      rw [Value.itemTokens_cons_cons, read_append, (h.1 ts).read_follow .comma, ih h.2]
      simp

/-- The members of a record are read if the value of each of them is. -/
theorem read_recordTokens {members : List (String × Value)} (h : ∀ m ∈ members, Reads m.2)
    (ts : List Token) :
    read ⟨ts, .gap⟩ (Value.recordTokens members) =
      ⟨(Value.recordTokens members).reverse ++ ts, .gap⟩ := by
  induction members generalizing ts with
  | nil => rfl
  | cons m members ih =>
    obtain ⟨name, value⟩ := m
    simp only [List.mem_cons, forall_eq_or_imp] at h
    have hvalue := h.1 (.colon :: .string (some name) :: ts)
    cases members with
    | nil =>
      rw [Value.recordTokens_singleton, read_name, read_append, hvalue.read_follow .closeBrace,
        read_nil]
      simp
    | cons next members =>
      rw [Value.recordTokens_cons_cons, read_name, read_append, hvalue.read_follow .comma, ih h.2]
      simp

/-- **A value is read as the tokens that it was written from.** -/
theorem reads_of_plain {depth : Nat} {v : Value} (h : v.Plain depth) : Reads v := by
  intro ts
  induction h generalizing ts with
  | null => exact .word ts .null
  | bool value => cases value <;> exact .word ts _
  | int value =>
    obtain ⟨part, hpart, hread⟩ := foldl_ofInt ts value
    have hb := Behind.number ts part (Number.ofInt value).chars.reverse hpart
    rw [List.reverse_reverse] at hb
    simpa [Value.int, Value.tokens, read, Token.chars, hread] using hb
  | text value =>
    have hread := foldl_quote ts value
    simpa [Value.text, Value.tokens, read, Token.chars, hread] using Behind.gap _
  | array items _ ih =>
    have hread := read_itemTokens ih (.openBracket :: ts)
    have hopen : read ⟨ts, .gap⟩ (.openBracket :: Value.itemTokens items) =
        read ⟨.openBracket :: ts, .gap⟩ (Value.itemTokens items) := rfl
    rw [Value.tokens, hopen, hread, List.reverse_cons, List.append_assoc]
    exact .gap _
  | record members _ ih =>
    have hread := read_recordTokens ih (.openBrace :: ts)
    have hopen : read ⟨ts, .gap⟩ (.openBrace :: Value.recordTokens members) =
        read ⟨.openBrace :: ts, .gap⟩ (Value.recordTokens members) := rfl
    rw [Value.tokens_record, hopen, hread, List.reverse_cons, List.append_assoc]
    exact .gap _

end Lexer

/-- A value that was written is cut into its tokens. -/
theorem tokens_chars {depth : Nat} {v : Value} (h : v.Plain depth) : tokens v.chars = v.tokens := by
  have hend := (Lexer.reads_of_plain h []).finish_eq
  rw [List.append_nil, List.reverse_reverse] at hend
  exact hend

end Provisioner.Json
