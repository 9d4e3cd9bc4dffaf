import Provisioner.Json.Number
import Provisioner.Text.Digits
import Provisioner.Text.Utf8

/-!
# The tokens of a JSON text

`tokens` cuts a text into tokens. It is one pass over the characters, a fold of `Lexer.push`, so
reading `a ++ b` is reading `b` from where reading `a` ended. A text that goes wrong gives the
tokens in front of the fault and then `Token.malformed`: whoever reads the tokens meets the fault
exactly where it stands, and not before.

A string may hold an escaped surrogate half without its partner, and where bytes are read
(`tokensOfBytes`), bytes that are not UTF-8. Such a string is well-formed but is no text, and its
token carries `none`.
-/

namespace Provisioner.Json

/-- A token of a JSON text. -/
inductive Token where
  | openBrace
  | closeBrace
  | openBracket
  | closeBracket
  | colon
  | comma
  | null
  | bool (value : Bool)
  | number (value : Number)
  /-- A string, with `none` for one that is no text. -/
  | string (text : Option String)
  /-- The text goes wrong here. -/
  | malformed
deriving DecidableEq, Repr

namespace Token

/-- The four hexadecimal digits, in lower case, of a control character. -/
def controlHex (c : Char) : List Char :=
  ['0', '0', Nat.digitChar (c.toNat / 16), Nat.digitChar (c.toNat % 16)]

/-- How a character is written inside a string. -/
def escape (c : Char) : List Char :=
  if c = '"' then ['\\', '"']
  else if c = '\\' then ['\\', '\\']
  else if c = '\x08' then ['\\', 'b']
  else if c = '\x0c' then ['\\', 'f']
  else if c = '\n' then ['\\', 'n']
  else if c = '\r' then ['\\', 'r']
  else if c = '\t' then ['\\', 't']
  else if c.toNat < 0x20 then '\\' :: 'u' :: controlHex c
  else [c]

/-- How a string is written. -/
def quote (text : List Char) : List Char := '"' :: text.flatMap escape ++ ['"']

/-- How a token is written. A string that is no text has no written form of its own. -/
def chars : Token → List Char
  | openBrace => ['\x7b']
  | closeBrace => ['\x7d']
  | openBracket => ['[']
  | closeBracket => [']']
  | colon => [':']
  | comma => [',']
  | null => ['n', 'u', 'l', 'l']
  | bool true => ['t', 'r', 'u', 'e']
  | bool false => ['f', 'a', 'l', 's', 'e']
  | number value => value.chars
  | string (some text) => quote text.toList
  | string none => []
  | malformed => []

end Token

/-- Which part of a number was read last. -/
inductive NumberPart where
  /-- The minus sign. -/
  | sign
  /-- A leading zero, which no digit may follow. -/
  | leadingZero
  /-- A digit in front of the point. -/
  | whole
  /-- The point. -/
  | point
  /-- A digit behind the point. -/
  | place
  /-- The letter of the exponent. -/
  | exponentMark
  /-- The sign of the exponent. -/
  | exponentSign
  /-- A digit of the exponent. -/
  | exponent
deriving DecidableEq, Repr

/-- Whether a number may end after this part. -/
def NumberPart.isComplete : NumberPart → Bool
  | leadingZero | whole | place | exponent => true
  | _ => false

/-- The next part of a number that character `c` continues. -/
def NumberPart.next? (part : NumberPart) (c : Char) : Option NumberPart :=
  match part with
  | .sign => if c = '0' then some .leadingZero else if Number.isDigit c then some .whole else none
  | .leadingZero =>
    if c = '.' then some .point else if c = 'e' ∨ c = 'E' then some .exponentMark else none
  | .whole =>
    if Number.isDigit c then some .whole
    else if c = '.' then some .point
    else if c = 'e' ∨ c = 'E' then some .exponentMark else none
  | .point => if Number.isDigit c then some .place else none
  | .place =>
    if Number.isDigit c then some .place
    else if c = 'e' ∨ c = 'E' then some .exponentMark else none
  | .exponentMark =>
    if c = '+' ∨ c = '-' then some .exponentSign
    else if Number.isDigit c then some .exponent else none
  | .exponentSign | .exponent => if Number.isDigit c then some .exponent else none

/-- A string of which the closing quote was not read yet. -/
structure OpenString where
  /-- The characters read, last first. -/
  chars : List Char
  /-- `false` once half a surrogate pair, or what is not UTF-8, was met. -/
  paired : Bool
  /-- A first half just read, whose second half may follow. -/
  high : Option Nat
deriving DecidableEq, Repr

namespace OpenString

/-- The string after its opening quote. -/
def empty : OpenString := ⟨[], true, none⟩

/-- A first half that was waiting has no partner. -/
def unpair (s : OpenString) : OpenString :=
  { s with paired := s.paired && s.high.isNone, high := none }

/-- A character is read. -/
def push (s : OpenString) (c : Char) : OpenString :=
  let s := s.unpair
  { s with chars := c :: s.chars }

/-- A code unit, written with four hexadecimal digits, is read. -/
def pushUnit (s : OpenString) (unit : Nat) : OpenString :=
  if 0xDC00 ≤ unit ∧ unit < 0xE000 then
    match s.high with
    | some high =>
      { s with
        chars := Char.ofNat (0x10000 + (high - 0xD800) * 0x400 + (unit - 0xDC00)) :: s.chars
        high := none }
    | none => { s with paired := false }
  else if 0xD800 ≤ unit ∧ unit < 0xDC00 then { s.unpair with high := some unit }
  else s.push (Char.ofNat unit)

/-- The token of the string once its closing quote is read. -/
def close (s : OpenString) : Token :=
  let s := s.unpair
  .string (if s.paired then some (String.ofList s.chars.reverse) else none)

end OpenString

/-- What the characters being read belong to. -/
inductive LexerMode where
  /-- Between tokens. -/
  | gap
  /-- Inside a word of which `rest` is still to come. -/
  | word (rest : List Char) (token : Token)
  /-- Inside a number, with its characters so far, last first. -/
  | number (part : NumberPart) (chars : List Char)
  | string (s : OpenString)
  /-- Behind the backslash of an escape. -/
  | escape (s : OpenString)
  /-- Inside the hexadecimal digits of an escape: the value so far and how many are to come. -/
  | unit (s : OpenString) (value : Nat) (left : Nat)
  /-- Behind a fault; nothing more is read. -/
  | broken
deriving DecidableEq, Repr

/-- The tokens read so far, last first, and where the lexer stands. -/
structure Lexer where
  tokens : List Token
  mode : LexerMode
deriving Repr

namespace Lexer

/-- Nothing read yet. -/
def start : Lexer := ⟨[], .gap⟩

/-- The text goes wrong here. -/
def fault (tokens : List Token) : Lexer := ⟨.malformed :: tokens, .broken⟩

/-- Reads a character between tokens. -/
def pushGap (tokens : List Token) (c : Char) : Lexer :=
  if c = ' ' ∨ c = '\t' ∨ c = '\n' ∨ c = '\r' then ⟨tokens, .gap⟩
  else if c = '\x7b' then ⟨.openBrace :: tokens, .gap⟩
  else if c = '\x7d' then ⟨.closeBrace :: tokens, .gap⟩
  else if c = '[' then ⟨.openBracket :: tokens, .gap⟩
  else if c = ']' then ⟨.closeBracket :: tokens, .gap⟩
  else if c = ':' then ⟨.colon :: tokens, .gap⟩
  else if c = ',' then ⟨.comma :: tokens, .gap⟩
  else if c = '"' then ⟨tokens, .string .empty⟩
  else if c = 'n' then ⟨tokens, .word ['u', 'l', 'l'] .null⟩
  else if c = 't' then ⟨tokens, .word ['r', 'u', 'e'] (.bool true)⟩
  else if c = 'f' then ⟨tokens, .word ['a', 'l', 's', 'e'] (.bool false)⟩
  else if c = '-' then ⟨tokens, .number .sign [c]⟩
  else if c = '0' then ⟨tokens, .number .leadingZero [c]⟩
  else if Number.isDigit c then ⟨tokens, .number .whole [c]⟩
  else fault tokens

/-- Reads a character of a number, or the character behind it. -/
def pushNumber (tokens : List Token) (part : NumberPart) (chars : List Char) (c : Char) : Lexer :=
  match part.next? c with
  | some part => ⟨tokens, .number part (c :: chars)⟩
  | none =>
    if part.isComplete && !(part == .leadingZero && Number.isDigit c) then
      pushGap (.number ⟨chars.reverse⟩ :: tokens) c
    else fault tokens

/-- Reads the letter of an escape. -/
def pushEscape (tokens : List Token) (s : OpenString) (c : Char) : Lexer :=
  if c = '"' ∨ c = '\\' ∨ c = '/' then ⟨tokens, .string (s.push c)⟩
  else if c = 'b' then ⟨tokens, .string (s.push '\x08')⟩
  else if c = 'f' then ⟨tokens, .string (s.push '\x0c')⟩
  else if c = 'n' then ⟨tokens, .string (s.push '\n')⟩
  else if c = 'r' then ⟨tokens, .string (s.push '\r')⟩
  else if c = 't' then ⟨tokens, .string (s.push '\t')⟩
  else if c = 'u' then ⟨tokens, .unit s 0 3⟩
  else fault tokens

/-- Reads one character. -/
def push (l : Lexer) (c : Char) : Lexer :=
  match l.mode with
  | .gap => pushGap l.tokens c
  | .word [] token => pushGap (token :: l.tokens) c
  | .word (r :: rest) token => if c = r then ⟨l.tokens, .word rest token⟩ else fault l.tokens
  | .number part chars => pushNumber l.tokens part chars c
  | .string s =>
    if c = '"' then ⟨s.close :: l.tokens, .gap⟩
    else if c = '\\' then ⟨l.tokens, .escape s⟩
    else if c.toNat < 0x20 then fault l.tokens
    else ⟨l.tokens, .string (s.push c)⟩
  | .escape s => pushEscape l.tokens s c
  | .unit s value left =>
    match Text.hexDigit? c, left with
    | some d, 0 => ⟨l.tokens, .string (s.pushUnit (value * 16 + d))⟩
    | some d, left + 1 => ⟨l.tokens, .unit s (value * 16 + d) left⟩
    | none, _ => fault l.tokens
  | .broken => l

/-- The tokens at the end of the text; a token that was only begun is a fault. -/
def finish (l : Lexer) : List Token :=
  match l.mode with
  | .gap | .broken => l.tokens.reverse
  | .word [] token => (token :: l.tokens).reverse
  | .number part chars =>
    if part.isComplete then (Token.number ⟨chars.reverse⟩ :: l.tokens).reverse
    else (Token.malformed :: l.tokens).reverse
  | _ => (Token.malformed :: l.tokens).reverse

end Lexer

/-- Reads a character, or `none` for bytes that are not UTF-8, which only a string may hold. -/
def Lexer.pushRead (l : Lexer) : Option Char → Lexer
  | some c => l.push c
  | none =>
    match l.mode with
    | .string s => ⟨l.tokens, .string { s with paired := false, high := none }⟩
    | _ => l.push Text.Utf8.replacement

/-- The tokens of a text. -/
def tokens (text : List Char) : List Token := (text.foldl Lexer.push .start).finish

/-- The tokens of the text that is given by its bytes. -/
def tokensOfBytes (bytes : List UInt8) : List Token :=
  ((Text.Utf8.decode bytes).foldl Lexer.pushRead .start).finish

end Provisioner.Json
