import Provisioner.Json.Token

/-!
# JSON values and how they are written

Values are written without blanks, the members of an object in their order.
-/

namespace Provisioner.Json

/--
A JSON value. A string that is no text, such as one with half a surrogate pair, is `string none`; a
member may have such a string as its name. The members of an object keep their order and repetitions.
-/
inductive Value where
  | null
  | bool (value : Bool)
  | number (value : Number)
  | string (text : Option String)
  | array (items : List Value)
  | object (members : List (Option String × Value))
deriving Repr

namespace Value

/-- A whole number. -/
def int (value : Int) : Value := .number (.ofInt value)

/-- A text. -/
def text (value : String) : Value := .string (some value)

/-- An object of named members. -/
def record (members : List (String × Value)) : Value :=
  .object (members.map fun (name, value) => (some name, value))

/-- The value `null`. -/
def isNull : Value → Bool
  | .null => true
  | _ => false

/-- The value `null` and the object without members. -/
def isBlank : Value → Bool
  | .null | .object [] => true
  | _ => false

mutual

/-- The tokens of a value. -/
def tokens : Value → List Token
  | .null => [.null]
  | .bool value => [.bool value]
  | .number value => [.number value]
  | .string text => [.string text]
  | .array items => .openBracket :: itemTokens items
  | .object members => .openBrace :: memberTokens members

/-- The tokens of the items of an array and of its end. -/
def itemTokens : List Value → List Token
  | [] => [.closeBracket]
  | [item] => item.tokens ++ [.closeBracket]
  | item :: items => item.tokens ++ .comma :: itemTokens items

/-- The tokens of the members of an object and of its end. -/
def memberTokens : List (Option String × Value) → List Token
  | [] => [.closeBrace]
  | [(name, value)] => .string name :: .colon :: value.tokens ++ [.closeBrace]
  | (name, value) :: members =>
    .string name :: .colon :: value.tokens ++ .comma :: memberTokens members

end

/-- The characters of a value. -/
def chars (value : Value) : List Char := value.tokens.flatMap Token.chars

/-- The text of a value. -/
def render (value : Value) : String := String.ofList value.chars

end Value

end Provisioner.Json
