import RuneSettlement.Json.Value

/-!
# JSON text

Values are written without blanks. In strings only the quote, the backslash and the control
characters below the blank are escaped.
-/

namespace RuneSettlement.Json

mutual

/-- The tokens of a value. -/
def tokens : Json → List Token
  | .null => [.null]
  | .bool b => [.bool b]
  | .natural n => [.natural n]
  | .numeral written => [.numeral written]
  | .string text => [.string text]
  | .array items => .leftBracket :: itemTokens items ++ [.rightBracket]
  | .object fields => .leftBrace :: fieldTokens fields ++ [.rightBrace]

def itemTokens : List Json → List Token
  | [] => []
  | [j] => tokens j
  | j :: k :: items => tokens j ++ .comma :: itemTokens (k :: items)

def fieldTokens : List (Option String × Json) → List Token
  | [] => []
  | [(key, j)] => .string key :: .colon :: tokens j
  | (key, j) :: f :: fields =>
    .string key :: .colon :: tokens j ++ .comma :: fieldTokens (f :: fields)

end

def escape (c : Char) : List Char :=
  if c = '"' then ['\\', '"']
  else if c = '\\' then ['\\', '\\']
  else if c = '\x08' then ['\\', 'b']
  else if c = '\t' then ['\\', 't']
  else if c = '\n' then ['\\', 'n']
  else if c = '\x0c' then ['\\', 'f']
  else if c = '\r' then ['\\', 'r']
  else if c.toNat < 32 then
    ['\\', 'u', '0', '0', (c.toNat / 16).digitChar, (c.toNat % 16).digitChar]
  else [c]

def Token.chars : Token → List Char
  | .leftBrace => ['{']
  | .rightBrace => ['}']
  | .leftBracket => ['[']
  | .rightBracket => [']']
  | .colon => [':']
  | .comma => [',']
  | .null => ['n', 'u', 'l', 'l']
  | .bool true => ['t', 'r', 'u', 'e']
  | .bool false => ['f', 'a', 'l', 's', 'e']
  | .natural n => Nat.toDigits 10 n
  | .numeral written => written.toList
  | .string text => '"' :: (text.getD "").toList.flatMap escape ++ ['"']

def render (j : Json) : String := String.ofList (j.tokens.flatMap Token.chars)

end RuneSettlement.Json
