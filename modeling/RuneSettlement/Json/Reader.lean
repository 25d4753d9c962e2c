import RuneSettlement.Json.Lexer

/-!
# From JSON tokens to values

The reader is an automaton over tokens with a stack of the arrays and objects that are still open,
so no depth of nesting is too deep for it.
-/

namespace RuneSettlement.Json

/-- An open array or object with what it holds so far, the latest first. A `member` waits for the
value of a key. -/
inductive Frame
  | array (items : List Json)
  | object (fields : List (Option String × Json))
  | member (fields : List (Option String × Json)) (key : Option String)

/-- What the reader waits for. -/
inductive Expecting
  | value
  | valueOrEnd
  | key
  | keyOrEnd
  | colon (key : Option String)
  /-- A value is complete; a comma, an end or nothing more can follow. -/
  | more (done : Json)

def Token.scalar? : Token → Option Json
  | .null => some .null
  | .bool b => some (.bool b)
  | .natural n => some (.natural n)
  | .numeral written => some (.numeral written)
  | .string text => some (.string text)
  | _ => none

/-- Begins a value. -/
def beginValue? (stack : List Frame) : Token → Option (List Frame × Expecting)
  | .leftBracket => some (.array [] :: stack, .valueOrEnd)
  | .leftBrace => some (.object [] :: stack, .keyOrEnd)
  | token => token.scalar?.map fun j => (stack, .more j)

/-- Goes on after a complete value in the innermost open array or object. -/
def continue? (done : Json) : List Frame → Token → Option (List Frame × Expecting)
  | .array items :: stack, .comma => some (.array (done :: items) :: stack, .value)
  | .array items :: stack, .rightBracket =>
    some (stack, .more (.array (done :: items).reverse))
  | .member fields key :: stack, .comma =>
    some (.object ((key, done) :: fields) :: stack, .key)
  | .member fields key :: stack, .rightBrace =>
    some (stack, .more (.object ((key, done) :: fields).reverse))
  | _, _ => none

def step? : List Frame × Expecting → Token → Option (List Frame × Expecting)
  | (stack, .value), token => beginValue? stack token
  | (.array [] :: stack, .valueOrEnd), .rightBracket => some (stack, .more (.array []))
  | (stack, .valueOrEnd), token => beginValue? stack token
  | (stack, .key), .string key => some (stack, .colon key)
  | (stack, .keyOrEnd), .string key => some (stack, .colon key)
  | (.object [] :: stack, .keyOrEnd), .rightBrace => some (stack, .more (.object []))
  | (.object fields :: stack, .colon key), .colon => some (.member fields key :: stack, .value)
  | (stack, .more done), token => continue? done stack token
  | _, _ => none

def ofTokens? (tokens : List Token) : Option Json :=
  match tokens.foldlM step? ([], .value) with
  | some ([], .more j) => some j
  | _ => none

/-- The value of a JSON text. -/
def parse? (text : String) : Option Json := (tokens? text.toList).bind ofTokens?

end RuneSettlement.Json
