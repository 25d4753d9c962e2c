/-!
# JSON values

The values that a JSON text denotes, as far as the surface reads them. A number is either a natural
number, written in digits alone, or some other numeral, kept as written. A string literal may escape
half of a surrogate pair: it is well formed and denotes no text.
-/

namespace RuneSettlement

inductive Json
  | null
  | bool (b : Bool)
  | natural (n : Nat)
  | numeral (written : String)
  | string (text : Option String)
  | array (items : List Json)
  | object (fields : List (Option String × Json))

namespace Json

/-- A string literal that denotes a text. -/
def text (s : String) : Json := .string (some s)

/-- An object with named fields, in the order given. -/
def record (fields : List (String × Json)) : Json :=
  .object (fields.map fun f => (some f.1, f.2))

inductive Token
  | leftBrace
  | rightBrace
  | leftBracket
  | rightBracket
  | colon
  | comma
  | null
  | bool (b : Bool)
  | natural (n : Nat)
  | numeral (written : String)
  | string (text : Option String)
  deriving DecidableEq

end Json

end RuneSettlement
