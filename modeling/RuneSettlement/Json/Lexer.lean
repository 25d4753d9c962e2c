import RuneSettlement.Json.Value

/-!
# From characters to JSON tokens

The lexer is an automaton over characters. A token that ends only where another character begins,
which is true of numbers alone, is completed by that character.
-/

namespace RuneSettlement.Json

/-- What stands for part of a string literal: a character, or a unit from a `\u` escape. -/
inductive Piece
  | char (c : Char)
  | unit (u : Nat)
  deriving DecidableEq

def isHighSurrogate (u : Nat) : Bool := decide (0xd800 ≤ u ∧ u < 0xdc00)

def isLowSurrogate (u : Nat) : Bool := decide (0xdc00 ≤ u ∧ u < 0xe000)

/-- The characters of a literal, where every surrogate has its other half. -/
def Piece.decode : List Piece → Option (List Char)
  | [] => some []
  | .char c :: rest => (decode rest).map (c :: ·)
  | .unit high :: .unit low :: rest =>
    if isHighSurrogate high && isLowSurrogate low then
      (decode rest).map (Char.ofNat (0x10000 + 0x400 * (high - 0xd800) + (low - 0xdc00)) :: ·)
    else if isHighSurrogate high || isLowSurrogate high then none
    else (decode (.unit low :: rest)).map (Char.ofNat high :: ·)
  | .unit u :: rest =>
    if isHighSurrogate u || isLowSurrogate u then none
    else (decode rest).map (Char.ofNat u :: ·)

/-- How much of a numeral has been read. -/
inductive Phase
  | minus
  | zero
  | whole
  | point
  | fraction
  | mark
  | markSign
  | exponent
  deriving DecidableEq

namespace Phase

/-- The phase after one more character, if the numeral goes on with it. -/
def next? : Phase → Char → Option Phase
  | minus, c => if c = '0' then some zero else if c.isDigit then some whole else none
  | zero, c => if c = '.' then some point else if c = 'e' ∨ c = 'E' then some mark else none
  | whole, c =>
    if c.isDigit then some whole
    else if c = '.' then some point
    else if c = 'e' ∨ c = 'E' then some mark
    else none
  | point, c => if c.isDigit then some fraction else none
  | fraction, c =>
    if c.isDigit then some fraction else if c = 'e' ∨ c = 'E' then some mark else none
  | mark, c =>
    if c = '+' ∨ c = '-' then some markSign else if c.isDigit then some exponent else none
  | markSign, c | exponent, c => if c.isDigit then some exponent else none

/-- Whether the numeral may end here. -/
def isFinal : Phase → Bool
  | zero | whole | fraction | exponent => true
  | minus | point | mark | markSign => false

/-- The token of a numeral that ends in a phase. -/
def token (phase : Phase) (written : List Char) : Token :=
  match phase with
  | zero | whole =>
    if written.all Char.isDigit then .natural (Nat.ofDigitChars 10 written 0)
    else .numeral (String.ofList written)
  | _ => .numeral (String.ofList written)

end Phase

/-- Where the lexer stands. What has been read of a token is held with the latest part first. -/
inductive Mode
  | between
  | word (rest : List Char) (token : Token)
  | literal (pieces : List Piece)
  | escape (pieces : List Piece)
  | unit (pieces : List Piece) (digits value : Nat)
  | number (phase : Phase) (written : List Char)

def isBlank (c : Char) : Bool := decide (c = ' ' ∨ c = '\t' ∨ c = '\n' ∨ c = '\r')

/-- The escapes of one letter. -/
def unescape? (c : Char) : Option Char :=
  if c = '"' ∨ c = '\\' ∨ c = '/' then some c
  else if c = 'b' then some '\x08'
  else if c = 'f' then some '\x0c'
  else if c = 'n' then some '\n'
  else if c = 'r' then some '\r'
  else if c = 't' then some '\t'
  else none

def hexDigit? (c : Char) : Option Nat :=
  if c.isDigit then some (c.toNat - 48)
  else if 'a' ≤ c ∧ c ≤ 'f' then some (c.toNat - 87)
  else if 'A' ≤ c ∧ c ≤ 'F' then some (c.toNat - 55)
  else none

/-- Starts a token, or ends one that is a single character. -/
def start? (c : Char) : Option (Mode × List Token) :=
  if isBlank c then some (.between, [])
  else if c = '{' then some (.between, [.leftBrace])
  else if c = '}' then some (.between, [.rightBrace])
  else if c = '[' then some (.between, [.leftBracket])
  else if c = ']' then some (.between, [.rightBracket])
  else if c = ':' then some (.between, [.colon])
  else if c = ',' then some (.between, [.comma])
  else if c = '"' then some (.literal [], [])
  else if c = 'n' then some (.word ['u', 'l', 'l'] .null, [])
  else if c = 't' then some (.word ['r', 'u', 'e'] (.bool true), [])
  else if c = 'f' then some (.word ['a', 'l', 's', 'e'] (.bool false), [])
  else if c = '-' then some (.number .minus [c], [])
  else if c = '0' then some (.number .zero [c], [])
  else if c.isDigit then some (.number .whole [c], [])
  else none

/-- Reads one character: the new mode, and the tokens completed. -/
def Mode.read? : Mode → Char → Option (Mode × List Token)
  | .between, c => start? c
  | .word [] _, _ => none
  | .word [last] token, c => if c = last then some (.between, [token]) else none
  | .word (next :: rest) token, c => if c = next then some (.word rest token, []) else none
  | .literal pieces, c =>
    if c = '"' then
      some (.between, [.string ((Piece.decode pieces.reverse).map String.ofList)])
    else if c = '\\' then some (.escape pieces, [])
    else if c.toNat < 32 then none
    else some (.literal (.char c :: pieces), [])
  | .escape pieces, c =>
    if c = 'u' then some (.unit pieces 0 0, [])
    else (unescape? c).map fun d => (.literal (.char d :: pieces), [])
  | .unit pieces digits value, c =>
    (hexDigit? c).map fun d =>
      let value := 16 * value + d
      if digits = 3 then (.literal (.unit value :: pieces), [])
      else (.unit pieces (digits + 1) value, [])
  | .number phase written, c =>
    match phase.next? c with
    | some phase => some (.number phase (c :: written), [])
    | none =>
      if phase.isFinal then
        (start? c).map fun r => (r.1, phase.token written.reverse :: r.2)
      else none

/-- The tokens that the end of the text completes. -/
def Mode.finish? : Mode → Option (List Token)
  | .between => some []
  | .number phase written =>
    if phase.isFinal then some [phase.token written.reverse] else none
  | _ => none

/-- The tokens of a text, from a mode on. -/
def Mode.tokens? (mode : Mode) : List Char → Option (List Token)
  | [] => mode.finish?
  | c :: cs => do
    let (mode, done) ← mode.read? c
    let rest ← mode.tokens? cs
    return done ++ rest

def tokens? (cs : List Char) : Option (List Token) := Mode.between.tokens? cs

end RuneSettlement.Json
