import RuneSettlement.Json.Reader
import RuneSettlement.Json.Writer
import RuneSettlement.Word

/-!
# JSON formats

A format says how the values of a type are written and which JSON values are read as one. A record
is read from an object, in any order and with fields it does not know, or from the array of its
fields. A choice without data is read from its name, or from an object with that name and null.
-/

namespace RuneSettlement

class JsonFormat (α : Type) where
  toJson : α → Json
  ofJson? : Json → Option α

export JsonFormat (toJson ofJson?)

namespace JsonFormat

def write {α : Type} [JsonFormat α] (a : α) : String := (toJson a).render

def read? {α : Type} [JsonFormat α] (text : String) : Option α := (Json.parse? text).bind ofJson?

def naturalOf? : Json → Option Nat
  | .natural n => some n
  | _ => none

def textOf? : Json → Option String
  | .string text => text
  | _ => none

def itemsOf? : Json → Option (List Json)
  | .array items => some items
  | _ => none

instance (w : Nat) : JsonFormat (BitVec w) where
  toJson x := .natural x.toNat
  ofJson? j := (naturalOf? j).bind (Word.ofNat? w)

instance : JsonFormat UInt8 where
  toJson b := .natural b.toNat
  ofJson? j := (naturalOf? j).bind fun n => if n < 256 then some (UInt8.ofNat n) else none

instance : JsonFormat String where
  toJson := .text
  ofJson? := textOf?

instance {α : Type} [JsonFormat α] : JsonFormat (List α) where
  toJson items := .array (items.map toJson)
  ofJson? j := (itemsOf? j).bind fun items => items.mapM ofJson?

instance {α : Type} [JsonFormat α] : JsonFormat (Option α) where
  toJson
    | some a => toJson a
    | none => .null
  ofJson?
    | .null => some none
    | j => (ofJson? j).map some

/-- The format of a type whose values are written as texts. -/
@[reducible] def ofText {α : Type} (text : α → String) (parse? : String → Option α) :
    JsonFormat α where
  toJson a := .text (text a)
  ofJson? j := (textOf? j).bind parse?

/-- The value of the only field with a name, if there is one; refused where there are several. -/
def field? (fields : List (String × Json)) (name : String) : Option (Option Json) :=
  match fields.filter fun f => decide (f.1 = name) with
  | [] => some none
  | [f] => some (some f.2)
  | _ => none

/-- The fields of an object, if every key denotes a text. -/
def namedFields? (fields : List (Option String × Json)) : Option (List (String × Json)) :=
  fields.mapM fun f => f.1.map fun name => (name, f.2)

/-- The values of a record's fields in the order of their names. An array gives the first fields;
the others, like those that an object lacks, are none. -/
def someFields? (names : List String) : Json → Option (List (Option Json))
  | .object fields => do
    let fields ← namedFields? fields
    names.mapM (field? fields)
  | .array items =>
    if items.length ≤ names.length then
      some (items.map some ++ List.replicate (names.length - items.length) none)
    else none
  | _ => none

/-- As `someFields?`, but an array must give all the fields. -/
def fields? (names : List String) (j : Json) : Option (List (Option Json)) :=
  match j with
  | .array items => if items.length = names.length then someFields? names j else none
  | _ => someFields? names j

def required {α : Type} [JsonFormat α] (field : Option Json) : Option α := field.bind ofJson?

def nullable {α : Type} [JsonFormat α] : Option Json → Option (Option α)
  | none => some none
  | some j => ofJson? j

/-- A field that takes a default where it is absent. -/
def withDefault {α : Type} [JsonFormat α] (default : α) : Option Json → Option α
  | none => some default
  | some j => ofJson? j

/-- The name of a choice, and its data if it has any. -/
def choice? : Json → Option (String × Option Json)
  | .string text => text.map fun name => (name, none)
  | .object [(some name, payload)] => some (name, some payload)
  | _ => none

/-- The data of a choice that has none. -/
def noData? : Option Json → Option Unit
  | none | some .null => some ()
  | _ => none

/-- The format of a type whose values are written by name. -/
@[reducible] def ofNames {α : Type} (all : List α) (name : α → String) : JsonFormat α where
  toJson a := .text (name a)
  ofJson? j := do
    let (chosen, payload) ← choice? j
    noData? payload
    all.find? fun a => decide (name a = chosen)

end JsonFormat

end RuneSettlement
