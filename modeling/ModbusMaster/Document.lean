import ModbusMaster.Double

/-!
Documents: trees of named and listed values, the form in which records are stored and loaded. A
type that has a documented form says how its values are written and read; what is read may leave
out nothing that has no default, and may hold fields that are not known.
-/

namespace ModbusMaster

inductive Document where
  | null
  | bool (b : Bool)
  | integer (n : Int)
  | decimal (x : Double)
  | text (s : String)
  | list (items : List Document)
  | record (fields : List (String × Document))

/-- Types whose values can be stored in documents. -/
class Documented (α : Type) where
  toDocument : α → Document
  ofDocument? : Document → Option α

export Documented (toDocument ofDocument?)

namespace Document

variable {α : Type}

/-- A natural number up to a limit, written without point or exponent. -/
def natUpTo? (limit : Nat) : Document → Option Nat
  | integer n => if 0 ≤ n ∧ n.toNat ≤ limit then some n.toNat else none
  | _ => none

/-- The fields of a record, looked up by name; of two fields of one name the last one counts. A
list stands for a record whose fields come in the order of their names. -/
def fields? (names : List String) : Document → Option (String → Option Document)
  | record fields => some fun name => fields.reverse.lookup name
  | list items =>
      if items.length ≤ names.length then some fun name => (names.zip items).lookup name
      else none
  | _ => none

/-- A field that has to be there. -/
def required? [Documented α] (field : Option Document) : Option α :=
  field.bind ofDocument?

/-- A field that has a default. -/
def optional? [Documented α] (default : α) : Option Document → Option α
  | none => some default
  | some document => ofDocument? document

/-- A name with an optional content: a text, or a record of one field. -/
def variant? : Document → Option (String × Option Document)
  | text name => some (name, none)
  | record [(name, content)] => some (name, some content)
  | _ => none

/-- One of several values by its name; the name may stand as a field without content. -/
def named? (name : α → String) (values : List α) (document : Document) : Option α :=
  match document.variant? with
  | some (given, none) | some (given, some null) => values.find? fun a => name a == given
  | _ => none

end Document

/-! ### Plain values -/

instance : Documented Bool where
  toDocument := .bool
  ofDocument?
    | .bool b => some b
    | _ => none

instance : Documented String where
  toDocument := .text
  ofDocument?
    | .text s => some s
    | _ => none

instance : Documented UInt8 where
  toDocument n := .integer n.toNat
  ofDocument? document := (document.natUpTo? 255).map UInt8.ofNat

instance : Documented UInt16 where
  toDocument n := .integer n.toNat
  ofDocument? document := (document.natUpTo? 65535).map UInt16.ofNat

instance : Documented UInt32 where
  toDocument n := .integer n.toNat
  ofDocument? document := (document.natUpTo? 4294967295).map UInt32.ofNat

instance : Documented UInt64 where
  toDocument n := .integer n.toNat
  ofDocument? document := (document.natUpTo? 18446744073709551615).map UInt64.ofNat

/-- Numbers may be written as integers; those that are not finite are written as words. -/
instance : Documented Double where
  toDocument := .decimal
  ofDocument?
    | .integer n => some (.ofInt n)
    | .decimal x => some x
    | .text "NaN" => some .nan
    | .text "inf" => some (.infinite false)
    | .text "-inf" => some (.infinite true)
    | _ => none

instance {α : Type} [Documented α] : Documented (Option α) where
  toDocument
    | none => .null
    | some a => toDocument a
  ofDocument?
    | .null => some none
    | document => (ofDocument? document).map some

instance {α : Type} [Documented α] : Documented (List α) where
  toDocument items := .list (items.map toDocument)
  ofDocument?
    | .list items => items.mapM ofDocument?
    | _ => none

end ModbusMaster
