import CacheRouting.Document.Value

/-!
# Tables under construction in TOML

A table may be opened by a header, come into being on the way to another one, or
be written with dotted keys.  The way it came into being decides whether it may
be added to: a table opened by a header is never opened again nor passed through
by dotted keys, dotted keys put values only into tables made by dotted keys, and
nothing is defined twice.
-/

namespace CacheRouting

namespace Document

namespace Toml

inductive Item
  | value (value : Value)
  /-- A table, and whether it has no header of its own, and whether dotted keys
  made it. -/
  | table (implicit dotted : Bool) (fields : List (String × Item))
  /-- The tables of a list, the latest first. -/
  | rows (latestFirst : List (List (String × Item)))

abbrev Fields := List (String × Item)

mutual

def Item.toValue : Item → Value
  | .value content => content
  | .table _ _ fields => .table (Item.fieldValues fields)
  | .rows latestFirst => .list (Item.rowValues latestFirst).reverse

def Item.fieldValues : List (String × Item) → List (String × Value)
  | [] => []
  | (name, item) :: rest => (name, item.toValue) :: Item.fieldValues rest

def Item.rowValues : List (List (String × Item)) → List Value
  | [] => []
  | row :: rest => .table (Item.fieldValues row) :: Item.rowValues rest

end

namespace Fields

def item? (fields : Fields) (name : String) : Option Item :=
  (fields.find? fun field => field.1 == name).map (·.2)

def replace (fields : Fields) (name : String) (item : Item) : Fields :=
  fields.map fun field => if field.1 == name then (name, item) else field

/-- Change the fields of the table at a path, making the tables on the way that are
missing.  The change is told whether dotted keys made the table it is given;
`dotted` says whether the path itself is one of dotted keys. -/
def changeAt? (dotted : Bool) (change : Bool → Fields → Option Fields) :
    (path : List String) → (madeDotted : Bool) → Fields → Option Fields
  | [], madeDotted, fields => change madeDotted fields
  | name :: path, _, fields =>
      match fields.item? name with
      | none =>
          (changeAt? dotted change path dotted []).map fun inner =>
            fields ++ [(name, .table true dotted inner)]
      | some (.table implicit innerDotted inner) =>
          if dotted && !implicit then none
          else
            (changeAt? dotted change path innerDotted inner).map fun inner =>
              fields.replace name (.table implicit innerDotted inner)
      | some (.rows (latest :: earlier)) =>
          (changeAt? dotted change path false latest).map fun latest =>
            fields.replace name (.rows (latest :: earlier))
      | some _ => none

/-- Define a key, written with dots before it, in a table.  The key belongs to a
table that dotted keys made exactly when it has dots. -/
def define? (path : List String) (name : String) (value : Value) (madeDotted : Bool)
    (fields : Fields) : Option Fields :=
  changeAt? true
    (fun innerDotted inner =>
      if innerDotted == path.isEmpty || (inner.item? name).isSome then none
      else some (inner ++ [(name, .value value)]))
    path madeDotted fields

def openTable? (path : List String) (name : String) (fields : Fields) : Option Fields :=
  changeAt? false
    (fun _ inner =>
      match inner.item? name with
      | none => some (inner ++ [(name, .table false false [])])
      | some (.table true false entries) => some (inner.replace name (.table false false entries))
      | some _ => none)
    path false fields

def openRow? (path : List String) (name : String) (fields : Fields) : Option Fields :=
  changeAt? false
    (fun _ inner =>
      match inner.item? name with
      | none => some (inner ++ [(name, .rows [[]])])
      | some (.rows latestFirst) => some (inner.replace name (.rows ([] :: latestFirst)))
      | some _ => none)
    path false fields

def defineIn? (opened : List String) (path : List String) (name : String) (value : Value)
    (fields : Fields) : Option Fields :=
  changeAt? false (define? path name value) opened false fields

end Fields

end Toml

end Document

end CacheRouting
