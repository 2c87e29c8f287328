import CacheRouting.Number.Decimal

/-!
# Document values

What a configuration document says, whichever way it is written
in.  Table fields keep the order in which they were written.
-/

namespace CacheRouting

namespace Document

inductive Value
  | null
  | boolean (value : Bool)
  | integer (value : Int)
  | number (value : NumberText)
  | text (value : String)
  | moment
  | list (items : List Value)
  | table (fields : List (String × Value))
  deriving Inhabited

namespace Value

def field? (fields : List (String × Value)) (name : String) : Option Value :=
  (fields.find? fun field => field.1 == name).map (·.2)

end Value

end Document

end CacheRouting
