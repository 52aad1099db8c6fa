namespace SourcePrint

/-- JSON values. A number that is not written as an integer keeps its spelling. Members keep their
order, and a name may be given more than once. -/
inductive Json where
  | null
  | bool (value : Bool)
  | int (value : Int)
  | real (spelling : String)
  | str (value : String)
  | arr (items : List Json)
  | obj (members : List (String × Json))

namespace Json

def nat (n : Nat) : Json := .int n

def strs (texts : List String) : Json := .arr (texts.map .str)

def str? : Json → Option String
  | .str value => some value
  | _ => none

def bool? : Json → Option Bool
  | .bool value => some value
  | _ => none

/-- An integer from zero up to, and without, `bound`. -/
def natBelow? (bound : Nat) : Json → Option Nat
  | .int (.ofNat n) => if n < bound then some n else none
  | _ => none

def items? : Json → Option (List Json)
  | .arr items => some items
  | _ => none

def strs? (json : Json) : Option (List String) := json.items?.bind fun items => items.mapM str?

end Json

end SourcePrint
