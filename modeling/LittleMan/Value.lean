import LittleMan.Decimal
import LittleMan.Text.Quoted

/-! Values a host hands over where a name, a width or a setting is expected: any of them may be of
the wrong kind, so the kinds are kept apart and every value has a written form. -/
namespace LittleMan

inductive Value where
  | null
  | bool (b : Bool)
  | int (n : Int)
  | real (x : Decimal.Binary64)
  | text (t : Text)
  | list (items : List Value)
  | object (fields : List (Text × Value))
  deriving Repr, Inhabited

namespace Value

/-- Reals are written with an exponent below `0.0001` and from `1e16` on. -/
def realLayout : Decimal.Layout where
  lowest := -4
  highest := 15
  exponentMark := 'e'
  exponentWidth := 2
  infinite := "inf".toList
  noNumber := "nan".toList

mutual

def display : Value → Text
  | .null => "None".toList
  | .bool true => "True".toList
  | .bool false => "False".toList
  | .int n => Decimal.integer n
  | .real x => realLayout.write x
  | .text t => t.quoted
  | .list items => '[' :: displayItems items ++ [']']
  | .object fields => '\x7b' :: displayFields fields ++ ['\x7d']

def displayItems : List Value → Text
  | [] => []
  | [v] => v.display
  | v :: more => v.display ++ ", ".toList ++ displayItems more

def displayFields : List (Text × Value) → Text
  | [] => []
  | [(name,v)] => name.quoted ++ ": ".toList ++ v.display
  | (name,v) :: more => name.quoted ++ ": ".toList ++ v.display ++ ", ".toList ++ displayFields more

end

def plain : Value → Text
  | .text t => t
  | v => v.display

def kind : Value → Text
  | .null => "NoneType".toList
  | .bool _ => "bool".toList
  | .int _ => "int".toList
  | .real _ => "float".toList
  | .text _ => "str".toList
  | .list _ => "list".toList
  | .object _ => "dict".toList

def asInt? : Value → Option Int
  | .bool b => some (if b then 1 else 0)
  | .int n => some n
  | .real x => x.toInt?
  | _ => none

mutual

def same : (a b : Value) → Bool
  | .null, .null => true
  | .text s, .text t => s == t
  | .real x, .real y => x.same y
  | .list xs, .list ys => sameItems xs ys
  | .object fs, .object gs => fs.length == gs.length && sameFields fs gs
  | a, b => match a.asInt?, b.asInt? with
    | some m, some n => m == n
    | _, _ => false

def sameItems : (xs ys : List Value) → Bool
  | [], [] => true
  | x :: xs, y :: ys => same x y && sameItems xs ys
  | _, _ => false

def sameFields : (fs gs : List (Text × Value)) → Bool
  | [], _ => true
  | (name,v) :: fs, gs =>
    (match gs.find? (fun g => g.1 == name) with
      | some g => same v g.2
      | none => false) && sameFields fs gs

end

def isTruthy : Value → Bool
  | .null => false
  | .bool b => b
  | .int n => n != 0
  | .real x => x.isNaN || x.toInt? != some 0
  | .text t => !t.isEmpty
  | .list items => !items.isEmpty
  | .object fields => !fields.isEmpty

def isNumber : Value → Bool
  | .bool _ | .int _ | .real _ => true
  | _ => false

def isKey : Value → Bool
  | .list _ | .object _ => false
  | _ => true

end Value
end LittleMan
