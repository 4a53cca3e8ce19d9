import LittleMan.Assembly.Pattern
import LittleMan.Text.LowerCase

/-! A cursor over one line. The unit being read runs from `start` to `pos`; both are signed offsets that a host
may set as it likes, so reading a character before the start of the line fails. Patterns and literals are read
at `pos`, which moves only when they match. A tab size is a positive width, kept together with the value it was
given as. -/
namespace LittleMan

structure TabSize where
  given : Value
  width : Int
  positive : 0 < width
  deriving Repr

namespace TabSize

def ofValue? (given : Value) : Except Failure TabSize :=
  match given with
  | .bool true => .ok ⟨given,1,by decide⟩
  | .int n => if positive : 0 < n then .ok ⟨given,n,positive⟩ else .error (.tabSize given)
  | _ => .error (.tabSize given)

def standard : TabSize := ⟨.int 4,4,by decide⟩

end TabSize

structure Cursor where
  text : Text
  pos : Int
  start : Int
  tab : TabSize
  deriving Repr

namespace Cursor

def ofLine (tab : TabSize) (text : Text) : Cursor := ⟨text,0,0,tab⟩

def atEnd (c : Cursor) : Bool := c.text.length ≤ c.pos

def atBeginning (c : Cursor) : Bool := c.pos == 0

def column (c : Cursor) : Int := Text.columns c.tab.width (Text.before c.text c.start)

def indentation (c : Cursor) : Int :=
  Text.columns c.tab.width (c.text.take (Text.indent c.text))

def startsStatement (c : Cursor) : Bool := c.indentation == c.column

def current (c : Cursor) : Text := Text.between c.text c.start c.pos

/-- The characters met by going on from `pos`: from an offset below zero they are the end of the
line and then the whole line. -/
def ahead (c : Cursor) : Except Failure Text :=
  if 0 ≤ c.pos then .ok (c.text.drop c.pos.toNat)
  else if c.pos + c.text.length < 0 then .error .offset
  else .ok (c.text.drop (c.pos + c.text.length).toNat ++ c.text)

def rest (c : Cursor) : Text := c.text.drop c.pos.toNat

def mark (c : Cursor) : Cursor := {c with start := c.pos}

def peek (c : Cursor) : Except Failure (Option Char) := c.ahead.map (·.head?)

def next (c : Cursor) : Except Failure (Option Char × Cursor) :=
  c.ahead.map fun
    | [] => (none,c)
    | ch :: _ => (some ch,{c with pos := c.pos + 1})

def eatBlanks (c : Cursor) : Except Failure (Bool × Cursor) :=
  c.ahead.map fun t =>
    let n := Text.indent t
    (0 < n,{c with pos := c.pos + n})

def toEnd (c : Cursor) : Cursor := {c with pos := c.text.length}

def sees (c : Cursor) (literal : Text) (anyCase : Bool) : Bool :=
  let candidate := Text.between c.text c.pos (c.pos + literal.length)
  if anyCase then Text.lower candidate == Text.lower literal else candidate == literal

def matchLiteral (c : Cursor) (literal : Text) (consume anyCase : Bool) : Bool × Cursor :=
  let seen := c.sees literal anyCase
  (seen,if seen && consume then {c with pos := c.pos + literal.length} else c)

def base (c : Cursor) : Nat := min c.pos.toNat c.text.length

structure Found where
  text : Text
  start : Nat
  stop : Nat
  deriving DecidableEq, Repr

def matchPattern (c : Cursor) (p : Pattern) (consume : Bool) : Option Found × Cursor :=
  match p.length? c.rest with
  | none => (none,c)
  | some n =>
    let stop := c.base + n
    (some ⟨c.rest.take n,c.base,stop⟩,if consume then {c with pos := stop} else c)

def display (c : Cursor) : Text :=
  "StringStream(".toList ++ c.text.quoted ++ ", pos=".toList ++ Decimal.integer c.pos ++ ")".toList

end Cursor

end LittleMan
