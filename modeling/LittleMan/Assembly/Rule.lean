import LittleMan.Assembly.Pattern
import LittleMan.Assembly.Token

/-! The classification rules, tried in order: the first that matches wins. A word is a variable or a link
because of its own statement, at the start of it, or because of the unit before. What is remembered of the unit
before is at most one flag after any step, though a caller may set several. -/
namespace LittleMan

inductive Flag where
  | linkable
  | operand
  | data
  deriving DecidableEq, Repr

/-- A branch was read, so a word is a link; an instruction with a memory operand was read, so a
word is a variable; the data directive was read, so digits are a number. -/
structure Flags where
  linkable : Bool := false
  operand : Bool := false
  data : Bool := false
  deriving DecidableEq, Repr

namespace Flags

def clear : Flags := {}

def only : Option Flag → Flags
  | none => clear
  | some .linkable => {linkable := true}
  | some .operand => {operand := true}
  | some .data => {data := true}

def display (f : Flags) : Text :=
  let shown (b : Bool) := (Value.bool b).display
  "LexerState(previous_linkable=".toList ++ shown f.linkable ++ ", previous_variable=".toList ++
    shown f.operand ++ ", previous_dat=".toList ++ shown f.data ++ ")".toList

end Flags

def Flag.name : Flag → Text
  | .linkable => "previous_linkable".toList
  | .operand => "previous_variable".toList
  | .data => "previous_dat".toList

inductive Rule where
  | number
  | io
  | arithmetic
  | branch
  | variabled
  | other
  | data
  | var
  | link
  deriving DecidableEq, Repr

namespace Rule

def fixedRules : List Rule := [.number,.io,.arithmetic,.branch,.variabled,.other,.data]

def table : List Rule := fixedRules ++ [.var,.link]

def name : Rule → Text
  | .number => "number".toList
  | .io => "io".toList
  | .arithmetic => "arithmetic".toList
  | .branch => "branch".toList
  | .variabled => "variabled".toList
  | .other => "other".toList
  | .data => "dat".toList
  | .var => "variable".toList
  | .link => "link".toList

def tag : Rule → Tag
  | .number => .number
  | .io => .ioKeyword
  | .arithmetic | .branch | .variabled | .other => .keyword
  | .data => .directive
  | .var => .var
  | .link => .link

def sets : Rule → Option Flag
  | .arithmetic | .variabled => some .operand
  | .branch => some .linkable
  | .data => some .data
  | _ => none

def labelOrDue (label : Pattern) (atStart due : Bool) (rest : Text) : Option Nat :=
  match if atStart then label.length? rest else none with
  | some n => some n
  | none => if due then Pattern.word.length? rest else none

def length? (atStart : Bool) (before : Flags) (rest : Text) : Rule → Option Nat
  | .number => if before.data then Pattern.digits.length? rest else none
  | .io => (Pattern.keyword .io).length? rest
  | .arithmetic => (Pattern.keyword .arithmetic).length? rest
  | .branch => (Pattern.keyword .branch).length? rest
  | .variabled => (Pattern.keyword .variabled).length? rest
  | .other => (Pattern.keyword .other).length? rest
  | .data => (Pattern.keyword .data).length? rest
  | .var => labelOrDue .dataLabel atStart before.operand rest
  | .link => labelOrDue .instructionLabel atStart before.linkable rest

theorem labelOrDueBounds {label : Pattern} {atStart due : Bool} {rest : Text} {n : Nat}
    (h : labelOrDue label atStart due rest = some n) : 0 < n ∧ n ≤ rest.length := by
  unfold labelOrDue at h
  split at h
  · rename_i labelled
    cases h
    split at labelled <;> first | contradiction | exact Pattern.lengthBounds labelled
  · split at h <;> first | contradiction | exact Pattern.lengthBounds h

theorem lengthBounds {atStart : Bool} {before : Flags} {rest : Text} {rule : Rule} {n : Nat}
    (h : rule.length? atStart before rest = some n) : 0 < n ∧ n ≤ rest.length := by
  cases rule with
  | number =>
    simp only [length?] at h
    split at h <;> first | contradiction | exact Pattern.lengthBounds h
  | var => exact labelOrDueBounds h
  | link => exact labelOrDueBounds h
  | _ =>
    simp only [length?] at h
    exact Pattern.lengthBounds h

end Rule

end LittleMan
