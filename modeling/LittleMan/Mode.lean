import LittleMan.Assembly.Reading

/-! Modes: what a host drives line by line. A mode is made of members that a host looks up by name,
so each may be missing, or be something that cannot be called. -/
namespace LittleMan

inductive Member (α : Type u) where
  | missing
  | value (kind : Text)
  | function (f : α)

namespace Member

def isFunction {α : Type u} : Member α → Bool
  | .function _ => true
  | _ => false

def isThere {α : Type u} : Member α → Bool
  | .missing => false
  | _ => true

def call {α : Type u} (kind name : Text) : Member α → Except Failure α
  | .missing => .error (.missingMember kind name)
  | .value type => .error (.notCallable type)
  | .function f => .ok f

end Member

namespace Mode

structure Move (σ : Type) where
  tag : Option Tag
  pos : Int
  state : σ

end Mode

structure Mode where
  kind : Text
  State : Type
  start : Member State
  token : Member (State → Cursor → Except Failure (Mode.Move State))
  emptyLine : Option (State → State)
  copy : Option (State → State)

namespace Mode

def tokenName : Text := "token".toList

def startName : Text := "start_state".toList

def lacks? (m : Mode) : Option Text :=
  if !m.token.isFunction then some tokenName
  else if !m.start.isFunction then some startName
  else none

def hasAllMembers (m : Mode) : Bool :=
  m.token.isThere && m.start.isThere && m.copy.isSome && m.emptyLine.isSome

def lexer : Mode where
  kind := "LmcLexer".toList
  State := Flags
  start := .function .clear
  token := .function fun before c =>
    let r := c.read before
    r.answer.map fun tag => ⟨tag,r.cursor.pos,r.flags⟩
  emptyLine := some id
  copy := some id

end Mode
end LittleMan
