import LittleMan.Mode

/-! A stock of modes to try a host with: the lexer, modes that take a whole line or one character,
modes that stall or go back, and objects that lack what a mode needs. -/
namespace LittleMan

inductive Stock where
  | lexer
  | whole
  | silent
  | char
  | blank
  | stalled
  | stallTag
  | back
  | stallAtBang
  | full
  | noToken
  | noStart
  | badToken
  | badStart
  | bare
  deriving DecidableEq, Repr

namespace Stock

def all : List Stock :=
  [.lexer,.whole,.silent,.char,.blank,.stalled,.stallTag,.back,.stallAtBang,.full,.noToken,.noStart,
    .badToken,.badStart,.bare]

def kind : Stock → Text
  | .lexer => Mode.lexer.kind
  | .whole => "HostMode".toList
  | .silent => "SkipMode".toList
  | .char => "CharMode".toList
  | .blank => "BlankMode".toList
  | .stalled => "Stalled".toList
  | .stallTag => "StallTag".toList
  | .back => "BackMode".toList
  | .stallAtBang => "StallAtBang".toList
  | .full => "FullMode".toList
  | .noToken => "NoToken".toList
  | .noStart => "NoStart".toList
  | .badToken => "BadToken".toList
  | .badStart => "BadStart".toList
  | .bare => "object".toList

def ofKind? (name : Text) : Option Stock := all.find? (·.kind == name)

def plain (kind : Text) (token : Cursor → Except Failure (Option Tag × Int)) : Mode where
  kind := kind
  State := Unit
  start := .function ()
  token := .function fun _ c => (token c).map fun (tag,pos) => ⟨tag,pos,()⟩
  emptyLine := none
  copy := none

def toEnd (tag : Option Tag) (c : Cursor) : Except Failure (Option Tag × Int) :=
  .ok (tag,c.toEnd.pos)

def onward (tag : Tag) (c : Cursor) : Except Failure (Option Tag × Int) :=
  c.next.map fun (_,moved) => (some tag,moved.pos)

def mode (s : Stock) : Mode :=
  match s with
  | .lexer => Mode.lexer
  | .whole => plain s.kind (toEnd (some .comment))
  | .silent => plain s.kind (toEnd none)
  | .char => plain s.kind (onward .var)
  | .blank =>
    { kind := s.kind
      State := Nat
      start := .function 0
      token := .function fun count c =>
        .ok ⟨some (if count % 2 = 1 then .number else .directive),c.toEnd.pos,count⟩
      emptyLine := some (· + 1)
      copy := none }
  | .stalled => plain s.kind fun c => .ok (none,c.pos)
  | .stallTag => plain s.kind fun c => .ok (some .comment,c.pos)
  | .back => plain s.kind fun c => .ok (some .link,if c.pos = 0 then c.pos + 1 else c.pos - 1)
  | .stallAtBang => plain s.kind fun c => do
    if (← c.peek) = some '!' then return (some .comment,c.pos) else onward .comment c
  | .full => {plain s.kind (toEnd (some .comment)) with emptyLine := some id, copy := some id}
  | .noToken => {plain s.kind (toEnd none) with token := .missing}
  | .noStart => {plain s.kind (toEnd none) with start := .missing}
  | .badToken => {plain s.kind (toEnd none) with token := .value "int".toList}
  | .badStart => {plain s.kind (toEnd none) with start := .value "str".toList}
  | .bare => {plain s.kind (toEnd none) with token := .missing, start := .missing}

end Stock
end LittleMan
