import LittleMan.Decimal
import LittleMan.Text.Quoted

/-! Tags of lexical units, and tokens: a tag with the text it covers and where that stands. -/
namespace LittleMan

inductive Tag where
  | keyword
  | link
  | var
  | number
  | comment
  | ioKeyword
  | directive
  deriving DecidableEq, Repr

namespace Tag

def all : List Tag := [.keyword,.link,.var,.number,.comment,.ioKeyword,.directive]

def name : Tag → Text
  | .keyword => "KEYWORD".toList
  | .link => "LINK".toList
  | .var => "VARIABLE".toList
  | .number => "NUMBER".toList
  | .comment => "COMMENT".toList
  | .ioKeyword => "IO_KEYWORD".toList
  | .directive => "DIRECTIVE".toList

def style : Tag → Text
  | .keyword => "keyword".toList
  | .link => "link".toList
  | .var => "variable".toList
  | .number => "number".toList
  | .comment => "comment".toList
  | .ioKeyword => "string".toList
  | .directive => "def".toList

def code (t : Tag) : Nat := all.idxOf t + 1

def ofName? (name : Text) : Option Tag := all.find? (·.name == name)

end Tag

/-- Lines and columns count from one. -/
structure Token where
  tag : Tag
  value : Text
  line : Int
  column : Int
  deriving DecidableEq, Repr

def Token.display (t : Token) : Text :=
  "Token(".toList ++ t.tag.name ++ ", ".toList ++ t.value.quoted ++ ", ".toList ++
    Decimal.integer t.line ++ ":".toList ++ Decimal.integer t.column ++ ")".toList

end LittleMan
