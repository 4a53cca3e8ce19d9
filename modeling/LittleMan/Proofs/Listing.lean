import LittleMan.Assembly.Keyword
import LittleMan.Assembly.Token
import LittleMan.Proofs.LineBreaks

/-! Well-formed programs as their writer sees them: lines made of a label, a keyword and what it is
applied to, with spaces and tabs between them and a comment at the end. Every part keeps the proof
of its own form. Beside the text of a program stand the tokens that are meant by it. -/
namespace LittleMan.Listing

structure Gap where
  text : Text
  plain : ∀ c ∈ text, c = ' ' ∨ c = '\t'

structure Run extends Gap where
  filled : text ≠ []

structure Name where
  text : Text
  filled : text ≠ []
  word : ∀ c ∈ text, Text.isWord c = true
  free : ∀ k ∈ Keyword.all, ¬ k.spelling <+: text.map Text.foldCase

/- A name before a keyword. Only a label of data may have the data directive inside. -/
structure Label (k : Keyword) extends Name where
  letter : ∀ c, text.head? = some c → Text.isDigit c = false
  quiet : k ≠ .dat → ¬ Keyword.dat.spelling <:+: text.map Text.foldCase

structure Spelled (k : Keyword) where
  text : Text
  folded : text.map Text.foldCase = k.spelling

structure Digits where
  text : Text
  filled : text ≠ []
  digits : ∀ c ∈ text, Text.isDigit c = true

structure Comment where
  first : Char
  more : Text
  clear : Text.isBlank first = false
  mark : Text.isWord first = false
  unbroken : Text.Unbroken (first :: more)

inductive Argument : Role → Type where
  | bare {role} (alone : role = .io ∨ role = .other ∨ role = .data) : Argument role
  | operand {role} (applied : role = .variabled ∨ role = .arithmetic ∨ role = .branch) (gap : Run)
      (name : Name) : Argument role
  | number (gap : Run) (digits : Digits) : Argument .data

structure Statement where
  keyword : Keyword
  label : Option (Label keyword × Run)
  word : Spelled keyword
  argument : Argument keyword.role

structure Ending where
  gap : Gap
  comment : Option Comment

structure Line where
  indent : Gap
  statement : Option Statement
  ending : Ending

def Comment.text (c : Comment) : Text := c.first :: c.more

def Argument.text {role : Role} : Argument role → Text
  | .bare _ => []
  | .operand _ gap name => gap.text ++ name.text
  | .number gap digits => gap.text ++ digits.text

def labelText {k : Keyword} : Option (Label k × Run) → Text
  | none => []
  | some (label,gap) => label.text ++ gap.text

def Statement.text (s : Statement) : Text := labelText s.label ++ (s.word.text ++ s.argument.text)

def commentText : Option Comment → Text
  | none => []
  | some comment => comment.text

def Ending.text (e : Ending) : Text := e.gap.text ++ commentText e.comment

def statementText : Option Statement → Text
  | none => []
  | some statement => statement.text

def Line.text (l : Line) : Text := l.indent.text ++ (statementText l.statement ++ l.ending.text)

def text (program : List Line) : Text := Text.joinWith ['\n'] (program.map Line.text)

def labelTag : Role → Tag
  | .data => .var
  | _ => .link

def keywordTag : Role → Tag
  | .io => .ioKeyword
  | .data => .directive
  | _ => .keyword

def operandTag : Role → Tag
  | .branch => .link
  | _ => .var

def token (tag : Tag) (value : Text) (number : Int) (offset : Nat) : Token := ⟨tag,value,number,offset + 1⟩

def labelTokens {k : Keyword} (number : Int) (offset : Nat) : Option (Label k × Run) → List Token
  | none => []
  | some (label,_) => [token (labelTag k.role) label.text number offset]

def Argument.tokens {role : Role} (number : Int) (offset : Nat) : Argument role → List Token
  | .bare _ => []
  | .operand _ gap name => [token (operandTag role) name.text number (offset + gap.text.length)]
  | .number gap digits => [token .number digits.text number (offset + gap.text.length)]

def Statement.tokens (number : Int) (offset : Nat) (s : Statement) : List Token :=
  let start := offset + (labelText s.label).length
  labelTokens number offset s.label ++ token (keywordTag s.keyword.role) s.word.text number start ::
    s.argument.tokens number (start + s.word.text.length)

def statementTokens (number : Int) (offset : Nat) : Option Statement → List Token
  | none => []
  | some statement => statement.tokens number offset

def commentTokens (number : Int) (offset : Nat) : Option Comment → List Token
  | none => []
  | some comment => [token .comment (Text.trimEnd comment.text) number offset]

def Ending.tokens (number : Int) (offset : Nat) (e : Ending) : List Token :=
  commentTokens number (offset + e.gap.text.length) e.comment

def Line.tokens (number : Int) (l : Line) : List Token :=
  let start := l.indent.text.length
  statementTokens number start l.statement ++
    l.ending.tokens number (start + (statementText l.statement).length)

def tokens : (number : Nat) → List Line → List Token
  | _, [] => []
  | number, line :: more => line.tokens number ++ tokens (number + 1) more

end LittleMan.Listing
