import LittleMan.Assembly.Drawing
import LittleMan.Settings

/-! Programs as markup: a span for each token, the text between tokens escaped, line numbers and emphasis around
whole lines. Texts in other languages are only escaped. The five characters that markup gives a meaning are
written as entities. -/
namespace LittleMan.Markup

def escapeChar (c : Char) : Text :=
  if c = '&' then "&amp;".toList
  else if c = '<' then "&lt;".toList
  else if c = '>' then "&gt;".toList
  else if c = '"' then "&quot;".toList
  else if c = '\'' then "&#x27;".toList
  else [c]

def escape (t : Text) : Text := t.flatMap escapeChar

def span (cls body : Text) : Text :=
  "<span class=\"".toList ++ cls ++ "\">".toList ++ body ++ "</span>".toList

def markFrom (classPrefix line : Text) (pos : Int) : List Token → Text
  | [] => escape (Text.between line pos line.length)
  | t :: more =>
    let start := t.column - 1
    escape (Text.between line pos start) ++ span (classPrefix ++ t.tag.style) (escape t.value) ++
      markFrom classPrefix line (start + t.value.length) more

def markLine (classPrefix line : Text) (tokens : List Token) : Text :=
  markFrom classPrefix line 0 tokens

structure Options where
  emphasised : List Value
  numbered : Bool

def decorate (options : Options) (number : Nat) (body : Text) : Text :=
  let body :=
    if options.numbered then span "lineno".toList (Decimal.natural number) ++ body else body
  if options.emphasised.any (Value.same (.int number)) then span "hll".toList body else body

structure Piece where
  number : Nat
  line : Text
  tokens : List Token
  deriving DecidableEq, Repr

def pieces (tab : TabSize) : (number : Nat) → List Text → Flags → Except Failure (List Piece)
  | _, [], _ => .ok []
  | number, line :: more, before =>
    let drawing := drawLine tab number line before
    match drawing.fault with
    | some e => .error e
    | none =>
      match pieces tab (number + 1) more drawing.flags with
      | .error e => .error e
      | .ok others => .ok (⟨number,line,drawing.tokens⟩ :: others)

def renderPiece (settings : Settings) (options : Options) (p : Piece) : Text :=
  decorate options p.number (markLine settings.classPrefix.plain p.line p.tokens)

def wrap (settings : Settings) (body : Text) : Text :=
  "<pre class=\"".toList ++ settings.wrapClass.plain ++ "\"><code>".toList ++ body ++
    "</code></pre>".toList

def program (settings : Settings) (options : Options) (code : Text) : Except Failure Text :=
  (pieces settings.tab 1 (Text.lines code) .clear).map fun drawn =>
    wrap settings (Text.joinWith ['\n'] (drawn.map (renderPiece settings options)))

def foreignBlock (language : Value) (code : Text) : Except Failure Text :=
  let block (named : Text) : Text :=
    "<pre><code".toList ++ named ++ ">".toList ++ escape code ++ "</code></pre>".toList
  if !language.isTruthy then .ok (block [])
  else
    match language with
    | .text t => .ok (block (" class=\"language-".toList ++ escape t ++ "\"".toList))
    | other => .error (.missingMember other.kind "replace".toList)

def requireKeys : List Value → Except Failure Unit
  | [] => .ok ()
  | v :: more => do
    v.requireKey
    requireKeys more

def renderProgram (settings : Settings) (options : Options) (code : Text) : Except Failure Text := do
  requireKeys options.emphasised
  program settings options code

def highlight (settings : Settings) (options : Options) (language : Value) (code : Text) :
    Except Failure Text := do
  if ← Language.isSupported language then renderProgram settings options code
  else foreignBlock language code

end LittleMan.Markup
