import LittleMan.Failure

/-! The assembly language of the Little Man Computer: the three mode names and the content type it goes by, and
its mnemonics and data directive, grouped by what may follow. -/
namespace LittleMan

namespace Language

def aliases : List Text := ["lmc".toList,"lmc-asm".toList,"littlemancomputer".toList]

def contentType : Text := "text/x-lmc".toList

def names : List Text := contentType :: aliases

def sortedNames : List Text := names.mergeSort Text.le

def version : Text := "0.1.0".toList

def isSupported (language : Value) : Except Failure Bool := do
  language.requireKey
  return match language with
    | .text t => names.contains t
    | _ => false

end Language

inductive Role where
  | io
  | arithmetic
  | branch
  | variabled
  | other
  | data
  deriving DecidableEq, Repr

inductive Keyword where
  | sta | sto | lda
  | hlt
  | bra | brz | brp
  | add | sub
  | inp | out | otc
  | dat
  deriving DecidableEq, Repr

namespace Keyword

def all : List Keyword := [.sta,.sto,.lda,.hlt,.bra,.brz,.brp,.add,.sub,.inp,.out,.otc,.dat]

def spelling : Keyword → Text
  | .sta => ['S','T','A']
  | .sto => ['S','T','O']
  | .lda => ['L','D','A']
  | .hlt => ['H','L','T']
  | .bra => ['B','R','A']
  | .brz => ['B','R','Z']
  | .brp => ['B','R','P']
  | .add => ['A','D','D']
  | .sub => ['S','U','B']
  | .inp => ['I','N','P']
  | .out => ['O','U','T']
  | .otc => ['O','T','C']
  | .dat => ['D','A','T']

def role : Keyword → Role
  | .sta | .sto | .lda => .variabled
  | .hlt => .other
  | .bra | .brz | .brp => .branch
  | .add | .sub => .arithmetic
  | .inp | .out | .otc => .io
  | .dat => .data

def at? (t : Text) : Option Keyword := all.find? fun k => Text.startsFolded k.spelling t

theorem atSpelled {t : Text} {k : Keyword} (h : at? t = some k) :
    Text.startsFolded k.spelling t = true := by
  unfold at? at h
  have := List.find?_some h
  exact this

theorem memAll (k : Keyword) : k ∈ all := by cases k <;> decide

theorem spellingLength (k : Keyword) : k.spelling.length = 3 := by cases k <;> rfl

end Keyword

def Role.spellings (role : Role) : List Text :=
  ((Keyword.all.filter (·.role == role)).map Keyword.spelling).mergeSort Text.le

def Role.isInstruction : Role → Bool
  | .data => false
  | _ => true

def startsWithRole (p : Role → Bool) (t : Text) : Bool :=
  match Keyword.at? t with
  | some k => p k.role
  | none => false

end LittleMan
