import LittleMan.Value

/-! Causes of failure and the words each is reported with. -/
namespace LittleMan

inductive Refusal where
  | emptyName
  | lacks (mode member : Text)
  | unknownMode (name : Value)
  | other (words : Text)
  deriving Repr

def Refusal.message : Refusal → Text
  | .emptyName => "name must be a non-empty string".toList
  | .lacks mode member => mode ++ " missing '".toList ++ member ++ "'".toList
  | .unknownMode name => "unknown mode ".toList ++ name.display
  | .other words => words

inductive Failure where
  | tabSize (given : Value)
  | unknownField (name : Text)
  /-- A field was named that the maker of settings has already filled itself. -/
  | takenField (name : Text)
  | frozenField (name : Text)
  | notField
  /-- A tab has no column where tabs have no width. -/
  | zeroTab
  | offset
  | registration (name : Value) (reason : Refusal)
  | stalled (mode : Text)
  | noCatalog
  | nothingToExtend
  | missingMember (kind member : Text)
  | notCallable (kind : Text)
  | notOrdered (kind : Text)
  | notKey (kind : Text)
  | depth
  deriving Repr

def Failure.message : Failure → Text
  | .tabSize given => "tab_size must be a positive integer, got ".toList ++ given.display
  | .unknownField name =>
    "HighlightConfig.__init__() got an unexpected keyword argument '".toList ++ name ++ "'".toList
  | .takenField name =>
    "HighlightConfig.__init__() got multiple values for argument '".toList ++ name ++ "'".toList
  | .frozenField name => "cannot assign to field ".toList ++ name.quoted
  | .notField => "super(type, obj): obj must be an instance or subtype of type".toList
  | .zeroTab => "integer modulo by zero".toList
  | .offset => "string index out of range".toList
  | .registration name reason => "Mode ".toList ++ name.display ++ ": ".toList ++ reason.message
  | .stalled mode => "Mode ".toList ++ mode ++ " failed to advance stream".toList
  | .noCatalog => "Workspace has no mode registry".toList
  | .nothingToExtend => "Cannot install LMC mode: workspace has no mode registry".toList
  | .missingMember kind member =>
    "'".toList ++ kind ++ "' object has no attribute '".toList ++ member ++ "'".toList
  | .notCallable kind => "'".toList ++ kind ++ "' object is not callable".toList
  | .notOrdered kind =>
    "'<' not supported between instances of '".toList ++ kind ++ "' and 'int'".toList
  | .notKey kind => "unhashable type: '".toList ++ kind ++ "'".toList
  | .depth => "maximum recursion depth exceeded".toList

def Value.requireKey (v : Value) : Except Failure Unit :=
  if v.isKey then .ok () else .error (.notKey v.kind)

end LittleMan
