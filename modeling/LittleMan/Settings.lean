import LittleMan.Cursor

/-! Presentation settings: how far tabs go, and the class names of the rendered markup. Only the
tab size is checked; class names are taken as they are. -/
namespace LittleMan

structure Settings where
  tab : TabSize
  classPrefix : Value
  wrapClass : Value
  deriving Repr

namespace Settings

def standard : Settings := ⟨.standard,.text "cm-".toList,.text "lmc".toList⟩

abbrev Fields := List (Text × Value)

def fieldNames : List Text := ["tab_size".toList,"class_prefix".toList,"wrap_class".toList]

/-- The name of the settings themselves while they are made. It is taken, so no field may have it. -/
def ownName : Text := "self".toList

def Fields.get? (fields : Fields) (name : Text) : Option Value :=
  (fields.find? (·.1 == name)).map (·.2)

def ofFields (fields : Fields) : Except Failure Settings :=
  match fields.find? (fun f => !fieldNames.contains f.1) with
  | some (name,_) =>
    .error (if name == ownName then .takenField name else .unknownField name)
  | none =>
    let given := (fields.get? "tab_size".toList).getD standard.tab.given
    match TabSize.ofValue? given with
    | .error e => .error e
    | .ok tab =>
      .ok ⟨tab,(fields.get? "class_prefix".toList).getD standard.classPrefix,
        (fields.get? "wrap_class".toList).getD standard.wrapClass⟩

def ofKnownFields (fields : Fields) : Except Failure Settings :=
  ofFields (fields.filter fun f => fieldNames.contains f.1)

/-- Settings never change: assigning to any name fails, and only a field is named as fixed. -/
def assignFailure (name : Text) : Failure :=
  if fieldNames.contains name then .frozenField name else .notField

def same (a b : Settings) : Bool :=
  a.tab.given.same b.tab.given && a.classPrefix.same b.classPrefix && a.wrapClass.same b.wrapClass

def display (s : Settings) : Text :=
  "HighlightConfig(tab_size=".toList ++ s.tab.given.display ++ ", class_prefix=".toList ++
    s.classPrefix.display ++ ", wrap_class=".toList ++ s.wrapClass.display ++ ")".toList

/-- The tab size of a call: the one given, or the one of the settings if none is. It is compared
before anything else, so it has to be a number. -/
def tabFor (s : Settings) : Value → Except Failure TabSize
  | .null => .ok s.tab
  | given => if given.isNumber then TabSize.ofValue? given else .error (.notOrdered given.kind)

end Settings
end LittleMan
