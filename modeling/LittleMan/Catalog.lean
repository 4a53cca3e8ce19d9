import LittleMan.Mode
import LittleMan.Notice
import LittleMan.Catalog.Table

/-! Catalogs: modes under names, and names under content types. An entry belongs to who installed
it; nobody else replaces or removes it. Installing what is there already changes nothing. -/
namespace LittleMan

inductive ModeRef where
  | host (id : Text)
  | own (extension : Text)
  deriving DecidableEq, Repr

structure Catalog where
  modes : Table ModeRef
  contentTypes : Table Text
  deriving DecidableEq, Repr

namespace Catalog

def empty : Catalog := ⟨[],[]⟩

structure Change where
  answer : Bool
  catalog : Catalog
  notices : List Notice

def validName (name : Value) : Except Failure Text :=
  match name with
  | .text (c :: t) => .ok (c :: t)
  | _ => .error (.registration name .emptyName)

def lookup {α : Type} (name : Value) (find : Text → Option α) : Except Failure (Option α) := do
  name.requireKey
  return match name with
    | .text t => find t
    | _ => none

/-- Installs a mode. The answer is whether the owner holds the name afterwards. -/
def insertMode (c : Catalog) (modes : ModeRef → Mode) (name : Value) (mode : ModeRef) (owner : Owner) :
    Except Failure Change := do
  let name ← validName name
  match (modes mode).lacks? with
  | some member => throw (.registration (.text name) (.lacks (modes mode).kind member))
  | none =>
    let defined : Change :=
      ⟨true,{c with modes := c.modes.put ⟨name,mode,owner⟩},[.modeDefined name (modes mode).kind]⟩
    match c.modes.get? name with
    | none => return defined
    | some e =>
      if e.owner ≠ owner then return ⟨false,c,[.modeHeld name]⟩
      else if e.item = mode then return ⟨true,c,[]⟩
      else return defined

def eraseMode (c : Catalog) (name : Value) (owner : Owner) : Except Failure Change := do
  match ← lookup name c.modes.get? with
  | none => return ⟨false,c,[]⟩
  | some e =>
    if e.owner ≠ owner then return ⟨false,c,[]⟩
    else return ⟨true,{c with modes := c.modes.remove e.name},[.modeRemoved e.name]⟩

def mode? (c : Catalog) (name : Value) : Except Failure (Option ModeRef) := do
  return (← lookup name c.modes.get?).map (·.item)

def holder (c : Catalog) (name : Value) : Except Failure Owner := do
  return (← lookup name c.modes.get?).elim .host (·.owner)

def contains (c : Catalog) (name : Value) : Except Failure Bool := do
  return (← lookup name c.modes.get?).isSome

def insertContentType (c : Catalog) (contentType name : Value) (owner : Owner) : Except Failure Change := do
  let contentType ← validName contentType
  match ← lookup name c.modes.get? with
  | none => throw (.registration (.text contentType) (.unknownMode name))
  | some target =>
    let defined : Change :=
      ⟨true,{c with contentTypes := c.contentTypes.put ⟨contentType,target.name,owner⟩},[]⟩
    match c.contentTypes.get? contentType with
    | none => return defined
    | some e => if e.owner ≠ owner then return ⟨false,c,[.contentTypeHeld contentType]⟩ else return defined

def eraseContentType (c : Catalog) (contentType : Value) (owner : Owner) : Except Failure Change := do
  match ← lookup contentType c.contentTypes.get? with
  | none => return ⟨false,c,[]⟩
  | some e =>
    if e.owner ≠ owner then return ⟨false,c,[]⟩
    else return ⟨true,{c with contentTypes := c.contentTypes.remove e.name},[]⟩

def target? (c : Catalog) (contentType : Value) : Except Failure (Option Text) := do
  return (← lookup contentType c.contentTypes.get?).map (·.item)

def find? (c : Catalog) (spec : Text) : Option ModeRef :=
  match c.modes.get? spec with
  | some e => some e.item
  | none => (c.contentTypes.get? spec).bind fun e => (c.modes.get? e.item).map (·.item)

def modeFor (c : Catalog) (spec : Value) : Except Failure (Option ModeRef) :=
  if spec.isTruthy then lookup spec c.find? else .ok none

end Catalog
end LittleMan
