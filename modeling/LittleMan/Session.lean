import LittleMan.Mode.Run
import LittleMan.Catalog

/-! Sessions of an editor: views on documents, extensions that install the lexer, callbacks that wait until the
layout is ready, and what was told and called on the way. An action that fails keeps what it did before it
failed. Layout readiness takes over the callbacks that wait, each at most once, and calls them in order: one
that fails keeps the rest from being called, and one dropped meanwhile is called all the same. -/
namespace LittleMan

structure View where
  id : Text
  text : Text
  mode : Value
  tokens : List Token
  passes : Nat
  deriving Repr

def View.display (v : View) : Text :=
  "EditorView(mode=".toList ++ v.mode.display ++ ", tokens=".toList ++
    Decimal.natural v.tokens.length ++ ")".toList

structure Extension where
  id : Text
  lexer : ModeRef
  /-- Names to install the lexer under, and the content type for the first of them held. -/
  aliases : List Value
  contentType : Value
  heldModes : List Text
  heldContentTypes : List Text
  loaded : Bool
  deriving Repr

inductive Callback where
  | user (id : Text)
  | refresh (extension : Text)
  deriving DecidableEq, Repr

structure Host where
  modes : Text → Mode
  tab : TabSize

def Host.mode (h : Host) : ModeRef → Mode
  | .host id => h.modes id
  | .own _ => Mode.lexer

inductive Answer where
  | nothing
  | bool (b : Bool)
  | count (n : Nat)
  | mode (m : Option ModeRef)
  | owner (o : Owner)
  | name (t : Option Text)
  | text (t : Text)
  | tokens (ts : List Token)
  | each (results : List (Text × List Answer))
  deriving Repr, Inhabited

structure Call where
  callback : Text
  answers : List Answer
  deriving Repr

structure Session where
  /-- The workspace has the catalog; without it no view can be shown and no extension made. -/
  attached : Bool
  catalog : Catalog
  views : List View
  /-- The ids of the shown views in the order they were shown. -/
  shown : List Text
  extensions : List Extension
  ready : Bool
  pending : List Callback
  notices : List Notice
  calls : List Call

namespace Session

def start (attached : Bool) : Session := ⟨attached,.empty,[],[],[],false,[],[],[]⟩

abbrev Action := EStateM Failure Session

def view? (s : Session) (id : Text) : Option View := s.views.find? (·.id == id)

def extension? (s : Session) (id : Text) : Option Extension := s.extensions.find? (·.id == id)

def withView (s : Session) (id : Text) (change : View → View) : Session :=
  {s with views := s.views.map fun v => if v.id == id then change v else v}

def withExtension (s : Session) (id : Text) (change : Extension → Extension) : Session :=
  {s with extensions := s.extensions.map fun x => if x.id == id then change x else x}

def tell (notice : Notice) : Action Unit :=
  modify fun s => {s with notices := s.notices ++ [notice]}

def ask {α : Type} (question : Catalog → Except Failure α) : Action α := do
  match question (← get).catalog with
  | .ok answer => return answer
  | .error e => throw e

def change (operation : Catalog → Except Failure Catalog.Change) : Action Bool := do
  let c ← ask operation
  modify fun s => {s with catalog := c.catalog, notices := s.notices ++ c.notices}
  return c.answer

def tokensIn (host : Host) (c : Catalog) (mode : Value) (text : Text) : Except Failure (List Token) := do
  match ← c.modeFor mode with
  | none => return []
  | some m => (host.mode m).run host.tab text

def passOver (host : Host) (id : Text) : Action Unit := do
  match (← get).view? id with
  | none => return
  | some v =>
    let tokens ← ask fun c => tokensIn host c v.mode v.text
    modify (·.withView id fun v => {v with tokens := tokens, passes := v.passes + 1})

/-- Sets the mode first, so a view whose pass fails has the mode without its tokens. -/
def switchMode (host : Host) (id : Text) (mode : Value) : Action Unit := do
  modify (·.withView id fun v => {v with mode := mode})
  passOver host id

def setText (id text : Text) : Action Unit :=
  modify (·.withView id fun v => {v with text := text})

def makeView (host : Host) (id text : Text) (mode : Value) : Action Unit := do
  let tokens ← ask fun c => tokensIn host c mode text
  modify fun s => {s with views := s.views ++ [⟨id,text,mode,tokens,1⟩]}

def showView (host : Host) (id text : Text) (mode : Value) : Action Unit := do
  if (← get).attached then
    makeView host id text mode
    modify fun s => {s with shown := s.shown ++ [id]}
  else throw .noCatalog

def hideView (id : Text) : Action Unit :=
  modify fun s => {s with shown := s.shown.erase id}

def whenReady (invoke : Callback → Action Unit) (callback : Callback) : Action Unit := do
  let s ← get
  if s.ready then invoke callback
  else if callback ∈ s.pending then return
  else set {s with pending := s.pending ++ [callback]}

def cancelReady (callback : Callback) : Action Unit :=
  modify fun s => {s with pending := s.pending.erase callback}

def invokeAll (invoke : Callback → Action Unit) : List Callback → Action Unit
  | [] => return
  | callback :: more => do
    invoke callback
    invokeAll invoke more

def becomeReady (invoke : Callback → Action Unit) : Action Unit := do
  let s ← get
  if s.ready then return
  else
    set {s with ready := true, pending := []}
    tell (.ready s.pending.length)
    invokeAll invoke s.pending

end Session
end LittleMan
