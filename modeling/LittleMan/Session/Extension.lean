import LittleMan.Session

/-! Extensions. Loading installs the lexer under every alias that nobody else holds and the content
type for the first of those, and has the views of these names refreshed once the layout is ready.
Unloading removes what was installed and refreshes the same views. -/
namespace LittleMan.Session

def extensionNames (x : Extension) : Except Failure (List Value) := do
  let names := x.aliases ++ [x.contentType]
  names.forM Value.requireKey
  return names

def refreshThose (host : Host) (names : List Value) : List Text → Nat → Action Nat
  | [], count => return count
  | id :: more, count => do
    match (← get).view? id with
    | none => refreshThose host names more count
    | some v =>
      ask fun _ => v.mode.requireKey
      if names.any v.mode.same then
        switchMode host id v.mode
        refreshThose host names more (count + 1)
      else refreshThose host names more count

def refreshShown (host : Host) (id : Text) : Action Nat := do
  match (← get).extension? id with
  | none => return 0
  | some x =>
    let names ← ask fun _ => extensionNames x
    let count ← refreshThose host names (← get).shown 0
    tell (.refreshed count)
    return count

def refreshWhenReady (host : Host) (id : Text) : Action Unit := do
  cancelReady (.refresh id)
  let _ ← refreshShown host id

def installModes (host : Host) (x : Extension) : List Value → Action Unit
  | [] => return
  | name :: more => do
    let held ← change fun c => c.insertMode host.mode name x.lexer (.extension x.id)
    match held, name with
    | true, .text t =>
      modify (·.withExtension x.id fun x => {x with heldModes := x.heldModes ++ [t]})
    | _, _ => pure ()
    installModes host x more

def installContentType (x : Extension) (installed : List Text) : Action Unit := do
  match installed with
  | [] => return
  | first :: _ =>
    let held ← change fun c => c.insertContentType x.contentType (.text first) (.extension x.id)
    match held, x.contentType with
    | true, .text t =>
      modify (·.withExtension x.id fun x => {x with heldContentTypes := x.heldContentTypes ++ [t]})
    | _, _ => pure ()

def heldModes (id : Text) : Action (List Text) :=
  return ((← get).extension? id).elim [] (·.heldModes)

def install (host : Host) (x : Extension) : Action Unit := do
  installModes host x x.aliases
  installContentType x (← heldModes x.id)
  let installed ← heldModes x.id
  let skipped := x.aliases.filter fun name => !installed.any fun t => name.same (.text t)
  if !skipped.isEmpty then tell (.notInstalled skipped)
  tell (.installed installed)

def load (host : Host) (invoke : Callback → Action Unit) (id : Text) : Action Unit := do
  match (← get).extension? id with
  | none => return
  | some x =>
    if x.loaded then return
    else
      install host x
      modify (·.withExtension id fun x => {x with loaded := true})
      whenReady invoke (.refresh id)

def uninstallContentTypes (id : Text) : List Text → Action Unit
  | [] => return
  | contentType :: more => do
    let _ ← change fun c => c.eraseContentType (.text contentType) (.extension id)
    uninstallContentTypes id more

def uninstallModes (id : Text) : List Text → Action Unit
  | [] => return
  | name :: more => do
    let _ ← change fun c => c.eraseMode (.text name) (.extension id)
    uninstallModes id more

def unload (host : Host) (id : Text) : Action Unit := do
  match (← get).extension? id with
  | none => return
  | some x =>
    if !x.loaded then return
    else
      cancelReady (.refresh id)
      uninstallContentTypes id x.heldContentTypes
      uninstallModes id x.heldModes
      tell (.uninstalled x.heldModes)
      modify (·.withExtension id fun x =>
        {x with heldModes := [], heldContentTypes := [], loaded := false})
      let _ ← refreshShown host id

structure ExtensionOptions where
  lexer : Option Text
  aliases : Option (List Value)
  contentType : Option Value
  deriving Repr

def ExtensionOptions.extension (options : ExtensionOptions) (id : Text) : Extension where
  id := id
  lexer := options.lexer.elim (.own id) .host
  aliases := options.aliases.getD (Language.aliases.map .text)
  contentType := options.contentType.getD (.text Language.contentType)
  heldModes := []
  heldContentTypes := []
  loaded := false

def makeExtension (id : Text) (options : ExtensionOptions) : Action Unit := do
  let s ← get
  if s.attached then
    set {s with extensions := s.extensions ++ [options.extension id]}
  else throw .nothingToExtend

end LittleMan.Session
