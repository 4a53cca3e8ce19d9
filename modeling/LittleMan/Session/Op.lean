import LittleMan.Session.Extension

/-! The operations of a session, and callbacks made of them. Callbacks may call one another through
readiness, so a session bounds how deep calls go; everything else is by recursion on operations. -/
namespace LittleMan.Session

inductive Op where
  | insertMode (name : Value) (mode : Text) (owner : Owner)
  | eraseMode (name : Value) (owner : Owner)
  | insertContentType (contentType name : Value) (owner : Owner)
  | eraseContentType (contentType : Value) (owner : Owner)
  | lookUp (name : Value)
  | modeFor (spec : Value)
  | holder (name : Value)
  | target (contentType : Value)
  | contains (name : Value)
  | size
  | makeExtension (id : Text) (options : ExtensionOptions)
  | load (id : Text)
  | unload (id : Text)
  | refresh (id : Text)
  | showView (id text : Text) (mode : Value)
  | detachedView (id text : Text) (mode : Value)
  | hideView (id : Text)
  | switchMode (id : Text) (mode : Value)
  | setText (id text : Text)
  | passOver (id : Text)
  | tokens (id : Text)
  | display (id : Text)
  | eachView (ops : List Op)
  | whenReady (callback : Text)
  | cancelReady (callback : Text)
  | becomeReady
  deriving Repr, Inhabited

def answerEach (body : Action (List Answer)) : List Text → Action (List (Text × List Answer))
  | [] => return []
  | id :: more => do
    let answers ← body
    let others ← answerEach body more
    return (id,answers) :: others

mutual

def perform (host : Host) (invoke : Callback → Action Unit) : Op → Action Answer
  | .insertMode name mode owner =>
    return .bool (← change fun c => c.insertMode host.mode name (.host mode) owner)
  | .eraseMode name owner => return .bool (← change fun c => c.eraseMode name owner)
  | .insertContentType contentType name owner =>
    return .bool (← change fun c => c.insertContentType contentType name owner)
  | .eraseContentType contentType owner =>
    return .bool (← change fun c => c.eraseContentType contentType owner)
  | .lookUp name => return .mode (← ask fun c => c.mode? name)
  | .modeFor spec => return .mode (← ask fun c => c.modeFor spec)
  | .holder name => return .owner (← ask fun c => c.holder name)
  | .target contentType => return .name (← ask fun c => c.target? contentType)
  | .contains name => return .bool (← ask fun c => c.contains name)
  | .size => return .count (← get).catalog.modes.length
  | .makeExtension id options => do makeExtension id options; return .nothing
  | .load id => do load host invoke id; return .nothing
  | .unload id => do unload host id; return .nothing
  | .refresh id => return .count (← refreshShown host id)
  | .showView id text mode => do showView host id text mode; return .nothing
  | .detachedView id text mode => do makeView host id text mode; return .nothing
  | .hideView id => do hideView id; return .nothing
  | .switchMode id mode => do switchMode host id mode; return .nothing
  | .setText id text => do setText id text; return .nothing
  | .passOver id => do passOver host id; return .nothing
  | .tokens id => return .tokens (((← get).view? id).elim [] (·.tokens))
  | .display id => return .text (((← get).view? id).elim [] View.display)
  | .eachView ops => do
    let body := performAll host invoke ops
    return .each (← answerEach body (← get).shown)
  | .whenReady callback => do whenReady invoke (.user callback); return .nothing
  | .cancelReady callback => do cancelReady (.user callback); return .nothing
  | .becomeReady => do becomeReady invoke; return .nothing

def performAll (host : Host) (invoke : Callback → Action Unit) : List Op → Action (List Answer)
  | [] => return []
  | op :: more => do
    let answer ← perform host invoke op
    let others ← performAll host invoke more
    return answer :: others

end

def addAnswer (index : Nat) (answer : Answer) : Action Unit :=
  modify fun s =>
    {s with calls := s.calls.modify index fun c => {c with answers := c.answers ++ [answer]}}

def performCall (host : Host) (invoke : Callback → Action Unit) (index : Nat) : List Op → Action Unit
  | [] => return
  | op :: more => do
    addAnswer index (← perform host invoke op)
    performCall host invoke index more

def invokeWithin (host : Host) (programs : Text → List Op) : (depth : Nat) → Callback → Action Unit
  | _, .refresh id => refreshWhenReady host id
  | 0, .user _ => throw .depth
  | depth + 1, .user id => do
    let index := (← get).calls.length
    modify fun s => {s with calls := s.calls ++ [⟨id,[]⟩]}
    performCall host (invokeWithin host programs depth) index (programs id)

/-- How deep calls may go; a chain of calls longer than this counts as endless. -/
def depthLimit : Nat := 10000

def invoke (host : Host) (programs : Text → List Op) : Callback → Action Unit :=
  invokeWithin host programs depthLimit

def step (host : Host) (programs : Text → List Op) (s : Session) (op : Op) : Except Failure Answer × Session :=
  match perform host (invoke host programs) op {s with notices := [], calls := []} with
  | .ok answer s => (.ok answer,s)
  | .error e s => (.error e,s)

def run (host : Host) (programs : Text → List Op) (s : Session) :
    List Op → List (Except Failure Answer × Session)
  | [] => []
  | op :: more => step host programs s op :: run host programs (step host programs s op).2 more

end LittleMan.Session
