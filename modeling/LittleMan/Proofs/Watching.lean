import LittleMan.Proofs.Effects

/-! Sessions watched: what is done about callbacks is written down in the order in which it happens, also within
the callbacks themselves and also where they fail. Watching changes nothing about what is done. -/
namespace LittleMan.Session

/- What happens to callbacks. A callback that is registered once the layout is ready is invoked at once. -/
inductive Event where
  | registered (callback : Callback)
  | dropped (callback : Callback)
  | announced
  | invoked (callback : Callback)
  deriving DecidableEq, Repr

def Watched (α : Type) := Session → List Event × EStateM.Result Failure Session α

namespace Watched
variable {α β : Type} {host : Host} {programs : Text → List Op} {s : Session}

def pure (answer : α) : Watched α := fun s => ([],.ok answer s)

def bind (a : Watched α) (f : α → Watched β) : Watched β := fun s =>
  match a s with
  | (events,.ok answer t) => (events ++ (f answer t).1,(f answer t).2)
  | (events,.error e t) => (events,.error e t)

instance : Monad Watched where
  pure := pure
  bind := bind

def still (a : Action α) : Watched α := fun s => ([],a s)

def note (event : Event) : Watched Unit := fun s => ([event],.ok () s)

def whenReady (invoke : Callback → Watched Unit) (callback : Callback) : Watched Unit := do
  note (.registered callback)
  let s ← still get
  if s.ready then invoke callback
  else if callback ∈ s.pending then return
  else still (set {s with pending := s.pending ++ [callback]})

def cancelReady (callback : Callback) : Watched Unit := do
  note (.dropped callback)
  still (Session.cancelReady callback)

def invokeAll (invoke : Callback → Watched Unit) : List Callback → Watched Unit
  | [] => return
  | callback :: more => do
    invoke callback
    invokeAll invoke more

def becomeReady (invoke : Callback → Watched Unit) : Watched Unit := do
  let s ← still get
  if s.ready then return
  else
    note .announced
    still (set {s with ready := true, pending := []})
    still (tell (.ready s.pending.length))
    invokeAll invoke s.pending

def refreshWhenReady (host : Host) (id : Text) : Watched Unit := do
  cancelReady (.refresh id)
  let _ ← still (refreshShown host id)

def load (host : Host) (invoke : Callback → Watched Unit) (id : Text) : Watched Unit := do
  match (← still get).extension? id with
  | none => return
  | some x =>
    if x.loaded then return
    else
      still (install host x)
      still (modify (·.withExtension id fun x => {x with loaded := true}))
      whenReady invoke (.refresh id)

def unload (host : Host) (id : Text) : Watched Unit := fun s =>
  (if (s.extension? id).any (·.loaded) then [.dropped (.refresh id)] else [],Session.unload host id s)

def answerEach (body : Watched (List Answer)) : List Text → Watched (List (Text × List Answer))
  | [] => return []
  | id :: more => do
    let answers ← body
    let others ← answerEach body more
    return (id,answers) :: others

mutual

def perform (host : Host) (invoke : Callback → Watched Unit) : Op → Watched Answer
  | .load id => do load host invoke id; return .nothing
  | .unload id => do unload host id; return .nothing
  | .eachView ops => do
    let body := performAll host invoke ops
    return .each (← answerEach body (← still get).shown)
  | .whenReady callback => do whenReady invoke (.user callback); return .nothing
  | .cancelReady callback => do cancelReady (.user callback); return .nothing
  | .becomeReady => do becomeReady invoke; return .nothing
  | op => still (Session.perform host (fun _ => EStateM.pure ()) op)

def performAll (host : Host) (invoke : Callback → Watched Unit) : List Op → Watched (List Answer)
  | [] => return []
  | op :: more => do
    let answer ← perform host invoke op
    let others ← performAll host invoke more
    return answer :: others

end

def performCall (host : Host) (invoke : Callback → Watched Unit) (index : Nat) : List Op → Watched Unit
  | [] => return
  | op :: more => do
    let answer ← perform host invoke op
    still (addAnswer index answer)
    performCall host invoke index more

def invokeWithin (host : Host) (programs : Text → List Op) : (depth : Nat) → Callback → Watched Unit
  | _, .refresh id => do
    note (.invoked (.refresh id))
    refreshWhenReady host id
  | 0, .user id => do
    note (.invoked (.user id))
    still (throw .depth)
  | depth + 1, .user id => do
    note (.invoked (.user id))
    let index := (← still get).calls.length
    still (modify fun s => {s with calls := s.calls ++ [⟨id,[]⟩]})
    performCall host (invokeWithin host programs depth) index (programs id)

def invoke (host : Host) (programs : Text → List Op) : Callback → Watched Unit :=
  invokeWithin host programs depthLimit

def unwatched (a : Watched α) : Action α := fun s => (a s).2

theorem unwatchedBind (a : Watched α) (f : α → Watched β) :
    unwatched (a >>= f) = unwatched a >>= fun answer => unwatched (f answer) := by
  funext s
  show (bind a f s).2 = EStateM.bind (unwatched a) (fun answer => unwatched (f answer)) s
  rw [bind, EStateM.bind, unwatched]
  cases a s with
  | mk events outcome =>
    cases outcome with
    | ok answer t => rfl
    | error e t => rfl

theorem unwatchedPure (answer : α) : unwatched (Pure.pure answer : Watched α) = Pure.pure answer := rfl

theorem unwatchedStill (a : Action α) : unwatched (still a) = a := rfl

theorem unwatchedNote (event : Event) : unwatched (note event) = Pure.pure () := rfl

theorem unwatchedIf {condition : Prop} [Decidable condition] (a b : Watched α) :
    unwatched (if condition then a else b) = if condition then unwatched a else unwatched b :=
  apply_ite unwatched condition a b

theorem unwatchedWhenReady (invoke : Callback → Watched Unit) (callback : Callback) :
    unwatched (whenReady invoke callback) = Session.whenReady (fun c => unwatched (invoke c)) callback := by
  simp only [whenReady, unwatchedNote, unwatchedBind, unwatchedIf, unwatchedStill, unwatchedPure, pure_bind,
    Session.whenReady]

theorem unwatchedCancelReady (callback : Callback) :
    unwatched (cancelReady callback) = Session.cancelReady callback := rfl

theorem unwatchedInvokeAll (invoke : Callback → Watched Unit) (callbacks : List Callback) :
    unwatched (invokeAll invoke callbacks) = Session.invokeAll (fun c => unwatched (invoke c)) callbacks := by
  induction callbacks with
  | nil => rfl
  | cons callback more ih => rw [invokeAll, unwatchedBind, ih, Session.invokeAll]

theorem unwatchedBecomeReady (invoke : Callback → Watched Unit) :
    unwatched (becomeReady invoke) = Session.becomeReady fun c => unwatched (invoke c) := by
  simp only [becomeReady, unwatchedNote, unwatchedBind, unwatchedIf, unwatchedStill, unwatchedPure,
    unwatchedInvokeAll, pure_bind, Session.becomeReady]

theorem unwatchedRefreshWhenReady (host : Host) (id : Text) :
    unwatched (refreshWhenReady host id) = Session.refreshWhenReady host id := by
  simp only [refreshWhenReady, unwatchedBind, unwatchedCancelReady, unwatchedStill, unwatchedPure,
    Session.refreshWhenReady]

theorem unwatchedLoad (host : Host) (invoke : Callback → Watched Unit) (id : Text) :
    unwatched (load host invoke id) = Session.load host (fun c => unwatched (invoke c)) id := by
  rw [load, unwatchedBind, Session.load, unwatchedStill]
  congr 1
  funext s
  cases s.extension? id with
  | none => rfl
  | some x => simp only [unwatchedIf, unwatchedBind, unwatchedStill, unwatchedPure, unwatchedWhenReady]

theorem unwatchedAnswerEach (body : Watched (List Answer)) (ids : List Text) :
    unwatched (answerEach body ids) = Session.answerEach (unwatched body) ids := by
  induction ids with
  | nil => rfl
  | cons id more ih => simp only [answerEach, unwatchedBind, ih, unwatchedPure, Session.answerEach]

mutual

theorem unwatchedPerform (host : Host) (invoke : Callback → Watched Unit) :
    ∀ op : Op, unwatched (perform host invoke op) = Session.perform host (fun c => unwatched (invoke c)) op
  | .load id => by
    rw [perform, unwatchedBind, unwatchedLoad, Session.perform]
    rfl
  | .unload id => by
    rw [perform, unwatchedBind, Session.perform]
    rfl
  | .eachView ops => by
    simp only [perform, unwatchedBind, unwatchedStill, unwatchedAnswerEach, unwatchedPure, Session.perform,
      unwatchedPerformAll host invoke ops]
  | .whenReady callback => by
    rw [perform, unwatchedBind, unwatchedWhenReady, Session.perform]
    rfl
  | .cancelReady callback => by
    rw [perform, unwatchedBind, unwatchedCancelReady, Session.perform]
    rfl
  | .becomeReady => by
    rw [perform, unwatchedBind, unwatchedBecomeReady, Session.perform]
    rfl
  | .insertMode _ _ _ | .eraseMode _ _ | .insertContentType _ _ _ | .eraseContentType _ _ | .lookUp _ | .modeFor _
  | .holder _ | .target _ | .contains _ | .size | .makeExtension _ _ | .refresh _ | .showView _ _ _
  | .detachedView _ _ _ | .hideView _ | .switchMode _ _ | .setText _ _ | .passOver _ | .tokens _ | .display _ => by
    simp only [perform, unwatchedStill, Session.perform]

theorem unwatchedPerformAll (host : Host) (invoke : Callback → Watched Unit) :
    ∀ ops : List Op, unwatched (performAll host invoke ops) =
      Session.performAll host (fun c => unwatched (invoke c)) ops
  | [] => by
    rw [performAll, Session.performAll]
    rfl
  | op :: more => by
    simp only [performAll, unwatchedBind, unwatchedPure, Session.performAll, unwatchedPerform host invoke op,
      unwatchedPerformAll host invoke more]

end

theorem unwatchedPerformCall (host : Host) (invoke : Callback → Watched Unit) (index : Nat) (ops : List Op) :
    unwatched (performCall host invoke index ops) =
      Session.performCall host (fun c => unwatched (invoke c)) index ops := by
  induction ops with
  | nil => rfl
  | cons op more ih =>
    simp only [performCall, unwatchedBind, unwatchedStill, unwatchedPerform, ih, Session.performCall]

theorem unwatchedInvoke (host : Host) (programs : Text → List Op) (depth : Nat) :
    (fun callback => unwatched (invokeWithin host programs depth callback)) =
      Session.invokeWithin host programs depth := by
  induction depth with
  | zero =>
    funext callback
    cases callback with
    | refresh id =>
      simp only [invokeWithin, unwatchedNote, unwatchedBind, unwatchedRefreshWhenReady, pure_bind,
        Session.invokeWithin]
    | user id => rfl
  | succ depth ih =>
    funext callback
    cases callback with
    | refresh id =>
      simp only [invokeWithin, unwatchedNote, unwatchedBind, unwatchedRefreshWhenReady, pure_bind,
        Session.invokeWithin]
    | user id =>
      simp only [invokeWithin, unwatchedNote, unwatchedBind, unwatchedStill, unwatchedPerformCall, ih, pure_bind,
        Session.invokeWithin]

theorem watchedPerforms (host : Host) (programs : Text → List Op) (op : Op) :
    unwatched (perform host (invoke host programs) op) = Session.perform host (Session.invoke host programs) op := by
  rw [unwatchedPerform]
  exact congrArg (Session.perform host · op) (unwatchedInvoke host programs depthLimit)

end Watched

def happenings (host : Host) (programs : Text → List Op) (s : Session) (op : Op) : List Event :=
  (Watched.perform host (Watched.invoke host programs) op s.afresh).1

def record (host : Host) (programs : Text → List Op) (s : Session) : List Op → List Event
  | [] => []
  | op :: more =>
    happenings host programs s op ++ record host programs (step host programs s op).2 more

end LittleMan.Session
