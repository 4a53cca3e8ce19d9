import LittleMan.Proofs.Stages

/-! Whatever is done in a session, what happens to its callbacks goes through the stages in order, and the session
shows which stage it has come to. -/
namespace LittleMan.Session

def announced (s : Session) : Session :=
  {s with ready := true, pending := [], notices := s.notices ++ [.ready s.pending.length]}

def Stage.Fits : Stage → Session → Prop
  | .waiting callbacks, s => s.ready = false ∧ s.pending = callbacks
  | .calling _, s => s.ready = true ∧ s.pending = []
  | .answering _ _, _ => False

theorem Stage.fitsSame {stage : Stage} {s t : Session} (same : SameLayout s t) (fits : stage.Fits s) :
    stage.Fits t := by
  cases stage with
  | waiting callbacks => exact ⟨same.ready.trans fits.1,same.pending.trans fits.2⟩
  | calling batch => exact ⟨same.ready.trans fits.1,same.pending.trans fits.2⟩
  | answering callback batch => exact fits

/- What happens leads to a stage that fits the session. Once the layout is announced it leads back to where it
started, so nothing is taken from the batch but by the announcement itself. -/
def Goes (stage : Stage) (events : List Event) (s : Session) : Prop :=
  ∃ next, stage.course events = some next ∧ next.Fits s ∧ ∀ batch, stage = .calling batch → next = stage

namespace Watched
variable {α β : Type} {host : Host} {programs : Text → List Op} {invoke : Callback → Watched Unit}
  {s t : Session} {stage : Stage} {events more : List Event} {c : Callback}

theorem goesNothing (fits : stage.Fits s) : Goes stage [] s := ⟨stage,rfl,fits,fun _ _ => rfl⟩

theorem goesTrans (first : Goes stage events s) (second : ∀ next : Stage, next.Fits s → Goes next more t) :
    Goes stage (events ++ more) t := by
  obtain ⟨next,runs,fits,stays⟩ := first
  obtain ⟨last,runsOn,fitsLast,staysOn⟩ := second next fits
  refine ⟨last,?_,fitsLast,fun batch calling => ?_⟩
  · rw [Stage.courseAppend, runs, Option.bind_some, runsOn]
  · have kept := stays batch calling
    exact (staysOn batch (kept.trans calling)).trans kept

theorem goesDropped (fits : stage.Fits s) (ready : t.ready = s.ready) (pending : t.pending = s.pending.erase c) :
    Goes stage [.dropped c] t := by
  cases stage with
  | waiting callbacks =>
    obtain ⟨unready,rfl⟩ := fits
    exact ⟨.waiting (s.pending.erase c),rfl,⟨ready.trans unready,pending⟩,fun _ same => by cases same⟩
  | calling batch =>
    refine ⟨.calling batch,rfl,⟨ready.trans fits.1,?_⟩,fun _ _ => rfl⟩
    rw [pending, fits.2, List.erase_nil]
  | answering callback batch => exact fits.elim

def Follows (a : Watched α) : Prop := ∀ stage s, stage.Fits s → Goes stage (a s).1 (left (a s).2)

theorem readBind (f : Session → Watched β) (s : Session) : (still get >>= f) s = f s s := rfl

theorem noteBind (event : Event) (a : Unit → Watched β) (s : Session) :
    (note event >>= a) s = (event :: (a () s).1,(a () s).2) := rfl

theorem followsPure (answer : α) : Follows (Pure.pure answer : Watched α) := fun _ _ fits => goesNothing fits

theorem followsStill {a : Action α} (same : Within SameLayout a) : Follows (still a) :=
  fun _ s fits => goesNothing (Stage.fitsSame (same s) fits)

theorem followsBind {a : Watched α} {f : α → Watched β} (first : Follows a) (next : ∀ answer, Follows (f answer)) :
    Follows (a >>= f) := by
  intro stage s fits
  have begun := first stage s fits
  show Goes stage (bind a f s).1 (left (bind a f s).2)
  rw [bind]
  cases ran : a s with
  | mk events outcome =>
    rw [ran] at begun
    cases outcome with
    | ok answer t => exact goesTrans begun fun later fits => next answer later t fits
    | error e t => exact begun

theorem followsMap {a : Watched α} (first : Follows a) (f : α → β) : Follows (do return f (← a)) :=
  followsBind first fun _ => followsPure _

def Answers (invoke : Callback → Watched Unit) : Prop :=
  ∀ c, ∃ rest : Watched Unit, (invoke c = do note (.invoked c); rest) ∧ Follows rest

theorem whenReadyFollows (answers : Answers invoke) (c : Callback) : Follows (whenReady invoke c) := by
  intro stage s fits
  obtain ⟨rest,invokes,follows⟩ := answers c
  rw [whenReady, noteBind, readBind]
  cases stage with
  | waiting callbacks =>
    obtain ⟨unready,rfl⟩ := fits
    rw [if_neg (Bool.eq_false_iff.mp unready)]
    by_cases there : c ∈ s.pending
    · have waits : (Stage.waiting s.pending).after (.registered c) = some (.waiting s.pending) :=
        congrArg (fun callbacks => some (Stage.waiting callbacks)) (if_pos there)
      rw [if_pos there]
      exact ⟨_,Stage.courseStep waits [],⟨unready,rfl⟩,fun _ same => by cases same⟩
    · have waits : (Stage.waiting s.pending).after (.registered c) = some (.waiting (s.pending ++ [c])) :=
        congrArg (fun callbacks => some (Stage.waiting callbacks)) (if_neg there)
      rw [if_neg there]
      exact ⟨_,Stage.courseStep waits [],⟨unready,rfl⟩,fun _ same => by cases same⟩
  | calling batch =>
    rw [if_pos fits.1, invokes, noteBind]
    obtain ⟨next,runs,after,stays⟩ := follows (.calling batch) s fits
    refine ⟨next,?_,after,fun _ _ => stays batch rfl⟩
    have answered : (Stage.answering c batch).after (.invoked c) = some (.calling batch) := if_pos rfl
    rw [Stage.courseStep rfl, Stage.courseStep answered]
    exact runs
  | answering callback batch => exact fits.elim

theorem cancelReadyFollows (c : Callback) : Follows (cancelReady c) :=
  fun _ _ fits => goesDropped fits rfl rfl

theorem refreshWhenReadyFollows (host : Host) (id : Text) : Follows (refreshWhenReady host id) :=
  followsBind (cancelReadyFollows _) fun _ =>
    followsMap (followsStill fun s => (refreshShownViews host id s).toSameLayout) fun _ => ()

theorem invokeAllCalls (answers : Answers invoke) (batch : List Callback) (fits : (Stage.calling batch).Fits s) :
    ∃ called lost, batch = called ++ lost ∧
      (Stage.calling batch).course (invokeAll invoke batch s).1 = some (.calling lost) ∧
      (Stage.calling lost).Fits (left (invokeAll invoke batch s).2) ∧
      ((∃ t, (invokeAll invoke batch s).2 = .ok () t) ∧ lost = [] ∨
        ∃ before c u e t, called = before ++ [c] ∧ (invokeAll invoke batch s).2 = .error e t ∧
          (invoke c u).2 = .error e t) := by
  induction batch generalizing s with
  | nil => exact ⟨[],[],rfl,rfl,fits,.inl ⟨⟨s,rfl⟩,rfl⟩⟩
  | cons c more ih =>
    obtain ⟨rest,invokes,follows⟩ := answers c
    obtain ⟨next,runs,after,stays⟩ := follows (.calling more) s fits
    cases stays more rfl
    have taken : (Stage.calling (c :: more)).after (.invoked c) = some (.calling more) := if_pos rfl
    have begun : (Stage.calling (c :: more)).course (invoke c s).1 = some (.calling more) := by
      rw [invokes, noteBind, Stage.courseStep taken]
      exact runs
    have ends : (invoke c s).2 = (rest s).2 := by rw [invokes, noteBind]
    rw [← ends] at after
    have opened : invokeAll invoke (c :: more) s = bind (invoke c) (fun _ => invokeAll invoke more) s := rfl
    rw [opened, bind]
    cases ran : invoke c s with
    | mk events outcome =>
      rw [ran] at begun after
      cases outcome with
      | error e t =>
        exact ⟨[c],more,rfl,begun,after,.inr ⟨[],c,s,e,t,rfl,rfl,by rw [ran]⟩⟩
      | ok answer t =>
        obtain ⟨called,lost,rfl,runsOn,fitsLast,stops⟩ := ih (s := t) after
        refine ⟨c :: called,lost,rfl,?_,fitsLast,?_⟩
        · rw [Stage.courseAppend, begun, Option.bind_some]
          exact runsOn
        · rcases stops with done | ⟨before,d,u,e,v,rfl,failed,cause⟩
          · exact .inl done
          · exact .inr ⟨c :: before,d,u,e,v,rfl,failed,cause⟩

theorem becomeReadyOpens (unready : s.ready = false) :
    becomeReady invoke s = (.announced :: (invokeAll invoke s.pending s.announced).1,
      (invokeAll invoke s.pending s.announced).2) := by
  rw [becomeReady, readBind, if_neg (Bool.eq_false_iff.mp unready)]
  rfl

theorem becomeReadyFollows (answers : Answers invoke) : Follows (becomeReady invoke) := by
  intro stage s fits
  cases stage with
  | waiting callbacks =>
    obtain ⟨unready,rfl⟩ := fits
    obtain ⟨called,lost,_,runs,after,_⟩ := invokeAllCalls answers s.pending (s := s.announced) ⟨rfl,rfl⟩
    rw [becomeReadyOpens unready]
    exact ⟨.calling lost,runs,after,fun _ same => by cases same⟩
  | calling batch =>
    rw [becomeReady, readBind, if_pos fits.1]
    exact goesNothing fits
  | answering callback batch => exact fits.elim

theorem loadFollows (answers : Answers invoke) (host : Host) (id : Text) : Follows (load host invoke id) := by
  intro stage s fits
  rw [load, readBind]
  cases s.extension? id with
  | none => exact goesNothing fits
  | some x =>
    dsimp only
    split
    · exact goesNothing fits
    · have marked : Within SameLayout (modify (·.withExtension id fun x => {x with loaded := true})) :=
        fun _ => ⟨rfl,rfl⟩
      exact followsBind (followsStill (installLayout host x))
        (fun _ => followsBind (followsStill marked) fun _ => whenReadyFollows answers _) stage s fits

theorem unloadFollows (host : Host) (id : Text) : Follows (unload host id) := by
  intro stage s fits
  rw [unload]
  cases found : s.extension? id with
  | none =>
    rw [unloadNothing host fun x there => by cases found.symm.trans there]
    exact goesNothing fits
  | some x =>
    obtain rfl := extensionNamed found
    cases loaded : x.loaded with
    | false =>
      rw [unloadNothing host fun y there => Option.some.inj (found.symm.trans there) ▸ loaded, Option.any_some, loaded]
      exact goesNothing fits
    | true =>
      obtain ⟨c,ns,_,ran⟩ := unloadRuns host found loaded
      rw [ran, Option.any_some, loaded, if_pos rfl]
      have same := (withinMap viewsOnlyComposes (refreshShownViews host x.id) (fun _ => ())
        {s.withExtension x.id unloaded with
          catalog := c, notices := ns, pending := s.pending.erase (.refresh x.id)}).toSameLayout
      exact goesDropped fits same.ready same.pending

theorem answerEachFollows {body : Watched (List Answer)} (follows : Follows body) (ids : List Text) :
    Follows (answerEach body ids) := by
  induction ids with
  | nil => exact followsPure _
  | cons id more ih => exact followsBind follows fun _ => followsMap ih _

theorem changeFollows (operation : Catalog → Except Failure Catalog.Change) :
    Follows (still (do return Answer.bool (← change operation))) :=
  followsStill (withinMap sameLayoutComposes (changeLayout operation) _)

theorem makeExtensionFollows (id : Text) (options : ExtensionOptions) :
    Follows (still (do makeExtension id options; return Answer.nothing)) := by
  refine followsStill (withinBind sameLayoutComposes (fun s => ?_) fun _ => sameLayoutComposes.refl)
  rw [makeExtension, bindRuns getRuns]
  split
  · exact ⟨rfl,rfl⟩
  · exact sameLayoutComposes.refl s

mutual

theorem performFollows (answers : Answers invoke) (host : Host) : ∀ op : Op, Follows (perform host invoke op)
  | .load id => by
    rw [perform]
    exact followsMap (loadFollows answers host id) fun _ => Answer.nothing
  | .unload id => by
    rw [perform]
    exact followsMap (unloadFollows host id) fun _ => Answer.nothing
  | .eachView ops => by
    rw [perform]
    refine followsBind (followsStill sameLayoutComposes.refl) fun s => ?_
    exact followsMap (answerEachFollows (performAllFollows answers host ops) s.shown) Answer.each
  | .whenReady callback => by
    rw [perform]
    exact followsMap (whenReadyFollows answers (.user callback)) fun _ => Answer.nothing
  | .cancelReady callback => by
    rw [perform]
    exact followsMap (cancelReadyFollows (.user callback)) fun _ => Answer.nothing
  | .becomeReady => by
    rw [perform]
    exact followsMap (becomeReadyFollows answers) fun _ => Answer.nothing
  | .insertMode _ _ _ | .eraseMode _ _ | .insertContentType _ _ _ | .eraseContentType _ _ => by
    simp only [perform, Session.perform]
    exact changeFollows _
  | .makeExtension id options => by
    simp only [perform, Session.perform]
    exact makeExtensionFollows id options
  | .lookUp _ | .modeFor _ | .holder _ | .target _ | .contains _ | .size | .refresh _ | .showView _ _ _
  | .detachedView _ _ _ | .hideView _ | .switchMode _ _ | .setText _ _ | .passOver _ | .tokens _ | .display _ =>
    followsStill fun s => (performViews _ rfl s).toSameLayout

theorem performAllFollows (answers : Answers invoke) (host : Host) :
    ∀ ops : List Op, Follows (performAll host invoke ops)
  | [] => by
    rw [performAll]
    exact followsPure _
  | op :: more => by
    rw [performAll]
    exact followsBind (performFollows answers host op) fun _ =>
      followsMap (performAllFollows answers host more) _

end

theorem performCallFollows (answers : Answers invoke) (host : Host) (index : Nat) (ops : List Op) :
    Follows (performCall host invoke index ops) := by
  induction ops with
  | nil => exact followsPure _
  | cons op more ih =>
    exact followsBind (performFollows answers host op) fun answer =>
      followsBind (followsStill fun s => (addAnswerViews index answer s).toSameLayout) fun _ => ih

theorem invokeAnswers (host : Host) (programs : Text → List Op) (depth : Nat) :
    Answers (invokeWithin host programs depth) := by
  induction depth with
  | zero =>
    intro c
    cases c with
    | refresh id => exact ⟨_,by rw [invokeWithin],refreshWhenReadyFollows host id⟩
    | user id =>
      refine ⟨_,by rw [invokeWithin],followsStill ?_⟩
      exact sameLayoutComposes.refl
  | succ depth ih =>
    intro c
    cases c with
    | refresh id => exact ⟨_,by rw [invokeWithin],refreshWhenReadyFollows host id⟩
    | user id =>
      refine ⟨_,by rw [invokeWithin],?_⟩
      refine followsBind (followsStill sameLayoutComposes.refl) fun s => ?_
      exact followsBind (followsStill fun _ => ⟨rfl,rfl⟩) fun _ =>
        performCallFollows ih host s.calls.length (programs id)

end Watched

variable {host : Host} {programs : Text → List Op} {stage : Stage} {s : Session} {ops : List Op}

theorem watchedLeft (host : Host) (programs : Text → List Op) (s : Session) (op : Op) :
    (step host programs s op).2 = left (Watched.perform host (Watched.invoke host programs) op s.afresh).2 := by
  rw [stepLeft, ← Watched.watchedPerforms]
  rfl

theorem stepGoes (host : Host) (programs : Text → List Op) (fits : stage.Fits s) (op : Op) :
    Goes stage (happenings host programs s op) (step host programs s op).2 := by
  have same : SameLayout s s.afresh := ⟨rfl,rfl⟩
  rw [watchedLeft]
  exact Watched.performFollows (Watched.invokeAnswers host programs depthLimit) host op stage s.afresh
    (Stage.fitsSame same fits)

theorem recordGoes (host : Host) (programs : Text → List Op) (fits : stage.Fits s) (ops : List Op) :
    ∃ last, stage.course (record host programs s ops) = some last ∧
      ∀ batch, stage = .calling batch → last = stage := by
  induction ops generalizing stage s with
  | nil => exact ⟨stage,rfl,fun _ _ => rfl⟩
  | cons op more ih =>
    obtain ⟨next,runs,after,stays⟩ := stepGoes host programs fits op
    obtain ⟨last,runsOn,staysOn⟩ := ih after
    refine ⟨last,?_,fun batch calling => ?_⟩
    · rw [record, Stage.courseAppend, runs, Option.bind_some]
      exact runsOn
    · have kept := stays batch calling
      exact (staysOn batch (kept.trans calling)).trans kept

end LittleMan.Session
