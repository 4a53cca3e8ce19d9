import LittleMan.Proofs.Following

/-! What an announcement of the layout makes of the callbacks that wait for it. It calls them in turn, whatever is
dropped meanwhile, and the first that fails is the last that it calls; those behind it are never called. -/
namespace LittleMan.Session
variable {s : Session} {c : Callback}

theorem droppedThenInvoked (host : Host) (programs : Text → List Op) (attached : Bool) (ops : List Op)
    {before between after : List Event}
    (recorded : record host programs (.start attached) ops = before ++ .dropped c :: (between ++ .invoked c :: after))
    (unregistered : .registered c ∉ between) :
    ∃ early late, before = early ++ .announced :: late ∧
      (∃ first later, early = first ++ .registered c :: later ∧ .dropped c ∉ later) ∧
      late.count (.invoked c) = late.count (.registered c) := by
  have fits : (Stage.waiting []).Fits (.start attached) := ⟨rfl,rfl⟩
  obtain ⟨last,runs,_⟩ := recordGoes host programs fits ops
  rw [recorded] at runs
  obtain ⟨stage,ranBefore,runs⟩ := Stage.courseSplits runs
  obtain ⟨next,dropped,runs⟩ := Stage.courseOpens runs
  obtain ⟨calling,ranBetween,runs⟩ := Stage.courseSplits runs
  obtain ⟨_,invoked,_⟩ := Stage.courseOpens runs
  -- Invoked without a registration, the callback was due from the drop on.
  have due : c ∈ next.due := by
    refine Decidable.byContradiction fun undue => ?_
    obtain ⟨_,undue⟩ := Stage.courseUndue ranBetween undue unregistered
    exact (Stage.afterUndue invoked undue nofun).1 rfl
  cases stage with
  | answering callback batch => contradiction
  | waiting callbacks =>
    cases Option.some.inj dropped
    have once := (Stage.courseWaits ranBefore List.nodup_nil).1
    exact absurd due once.not_mem_erase
  | calling batch =>
    cases Option.some.inj dropped
    obtain ⟨early,late,waited,rfl,ranEarly,ranLate⟩ := Stage.courseAnnounced ranBefore
    obtain ⟨once,waits⟩ := Stage.courseWaits ranEarly List.nodup_nil
    obtain ⟨called,rfl,counts⟩ := Stage.courseCalls ranLate
    have uncalled : called.count c = 0 :=
      List.count_eq_zero.mpr fun inside => (List.nodup_append.mp once).2.2 c inside c due rfl
    refine ⟨early,late,rfl,?_,(counts c).trans (by rw [uncalled, Nat.add_zero])⟩
    exact (waits c (List.mem_append_right called due)).resolve_left fun there => List.not_mem_nil there.1

theorem droppedThenInvokedRefresh :
    let programs : Text → List Op := fun id => if id = "a".toList then [.unload "p".toList] else []
    let ops : List Op :=
      [.makeExtension "p".toList ⟨none,none,none⟩,.whenReady "a".toList,.load "p".toList,.becomeReady]
    let refresh := Callback.refresh "p".toList
    ∃ before after, record ⟨fun _ => Mode.lexer,.standard⟩ programs (.start true) ops =
        before ++ .dropped refresh :: ([] ++ .invoked refresh :: after) ∧
      ∃ early late, before = early ++ .announced :: late ∧
        (∃ first later, early = first ++ .registered refresh :: later ∧ .dropped refresh ∉ later) ∧
        late.count (.invoked refresh) = late.count (.registered refresh) := by
  intro programs ops refresh
  have recorded : record ⟨fun _ => Mode.lexer,.standard⟩ programs (.start true) ops =
      [.registered (.user "a".toList),.registered refresh,.announced,.invoked (.user "a".toList)] ++
        .dropped refresh :: ([] ++ .invoked refresh :: [.dropped refresh]) := by decide +kernel
  exact ⟨_,_,recorded,droppedThenInvoked _ programs true ops recorded List.not_mem_nil⟩

theorem droppedStillInvoked :
    let programs : Text → List Op := fun id => if id = "a".toList then [.cancelReady "b".toList] else []
    let a := Callback.user "a".toList
    let b := Callback.user "b".toList
    let host : Host := ⟨fun _ => Mode.lexer,.standard⟩
    let ops : List Op := [.whenReady "a".toList,.whenReady "b".toList,.becomeReady]
    record host programs (.start true) ops =
        [.registered a,.registered b,.announced,.invoked a,.dropped b,.invoked b] ∧
      (run host programs (.start true) ops).getLast?.map (·.2.calls.map (·.callback)) =
        some ["a".toList,"b".toList] := by
  decide +kernel

theorem stepWatched (host : Host) (programs : Text → List Op) (s : Session) (op : Op) :
    step host programs s op = match (Watched.perform host (Watched.invoke host programs) op s.afresh).2 with
      | .ok answer t => (.ok answer,t)
      | .error e t => (.error e,t) := by
  have same : (Watched.perform host (Watched.invoke host programs) op s.afresh).2 =
      perform host (invoke host programs) op s.afresh :=
    congrFun (Watched.watchedPerforms host programs op) s.afresh
  rw [same]
  rfl

theorem announcementWatched {host : Host} {programs : Text → List Op} {events : List Event}
    {outcome : EStateM.Result Failure Session Unit} (unready : s.ready = false)
    (ran : Watched.invokeAll (Watched.invoke host programs) s.pending s.afresh.announced = (events,outcome)) :
    happenings host programs s .becomeReady = .announced :: events ∧
      step host programs s .becomeReady = match outcome with
        | .ok _ t => (.ok .nothing,t)
        | .error e t => (.error e,t) := by
  have begun : Watched.becomeReady (Watched.invoke host programs) s.afresh = (.announced :: events,outcome) :=
    (Watched.becomeReadyOpens (s := s.afresh) unready).trans
      (congrArg (fun seen => (Event.announced :: seen.1,seen.2)) ran)
  have performed : Watched.perform host (Watched.invoke host programs) .becomeReady s.afresh =
      Watched.bind (Watched.becomeReady (Watched.invoke host programs)) (fun _ => Watched.pure .nothing) s.afresh := by
    rw [Watched.perform]
    rfl
  rw [Watched.bind, begun] at performed
  rw [happenings, stepWatched, performed]
  cases outcome with
  | ok _ t => exact ⟨congrArg (List.cons Event.announced) (List.append_nil events),rfl⟩
  | error e t => exact ⟨rfl,rfl⟩

theorem announcementCalls (host : Host) (programs : Text → List Op) (unready : s.ready = false) :
    ∃ called lost, s.pending = called ++ lost ∧
      (∀ c, (happenings host programs s .becomeReady).count (.invoked c) =
        (happenings host programs s .becomeReady).count (.registered c) + called.count c) ∧
      ((step host programs s .becomeReady).1 = .ok .nothing ∧ lost = [] ∨
        ∃ before c u e t, called = before ++ [c] ∧ (step host programs s .becomeReady).1 = .error e ∧
          invoke host programs c u = .error e t) ∧
      ∀ ops c, (record host programs (step host programs s .becomeReady).2 ops).count (.invoked c) =
        (record host programs (step host programs s .becomeReady).2 ops).count (.registered c) := by
  have answers : Watched.Answers (Watched.invoke host programs) := Watched.invokeAnswers host programs depthLimit
  obtain ⟨called,lost,whole,runs,fits,stops⟩ :=
    Watched.invokeAllCalls answers s.pending (s := s.afresh.announced) ⟨rfl,rfl⟩
  cases ran : Watched.invokeAll (Watched.invoke host programs) s.pending s.afresh.announced with
  | mk events outcome =>
    obtain ⟨happens,steps⟩ := announcementWatched unready ran
    rw [ran] at runs fits stops
    have settled : (Stage.calling lost).Fits (step host programs s .becomeReady).2 := by
      rw [steps]
      cases outcome <;> exact fits
    refine ⟨called,lost,whole,fun c => ?_,?_,fun ops c => ?_⟩
    · obtain ⟨same,cut,counts⟩ := Stage.courseCalls runs
      cases List.append_cancel_right (cut.symm.trans whole)
      rw [happens]
      simp only [List.count_cons, beq_iff_eq, reduceCtorEq, if_false, Nat.add_zero]
      exact counts c
    · rcases stops with ⟨⟨t,rfl⟩,none⟩ | ⟨before,c,u,e,t,last,rfl,cause⟩
      · exact .inl ⟨by rw [steps],none⟩
      · have invoked : Watched.unwatched (Watched.invoke host programs c) u = invoke host programs c u :=
          congrFun (congrFun (Watched.unwatchedInvoke host programs depthLimit) c) u
        exact .inr ⟨before,c,u,e,t,last,by rw [steps],invoked.symm.trans cause⟩
    · obtain ⟨stage,course,stays⟩ := recordGoes host programs settled ops
      rw [stays lost rfl] at course
      exact Stage.courseStays course c

theorem announcementCallsFirst :
    let host : Host := ⟨fun _ => Mode.lexer,.standard⟩
    let programs : Text → List Op := fun id => if id = "a".toList then [.insertMode (.text []) [] .host] else []
    let s : Session := {Session.start true with pending := [.user "a".toList,.user "b".toList]}
    s.ready = false ∧ ∃ called lost, s.pending = called ++ lost ∧
      ∀ c, (happenings host programs s .becomeReady).count (.invoked c) =
        (happenings host programs s .becomeReady).count (.registered c) + called.count c := by
  intro host programs s
  obtain ⟨called,lost,whole,counts,_⟩ := announcementCalls (s := s) host programs rfl
  exact ⟨rfl,called,lost,whole,counts⟩

theorem announcementLosesSecond :
    let programs : Text → List Op := fun id => if id = "a".toList then [.insertMode (.text []) [] .host] else []
    let a := Callback.user "a".toList
    let b := Callback.user "b".toList
    let host : Host := ⟨fun _ => Mode.lexer,.standard⟩
    let ops : List Op := [.whenReady "a".toList,.whenReady "b".toList,.becomeReady]
    record host programs (.start true) ops = [.registered a,.registered b,.announced,.invoked a] ∧
      (run host programs (.start true) ops).getLast?.map (·.2.calls.map (·.callback)) = some ["a".toList] := by
  decide +kernel

end LittleMan.Session
