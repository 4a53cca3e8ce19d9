import Mathlib.Data.List.Nodup
import LittleMan.Proofs.Holdings

/-! What waits for the layout. Until it is ready the refreshes that wait are those of the extensions that are
loaded, each of them once, and from then on nothing waits. Whatever is done keeps it so, in whatever way it ends;
callbacks are called only once the layout is ready, so they cannot come between a load and its refresh. -/
namespace LittleMan.Session
variable {host : Host} {invoke : Callback → Action Unit} {programs : Text → List Op} {s t : Session}
  {x : Extension} {id : Text}

def loads (s : Session) (id : Text) : Bool := (s.extension? id).any (·.loaded)

structure Poised (s : Session) : Prop where
  once : s.pending.Nodup
  called : s.ready = true → s.pending = []
  waiting : s.ready = false → ∀ id, .refresh id ∈ s.pending ↔ s.loads id = true

def Steady (s t : Session) : Prop := Poised s → Poised t ∧ (s.ready = true → t.ready = true)

/- What is promised of what happens after the announcement only. -/
def Late (s t : Session) : Prop := s.ready = true → Poised s → t.ready = true ∧ Poised t

theorem steadyComposes : Composes Steady where
  refl _ poised := ⟨poised,fun ready => ready⟩
  trans first second poised := by
    obtain ⟨between,kept⟩ := first poised
    obtain ⟨after,stays⟩ := second between
    exact ⟨after,fun ready => stays (kept ready)⟩

theorem lateComposes : Composes Late where
  refl _ ready poised := ⟨ready,poised⟩
  trans first second ready poised := by
    obtain ⟨between,kept⟩ := first ready poised
    exact second between kept

theorem Steady.late (steady : Steady s t) : Late s t := fun ready poised =>
  ⟨(steady poised).2 ready,(steady poised).1⟩

structure SameLoads (s t : Session) : Prop extends SameLayout s t where
  loads : ∀ id, t.loads id = s.loads id
  there : ∀ id, (s.extension? id).isSome → (t.extension? id).isSome

theorem sameLoadsComposes : Composes SameLoads :=
  ⟨fun _ => ⟨⟨rfl,rfl⟩,fun _ => rfl,fun _ there => there⟩,fun first second =>
    ⟨sameLayoutComposes.trans first.toSameLayout second.toSameLayout,
      fun id => (second.loads id).trans (first.loads id),fun id there => second.there id (first.there id there)⟩⟩

theorem SameLayout.loads (same : SameLayout s t) (extensions : t.extensions = s.extensions) : SameLoads s t := by
  have found (id : Text) : t.extension? id = s.extension? id := by rw [extension?, extensions, extension?]
  exact ⟨same,fun id => by rw [Session.loads, found, Session.loads],fun id there => found id ▸ there⟩

theorem SameLoads.steady (same : SameLoads s t) : Steady s t := by
  refine fun poised => ⟨⟨?_,fun ready => ?_,fun unready id => ?_⟩,fun ready => same.ready.trans ready⟩
  · exact same.pending ▸ poised.once
  · exact same.pending.trans (poised.called (same.ready.symm.trans ready))
  · rw [same.pending, same.loads]
    exact poised.waiting (same.ready.symm.trans unready) id

theorem ViewsOnly.loads (same : ViewsOnly s t) : SameLoads s t := same.toSameLayout.loads same.extensions

theorem loadsChanged {change : Extension → Extension} (kept : ∀ x, (change x).id = x.id) (other : Text) :
    (s.withExtension id change).loads other =
      (s.extension? other).any fun x => (if other = id then change x else x).loaded := by
  rw [loads, extensionChanged kept, Option.any_map]

theorem loadsMarked (there : (s.extension? id).isSome) (other : Text) :
    (s.withExtension id fun x => {x with loaded := true}).loads other = true ↔
      s.loads other = true ∨ other = id := by
  have kept : ∀ x : Extension, ({x with loaded := true} : Extension).id = x.id := fun _ => rfl
  rw [loadsChanged kept]
  by_cases own : other = id
  · obtain ⟨x,found⟩ := Option.isSome_iff_exists.mp there
    simp [own, found]
  · simp [own, loads]

theorem changeLoads (operation : Catalog → Except Failure Catalog.Change) : Within SameLoads (change operation) :=
  withinChange sameLoadsComposes fun _ _ _ => SameLayout.loads ⟨rfl,rfl⟩ rfl

theorem installLoads (host : Host) (x : Extension) : Within SameLoads (install host x) := by
  refine installWithin sameLoadsComposes (fun _ _ => changeLoads _) (fun _ => changeLoads _) (fun s modes types => ?_)
    fun _ _ => SameLayout.loads ⟨rfl,rfl⟩ rfl
  have lists := extensionChanged (s := s) (listingKeeps modes types) x.id
  refine ⟨⟨rfl,rfl⟩,fun id => ?_,fun id there => ?_⟩
  · rw [loadsChanged (listingKeeps modes types), loads]
    congr 1
    funext y
    split <;> rfl
  · rw [lists, Option.isSome_map]
    exact there

theorem makeExtensionLoads (id : Text) (options : ExtensionOptions) : Within SameLoads (makeExtension id options) := by
  intro s
  rw [makeExtension, bindRuns getRuns]
  split
  · have added := extensionAdded s (options.extension id)
    refine ⟨⟨rfl,rfl⟩,fun other => ?_,fun other there => ?_⟩
    · refine (congrArg (Option.any (·.loaded)) (added other)).trans ?_
      rw [loads]
      cases s.extension? other with
      | some x => rfl
      | none => split <;> rfl
    · refine (congrArg Option.isSome (added other)).trans ?_
      rw [Option.isSome_or, there, Bool.true_or]
  · exact sameLoadsComposes.refl s

theorem whenReadyCalls (ready : s.ready = true) (invoke : Callback → Action Unit) (callback : Callback) :
    whenReady invoke callback s = invoke callback s := by
  rw [whenReady, bindRuns getRuns, if_pos ready]

theorem whenReadyWaits (unready : s.ready = false) (invoke : Callback → Action Unit) (callback : Callback) :
    whenReady invoke callback s = .ok () (if callback ∈ s.pending then s else
      {s with pending := s.pending ++ [callback]}) := by
  rw [whenReady, bindRuns getRuns, if_neg (Bool.eq_false_iff.mp unready)]
  split <;> rfl

theorem Poised.waits {callback : Callback} (poised : Poised s) (unready : s.ready = false)
    (absent : callback ∉ s.pending) (pending : t.pending = s.pending ++ [callback]) (ready : t.ready = s.ready)
    (loads : ∀ id, t.loads id = true ↔ s.loads id = true ∨ .refresh id = callback) : Poised t := by
  refine ⟨?_,fun yes => ?_,fun _ id => ?_⟩
  · rw [pending, List.nodup_append]
    refine ⟨poised.once,List.pairwise_singleton _ callback,fun other inside last same => ?_⟩
    rw [List.mem_singleton] at same
    rintro rfl
    exact absent (same ▸ inside)
  · cases yes.symm.trans (ready.trans unready)
  · rw [pending, List.mem_append, List.mem_singleton, loads, poised.waiting unready]

theorem whenReadySteady (invoked : ∀ callback, Within Late (invoke callback)) (id : Text) :
    Within Steady (whenReady invoke (.user id)) := by
  intro s poised
  cases ready : s.ready with
  | true =>
    rw [whenReadyCalls ready]
    obtain ⟨stays,after⟩ := invoked (.user id) s ready poised
    exact ⟨after,fun _ => stays⟩
  | false =>
    rw [whenReadyWaits ready, left]
    split
    · exact ⟨poised,nofun⟩
    · rename_i absent
      exact ⟨poised.waits ready absent rfl rfl fun other => ⟨.inl,fun loads => loads.resolve_right nofun⟩,nofun⟩

theorem Poised.loading (poised : Poised s) (invoked : ∀ callback, Within Late (invoke callback))
    (inactive : s.loads id = false) (ready : t.ready = s.ready) (pending : t.pending = s.pending)
    (marked : ∀ other, t.loads other = true ↔ s.loads other = true ∨ other = id) :
    Poised (left (whenReady invoke (.refresh id) t)) ∧
      (s.ready = true → (left (whenReady invoke (.refresh id) t)).ready = true) := by
  cases now : s.ready with
  | true =>
    have called : Poised t := by
      refine ⟨pending ▸ poised.once,fun _ => pending.trans (poised.called now),fun unready => ?_⟩
      cases unready.symm.trans (ready.trans now)
    rw [whenReadyCalls (ready.trans now)]
    obtain ⟨stays,after⟩ := invoked (.refresh id) t (ready.trans now) called
    exact ⟨after,fun _ => stays⟩
  | false =>
    have absent : .refresh id ∉ s.pending := by
      rw [poised.waiting now, inactive]
      exact Bool.false_ne_true
    rw [whenReadyWaits (ready.trans now), left, pending, if_neg absent]
    refine ⟨poised.waits now absent rfl ready fun other => (marked other).trans ?_,nofun⟩
    rw [Callback.refresh.injEq]

theorem cancelReadySteady (id : Text) : Within Steady (cancelReady (.user id)) := by
  refine fun s poised => ⟨⟨poised.once.erase _,fun ready => ?_,fun unready other => ?_⟩,fun ready => ready⟩
  · show s.pending.erase _ = []
    rw [poised.called ready, List.erase_nil]
  · refine Iff.trans ?_ (poised.waiting unready other)
    exact List.mem_erase_of_ne nofun

theorem becomeReadySteady (invoked : ∀ callback, Within Late (invoke callback)) :
    Within Steady (becomeReady invoke) := by
  intro s poised
  rw [becomeReady, bindRuns getRuns]
  split
  · exact ⟨poised,fun ready => ready⟩
  · have announced : Poised {s with ready := true, pending := [], notices := s.notices ++ [.ready s.pending.length]} :=
      ⟨List.nodup_nil,fun _ => rfl,fun unready => by cases (show true = false from unready)⟩
    obtain ⟨stays,after⟩ := invokeAllWithin lateComposes invoked s.pending _ rfl announced
    exact ⟨after,fun _ => stays⟩

theorem refreshWhenReadyLate (host : Host) (id : Text) : Within Late (refreshWhenReady host id) := by
  refine withinBind lateComposes (fun s ready poised => ?_) fun _ =>
    withinMap lateComposes (fun s => (refreshShownViews host id s).loads.steady.late) fun _ => ()
  have none : s.pending.erase (.refresh id) = [] := by rw [poised.called ready, List.erase_nil]
  exact ⟨ready,by show (s.pending.erase _).Nodup; rw [none]; exact List.nodup_nil,fun _ => none,
    fun unready => by cases (show s.ready = false from unready).symm.trans ready⟩

theorem loadSteady (host : Host) (invoked : ∀ callback, Within Late (invoke callback)) (id : Text) :
    Within Steady (load host invoke id) := by
  refine fun s => loadAnew steadyComposes fun x _ found inactive => ?_
  refine leftBind steadyComposes (installLoads host x s).steady fun _ t ran poised => ?_
  have same : SameLoads s t := by
    have installed := installLoads host x s
    rw [ran] at installed
    exact installed
  have loads : t.loads id = false := by
    rw [same.loads, Session.loads, found, Option.any_some, inactive]
  have there : (t.extension? id).isSome := same.there id (by rw [found]; rfl)
  rw [bindRuns (modifyRuns _)]
  exact poised.loading invoked loads rfl rfl (loadsMarked there)

theorem unloadSteady (host : Host) (id : Text) : Within Steady (unload host id) := by
  refine unloadWithin steadyComposes (fun same => same.loads.steady) fun {s x c} ns named found active _ poised => ?_
  refine ⟨⟨poised.once.erase _,fun ready => ?_,fun unready other => ?_⟩,fun ready => ready⟩
  · show s.pending.erase _ = []
    rw [poised.called ready, List.erase_nil]
  · have kept : ∀ y, (unloaded y).id = y.id := fun _ => rfl
    have loads : (s.withExtension id unloaded).loads other = _ := loadsChanged kept other
    refine Iff.trans ?_ (Bool.eq_iff_iff.mp loads).symm
    rw [poised.once.mem_erase_iff, poised.waiting unready]
    by_cases own : other = id
    · simp [own, found, unloaded]
    · simp [own, Session.loads]

theorem performOneSteady (invoked : ∀ callback, Within Late (invoke callback)) {op : Op} (single : op.single = true) :
    Within Steady (perform host invoke op) := by
  have viewing (views : op.onViews = true) : Within Steady (perform host invoke op) :=
    fun s => (performViews invoke views s).loads.steady
  cases op with
  | insertMode _ _ _ | eraseMode _ _ | insertContentType _ _ _ | eraseContentType _ _ =>
    rw [perform]
    exact withinMap steadyComposes (fun s => (changeLoads _ s).steady) _
  | makeExtension id options =>
    rw [perform]
    exact withinMap steadyComposes (fun s => (makeExtensionLoads id options s).steady) _
  | load id =>
    rw [perform]
    exact withinMap steadyComposes (loadSteady host invoked id) _
  | unload id =>
    rw [perform]
    exact withinMap steadyComposes (unloadSteady host id) _
  | eachView ops => contradiction
  | whenReady callback =>
    rw [perform]
    exact withinMap steadyComposes (whenReadySteady invoked callback) _
  | cancelReady callback =>
    rw [perform]
    exact withinMap steadyComposes (cancelReadySteady callback) _
  | becomeReady =>
    rw [perform]
    exact withinMap steadyComposes (becomeReadySteady invoked) _
  | _ => exact viewing rfl

theorem performSteady (invoked : ∀ callback, Within Late (invoke callback)) (op : Op) :
    Within Steady (perform host invoke op) :=
  performWithin steadyComposes (fun _ => True) (fun _ _ _ _ => trivial)
    (fun _ single _ => performOneSteady invoked single) op trivial

theorem invokeLate (host : Host) (programs : Text → List Op) (depth : Nat) (callback : Callback) :
    Within Late (invokeWithin host programs depth callback) :=
  invokeAllowed lateComposes (fun _ => True) (fun same => same.loads.steady.late)
    (refreshWhenReadyLate host) (fun _ _ _ => trivial)
    (fun _ invoked op _ s => (performSteady invoked op s).late) depth callback

theorem stepPoised (host : Host) (programs : Text → List Op) (op : Op) (poised : Poised s) :
    Poised (step host programs s op).2 := by
  rw [stepLeft]
  have afresh : Poised s.afresh := ⟨poised.once,poised.called,poised.waiting⟩
  exact (performSteady (invokeLate host programs depthLimit) op s.afresh afresh).1

theorem runPoised (host : Host) (programs : Text → List Op) (ops : List Op) (poised : Poised s) :
    Poised (ending host programs s ops) := by
  induction ops generalizing s with
  | nil => exact poised
  | cons op more ih =>
    rw [endingMore]
    exact ih (stepPoised host programs op poised)

theorem poisedStart (attached : Bool) : Poised (.start attached) :=
  ⟨List.nodup_nil,nofun,fun _ _ => ⟨fun waits => absurd waits List.not_mem_nil,nofun⟩⟩

theorem refreshesWait (host : Host) (programs : Text → List Op) (attached : Bool) (ops : List Op) (id : Text) :
    let s := ending host programs (.start attached) ops
    (.refresh id ∈ s.pending ↔ (∃ x, s.extension? id = some x ∧ x.loaded = true) ∧ s.ready = false) ∧
      s.pending.count (.refresh id) ≤ 1 := by
  intro s
  have poised : Poised s := runPoised host programs ops (poisedStart attached)
  refine ⟨?_,List.nodup_iff_count_le_one.mp poised.once _⟩
  have loads : s.loads id = true ↔ ∃ x, s.extension? id = some x ∧ x.loaded = true := by
    rw [Session.loads, Option.any_eq_true]
  cases ready : s.ready with
  | true =>
    rw [poised.called ready]
    exact ⟨fun waits => absurd waits List.not_mem_nil,nofun⟩
  | false => rw [poised.waiting ready, loads, and_iff_left rfl]

end LittleMan.Session
