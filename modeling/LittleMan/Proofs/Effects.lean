import LittleMan.Proofs.Installing
import LittleMan.Session.Op

/-! What an action does to a session whether it succeeds or fails: a relation between the session it finds and
the one it leaves. Passing over views touches nothing but views, installing nothing but the catalog and the lists
of the extensions, and what waits for the layout is touched by neither. -/
namespace LittleMan.Session
variable {α β : Type} {R : Session → Session → Prop} {a : Action α} {f : α → Action β} {s t u : Session}
  {host : Host} {id : Text}

def left : EStateM.Result Failure Session α → Session
  | .ok _ s => s
  | .error _ s => s

def Within (R : Session → Session → Prop) (a : Action α) : Prop := ∀ s, R s (left (a s))

structure Composes (R : Session → Session → Prop) : Prop where
  refl : ∀ s, R s s
  trans : ∀ {s t u}, R s t → R t u → R s u

theorem leftBind (composes : Composes R) (first : R s (left (a s)))
    (next : ∀ x t, a s = .ok x t → R t (left (f x t))) : R s (left ((a >>= f) s)) := by
  show R s (left (EStateM.bind a f s))
  rw [EStateM.bind]
  cases ran : a s with
  | ok x t =>
    rw [ran] at first
    exact composes.trans first (next x t ran)
  | error e t =>
    rw [ran] at first
    exact first

theorem bindFails {e : Failure} (failed : a s = .error e t) : (a >>= f) s = .error e t := by
  show EStateM.bind a f s = _
  rw [EStateM.bind, failed]

theorem withinBind (composes : Composes R) (first : Within R a) (next : ∀ x, Within R (f x)) :
    Within R (a >>= f) :=
  fun s => leftBind composes (first s) fun x t _ => next x t

theorem leftMap (a : Action α) (g : α → β) (s : Session) : left ((do return g (← a)) s) = left (a s) := by
  show left (EStateM.bind a _ s) = _
  rw [EStateM.bind]
  cases a s <;> rfl

theorem withinMap (composes : Composes R) (first : Within R a) (g : α → β) :
    Within R (do return g (← a)) :=
  withinBind composes first fun _ => composes.refl

theorem answerEachWithin (composes : Composes R) {body : Action (List Answer)} (each : Within R body)
    (ids : List Text) : Within R (answerEach body ids) := by
  induction ids with
  | nil => exact composes.refl
  | cons id more ih => exact withinBind composes each fun _ => withinMap composes ih _

theorem invokeAllWithin (composes : Composes R) {invoke : Callback → Action Unit}
    (invoked : ∀ callback, Within R (invoke callback)) (callbacks : List Callback) :
    Within R (invokeAll invoke callbacks) := by
  induction callbacks with
  | nil => exact composes.refl
  | cons callback more ih => exact withinBind composes (invoked callback) fun _ => ih

theorem askFails {question : Catalog → Except Failure α} {e : Failure}
    (failed : question s.catalog = .error e) : ask question s = .error e s := by
  rw [ask, bindRuns getRuns, failed]
  rfl

theorem changeFails {operation : Catalog → Except Failure Catalog.Change} {e : Failure}
    (failed : operation s.catalog = .error e) : change operation s = .error e s :=
  bindFails (askFails failed)

theorem withinAsk (composes : Composes R) (question : Catalog → Except Failure α) : Within R (ask question) := by
  intro s
  cases ran : question s.catalog with
  | ok answer =>
    rw [askRuns ran]
    exact composes.refl s
  | error e =>
    rw [askFails ran]
    exact composes.refl s

theorem withinChange (composes : Composes R) {operation : Catalog → Except Failure Catalog.Change}
    (done : ∀ s d, operation s.catalog = .ok d →
      R s {s with catalog := d.catalog, notices := s.notices ++ d.notices}) : Within R (change operation) := by
  intro s
  cases ran : operation s.catalog with
  | ok d =>
    rw [changeRuns ran]
    exact done s d ran
  | error e =>
    rw [changeFails ran]
    exact composes.refl s

structure SameLayout (s t : Session) : Prop where
  ready : t.ready = s.ready
  pending : t.pending = s.pending

structure SameTables (s t : Session) : Prop where
  catalog : t.catalog = s.catalog
  extensions : t.extensions = s.extensions

structure ViewsOnly (s t : Session) : Prop extends SameLayout s t, SameTables s t

theorem sameLayoutComposes : Composes SameLayout :=
  ⟨fun _ => ⟨rfl,rfl⟩,fun first second => ⟨second.ready.trans first.ready,second.pending.trans first.pending⟩⟩

theorem sameTablesComposes : Composes SameTables :=
  ⟨fun _ => ⟨rfl,rfl⟩,fun first second =>
    ⟨second.catalog.trans first.catalog,second.extensions.trans first.extensions⟩⟩

theorem viewsOnlyComposes : Composes ViewsOnly :=
  ⟨fun _ => ⟨⟨rfl,rfl⟩,⟨rfl,rfl⟩⟩,fun first second =>
    ⟨sameLayoutComposes.trans first.toSameLayout second.toSameLayout,
      sameTablesComposes.trans first.toSameTables second.toSameTables⟩⟩

theorem passOverViews (host : Host) (id : Text) : Within ViewsOnly (passOver host id) := by
  intro s
  rw [passOver, bindRuns getRuns]
  cases s.view? id with
  | none => exact viewsOnlyComposes.refl s
  | some v =>
    exact withinBind viewsOnlyComposes (withinAsk viewsOnlyComposes _) (fun _ _ => ⟨⟨rfl,rfl⟩,⟨rfl,rfl⟩⟩) s

theorem switchModeViews (host : Host) (id : Text) (mode : Value) : Within ViewsOnly (switchMode host id mode) :=
  withinBind viewsOnlyComposes (fun _ => ⟨⟨rfl,rfl⟩,⟨rfl,rfl⟩⟩) fun _ => passOverViews host id

theorem makeViewViews (host : Host) (id text : Text) (mode : Value) :
    Within ViewsOnly (makeView host id text mode) :=
  withinBind viewsOnlyComposes (withinAsk viewsOnlyComposes _) fun _ _ => ⟨⟨rfl,rfl⟩,⟨rfl,rfl⟩⟩

theorem showViewViews (host : Host) (id text : Text) (mode : Value) :
    Within ViewsOnly (showView host id text mode) := by
  intro s
  rw [showView, bindRuns getRuns]
  split
  · exact withinBind viewsOnlyComposes (makeViewViews host id text mode) (fun _ _ => ⟨⟨rfl,rfl⟩,⟨rfl,rfl⟩⟩) s
  · exact viewsOnlyComposes.refl s

theorem refreshThoseViews (host : Host) (names : List Value) (ids : List Text) (count : Nat) :
    Within ViewsOnly (refreshThose host names ids count) := by
  induction ids generalizing count with
  | nil => exact viewsOnlyComposes.refl
  | cons id more ih =>
    intro s
    rw [refreshThose, bindRuns getRuns]
    cases s.view? id with
    | none => exact ih count s
    | some v =>
      refine withinBind viewsOnlyComposes (withinAsk viewsOnlyComposes _) (fun _ => ?_) s
      split
      · exact withinBind viewsOnlyComposes (switchModeViews host id v.mode) fun _ => ih (count + 1)
      · exact ih count

theorem refreshShownViews (host : Host) (id : Text) : Within ViewsOnly (refreshShown host id) := by
  intro s
  rw [refreshShown, bindRuns getRuns]
  cases s.extension? id with
  | none => exact viewsOnlyComposes.refl s
  | some x =>
    refine withinBind viewsOnlyComposes (withinAsk viewsOnlyComposes _) (fun names => ?_) s
    intro s
    rw [bindRuns getRuns]
    exact withinBind viewsOnlyComposes (refreshThoseViews host names s.shown 0)
      (fun _ _ => ⟨⟨rfl,rfl⟩,⟨rfl,rfl⟩⟩) s

theorem hideViewViews (id : Text) : Within ViewsOnly (hideView id) := fun _ => ⟨⟨rfl,rfl⟩,⟨rfl,rfl⟩⟩

theorem setTextViews (id text : Text) : Within ViewsOnly (setText id text) := fun _ => ⟨⟨rfl,rfl⟩,⟨rfl,rfl⟩⟩

theorem addAnswerViews (index : Nat) (answer : Answer) : Within ViewsOnly (addAnswer index answer) :=
  fun _ => ⟨⟨rfl,rfl⟩,⟨rfl,rfl⟩⟩

theorem refreshWhenReadyTables (host : Host) (id : Text) : Within SameTables (refreshWhenReady host id) :=
  withinBind sameTablesComposes (fun _ => ⟨rfl,rfl⟩) fun _ =>
    withinMap sameTablesComposes (fun s => (refreshShownViews host id s).toSameTables) fun _ => ()

theorem whenRefreshTables {invoke : Callback → Action Unit} (refreshes : Within SameTables (invoke (.refresh id))) :
    Within SameTables (whenReady invoke (.refresh id)) := by
  intro s
  rw [whenReady, bindRuns getRuns]
  split
  · exact refreshes s
  · split
    · exact sameTablesComposes.refl s
    · exact ⟨rfl,rfl⟩

theorem invokeRefresh (host : Host) (programs : Text → List Op) (depth : Nat) (id : Text) :
    invokeWithin host programs depth (.refresh id) = refreshWhenReady host id := by
  cases depth <;> rfl

theorem loadNothing (host : Host) (invoke : Callback → Action Unit)
    (loaded : ∀ x, s.extension? id = some x → x.loaded = true) : load host invoke id s = .ok () s := by
  rw [load, bindRuns getRuns]
  cases found : s.extension? id with
  | none => rfl
  | some x =>
    simp only [loaded x found, if_true]
    rfl

theorem unloadNothing (host : Host) (inactive : ∀ x, s.extension? id = some x → x.loaded = false) :
    unload host id s = .ok () s := by
  rw [unload, bindRuns getRuns]
  cases found : s.extension? id with
  | none => rfl
  | some x =>
    simp only [inactive x found, Bool.not_false, if_true]
    rfl

theorem changeLayout (operation : Catalog → Except Failure Catalog.Change) : Within SameLayout (change operation) :=
  withinChange sameLayoutComposes fun _ _ _ => ⟨rfl,rfl⟩

theorem installParts (composes : Composes R) {x : Extension} (modes : Within R (installModes host x x.aliases))
    (types : ∀ installed, Within R (installContentType x installed)) (tells : ∀ notice, Within R (tell notice)) :
    Within R (install host x) := by
  refine withinBind composes modes fun _ =>
    withinBind composes composes.refl fun installed =>
      withinBind composes (types installed) fun _ =>
        withinBind composes composes.refl fun held => ?_
  dsimp only
  split
  · exact withinBind composes (tells _) fun _ => tells _
  · exact tells _

theorem installWithin (composes : Composes R) {x : Extension}
    (asks : ∀ name ∈ x.aliases, Within R (change fun c => c.insertMode host.mode name x.lexer (.extension x.id)))
    (asksType : ∀ name, Within R (change fun c => c.insertContentType x.contentType name (.extension x.id)))
    (lists : ∀ s modes types, R s (s.withExtension x.id (listing modes types)))
    (tells : ∀ notice, Within R (tell notice)) : Within R (install host x) := by
  have modes : ∀ names, (∀ name ∈ names, name ∈ x.aliases) → Within R (installModes host x names) := by
    intro names among
    induction names with
    | nil => exact composes.refl
    | cons name more ih =>
      have later := ih fun name inside => among name (List.mem_cons_of_mem _ inside)
      refine withinBind composes (asks name (among name List.mem_cons_self)) fun held => ?_
      split
      · rename_i t
        rw [← listingMode t]
        exact withinBind composes (fun s => lists s [t] []) fun _ => later
      · exact later
  refine installParts composes (modes x.aliases fun _ inside => inside) (fun installed => ?_) tells
  cases installed with
  | nil => exact composes.refl
  | cons first more =>
    refine withinBind composes (asksType (.text first)) fun held => ?_
    split
    · rename_i t _
      rw [← listingContentType t]
      exact fun s => lists s [] [t]
    · exact composes.refl

theorem installLayout (host : Host) (x : Extension) : Within SameLayout (install host x) :=
  installWithin sameLayoutComposes (fun _ _ => changeLayout _) (fun _ => changeLayout _) (fun _ _ _ => ⟨rfl,rfl⟩)
    fun _ _ => ⟨rfl,rfl⟩

theorem loadAnew (composes : Composes R) {invoke : Callback → Action Unit}
    (installs : ∀ x, x.id = id → s.extension? id = some x → x.loaded = false → R s (left ((do
      install host x
      modify fun s : Session => s.withExtension id fun x => {x with loaded := true}
      whenReady invoke (.refresh id)) s))) : R s (left (load host invoke id s)) := by
  cases found : s.extension? id with
  | none =>
    rw [loadNothing host invoke fun x there => by cases found.symm.trans there]
    exact composes.refl s
  | some x =>
    cases inactive : x.loaded with
    | true =>
      rw [loadNothing host invoke fun y there => Option.some.inj (found.symm.trans there) ▸ inactive]
      exact composes.refl s
    | false =>
      rw [loadInstalls invoke found inactive]
      exact installs x (extensionNamed found) found inactive

theorem loadWithin (composes : Composes R) {invoke : Callback → Action Unit}
    (installs : ∀ x, x.id = id → Within R (install host x))
    (marks : Within R (modify (·.withExtension id fun x => {x with loaded := true})))
    (waits : Within R (whenReady invoke (.refresh id))) : Within R (load host invoke id) :=
  fun s => loadAnew composes fun x named _ _ =>
    withinBind composes (installs x named) (fun _ => withinBind composes marks fun _ => waits) s

theorem unloadRevokes (composes : Composes R) (views : ∀ {s t}, ViewsOnly s t → R s t)
    (revokes : ∀ {x : Extension} {c : Catalog} (ns : List Notice), x.id = id →
      s.extension? id = some x → x.loaded = true → x.Revoked s.catalog c →
      R s {s.withExtension id unloaded with
        catalog := c, notices := ns, pending := s.pending.erase (.refresh id)}) :
    R s (left (unload host id s)) := by
  cases found : s.extension? id with
  | none =>
    rw [unloadNothing host fun x there => by cases found.symm.trans there]
    exact composes.refl s
  | some x =>
    obtain rfl := extensionNamed found
    cases active : x.loaded with
    | false =>
      rw [unloadNothing host fun y there => Option.some.inj (found.symm.trans there) ▸ active]
      exact composes.refl s
    | true =>
      obtain ⟨c,ns,revoked,ran⟩ := unloadRuns host found active
      rw [ran]
      refine composes.trans (revokes ns rfl found active revoked) (views ?_)
      exact withinMap viewsOnlyComposes (refreshShownViews host x.id) (fun _ => ()) _

theorem unloadWithin (composes : Composes R) (views : ∀ {s t}, ViewsOnly s t → R s t)
    (revokes : ∀ {s : Session} {x : Extension} {c : Catalog} (ns : List Notice), x.id = id →
      s.extension? id = some x → x.loaded = true → x.Revoked s.catalog c →
      R s {s.withExtension id unloaded with
        catalog := c, notices := ns, pending := s.pending.erase (.refresh id)}) :
    Within R (unload host id) :=
  fun _ => unloadRevokes composes views revokes

def Op.onViews : Op → Bool
  | .lookUp _ | .modeFor _ | .holder _ | .target _ | .contains _ | .size | .tokens _ | .display _ => true
  | .refresh _ | .showView _ _ _ | .detachedView _ _ _ | .hideView _ | .switchMode _ _ | .setText _ _
  | .passOver _ => true
  | _ => false

theorem performViews {op : Op} (invoke : Callback → Action Unit) (onViews : op.onViews = true) :
    Within ViewsOnly (perform host invoke op) := by
  have asked {γ : Type} (question : Catalog → Except Failure γ) (g : γ → Answer) :
      Within ViewsOnly (do return g (← ask question)) :=
    withinMap viewsOnlyComposes (withinAsk viewsOnlyComposes question) g
  have done {action : Action Unit} (views : Within ViewsOnly action) :
      Within ViewsOnly (do action; return Answer.nothing) :=
    withinBind viewsOnlyComposes views fun _ => viewsOnlyComposes.refl
  cases op with
  | lookUp name => rw [perform]; exact asked _ _
  | modeFor spec => rw [perform]; exact asked _ _
  | holder name => rw [perform]; exact asked _ _
  | target contentType => rw [perform]; exact asked _ _
  | contains name => rw [perform]; exact asked _ _
  | size => rw [perform]; exact viewsOnlyComposes.refl
  | tokens id => rw [perform]; exact viewsOnlyComposes.refl
  | display id => rw [perform]; exact viewsOnlyComposes.refl
  | refresh id => rw [perform]; exact withinMap viewsOnlyComposes (refreshShownViews host id) _
  | showView id text mode => rw [perform]; exact done (showViewViews host id text mode)
  | detachedView id text mode => rw [perform]; exact done (makeViewViews host id text mode)
  | hideView id => rw [perform]; exact done (hideViewViews id)
  | switchMode id mode => rw [perform]; exact done (switchModeViews host id mode)
  | setText id text => rw [perform]; exact done (setTextViews id text)
  | passOver id => rw [perform]; exact done (passOverViews host id)
  | _ => contradiction

def Op.single : Op → Bool
  | .eachView _ => false
  | _ => true

section Programs
variable {invoke : Callback → Action Unit} {programs : Text → List Op}

mutual

theorem performWithin (composes : Composes R) (allowed : Op → Prop)
    (inner : ∀ ops, allowed (.eachView ops) → ∀ op ∈ ops, allowed op)
    (single : ∀ op : Op, op.single = true → allowed op → Within R (perform host invoke op)) :
    ∀ op : Op, allowed op → Within R (perform host invoke op)
  | .eachView ops, all => by
    rw [perform]
    refine withinBind composes composes.refl fun s => ?_
    exact withinMap composes
      (answerEachWithin composes (performAllWithin composes allowed inner single ops (inner ops all)) s.shown) _
  | .insertMode _ _ _, one | .eraseMode _ _, one | .insertContentType _ _ _, one | .eraseContentType _ _, one
  | .lookUp _, one | .modeFor _, one | .holder _, one | .target _, one | .contains _, one | .size, one
  | .makeExtension _ _, one | .load _, one | .unload _, one | .refresh _, one | .showView _ _ _, one
  | .detachedView _ _ _, one | .hideView _, one | .switchMode _ _, one | .setText _ _, one | .passOver _, one
  | .tokens _, one | .display _, one | .whenReady _, one | .cancelReady _, one | .becomeReady, one =>
    single _ rfl one

theorem performAllWithin (composes : Composes R) (allowed : Op → Prop)
    (inner : ∀ ops, allowed (.eachView ops) → ∀ op ∈ ops, allowed op)
    (single : ∀ op : Op, op.single = true → allowed op → Within R (perform host invoke op)) :
    ∀ ops : List Op, (∀ op ∈ ops, allowed op) → Within R (performAll host invoke ops)
  | [], _ => by
    rw [performAll]
    exact composes.refl
  | op :: more, all => by
    rw [performAll]
    have first := performWithin composes allowed inner single op (all op List.mem_cons_self)
    refine withinBind composes first fun answer => ?_
    exact withinMap composes
      (performAllWithin composes allowed inner single more fun op later => all op (List.mem_cons_of_mem _ later)) _

end

theorem invokeAllowed (composes : Composes R) (allowed : Op → Prop) (views : ∀ {s t}, ViewsOnly s t → R s t)
    (refreshes : ∀ id, Within R (refreshWhenReady host id)) (called : ∀ id, ∀ op ∈ programs id, allowed op)
    (performs : ∀ invoke : Callback → Action Unit, (∀ callback, Within R (invoke callback)) →
      ∀ op, allowed op → Within R (perform host invoke op)) (depth : Nat) (callback : Callback) :
    Within R (invokeWithin host programs depth callback) := by
  induction depth generalizing callback with
  | zero =>
    cases callback with
    | user id => exact composes.refl
    | refresh id => exact refreshes id
  | succ depth ih =>
    cases callback with
    | refresh id => exact refreshes id
    | user id =>
      have calls (index : Nat) (ops : List Op) (all : ∀ op ∈ ops, allowed op) :
          Within R (performCall host (invokeWithin host programs depth) index ops) := by
        induction ops with
        | nil => exact composes.refl
        | cons op more later =>
          refine withinBind composes (performs _ ih op (all op List.mem_cons_self)) fun answer => ?_
          exact withinBind composes (fun s => views (addAnswerViews index answer s)) fun _ =>
            later fun op inside => all op (List.mem_cons_of_mem _ inside)
      refine withinBind composes composes.refl fun s => ?_
      exact withinBind composes (fun _ => views ⟨⟨rfl,rfl⟩,⟨rfl,rfl⟩⟩) fun _ =>
        calls s.calls.length (programs id) (called id)

end Programs

def afresh (s : Session) : Session := {s with notices := [], calls := []}

theorem stepLeft (host : Host) (programs : Text → List Op) (s : Session) (op : Op) :
    (step host programs s op).2 = left (perform host (Session.invoke host programs) op s.afresh) := by
  rw [step, afresh]
  cases perform host (Session.invoke host programs) op {s with notices := [], calls := []} <;> rfl

end LittleMan.Session
