import LittleMan.Proofs.Effects
import LittleMan.Proofs.Registration

/-! Sessions whose extensions all bring the lexer. A shown view may be behind the catalog, but only under a name
of an extension whose refresh is due. No action of an editor fails in such a session, and every one of them
leaves due no more than what waits for the layout. -/
namespace LittleMan
namespace Session
variable {host : Host} {due more : List Callback} {s t u : Session} {x : Extension} {id : Text} {mode : Value}
  {vs : List View} {ns : List Notice}

def Awaited (due : List Callback) (s : Session) (mode : Value) : Prop :=
  ∃ id x, .refresh id ∈ due ∧ s.extension? id = some x ∧ mode ∈ x.names

structure Coherent (host : Host) (due : List Callback) (s : Session) : Prop where
  attached : s.attached = true
  registered : Registered host s
  keyed : Keyed s
  shown : ∀ id ∈ s.shown, (s.view? id).isSome = true
  waiting : s.ready = true → s.pending = []
  pending : ∀ callback ∈ s.pending, ∃ id, callback = .refresh id
  current : ∀ id ∈ s.shown, ∀ v, s.view? id = some v → v.Current host s.catalog ∨ Awaited due s v.mode

theorem viewEither {v w : View} {shown : List Text}
    (found : ({s with views := s.views ++ [v], shown := shown} : Session).view? id = some w) :
    s.view? id = some w ∨ w = v ∧ v.id = id :=
  foundEither found

namespace Coherent

theorem start (host : Host) : Coherent host [] (.start true) where
  attached := rfl
  registered := ⟨fun _ _ found => by contradiction,fun _ _ found => by contradiction,
    fun _ _ found => by contradiction⟩
  keyed _ _ found := by contradiction
  shown _ none := absurd none List.not_mem_nil
  waiting _ := rfl
  pending _ none := absurd none List.not_mem_nil
  current _ none := absurd none List.not_mem_nil

theorem mono (coherent : Coherent host due s) (sub : ∀ callback ∈ due, callback ∈ more) : Coherent host more s :=
  {coherent with
    current := fun id shown v found => (coherent.current id shown v found).imp_right
      fun ⟨id,x,inside,rest⟩ => ⟨id,x,sub _ inside,rest⟩}

theorem told (coherent : Coherent host due s) (ns : List Notice) (calls : List Call) :
    Coherent host due {s with notices := ns, calls := calls} where
  attached := coherent.attached
  registered := coherent.registered.beside rfl rfl
  keyed := coherent.keyed
  shown := coherent.shown
  waiting := coherent.waiting
  pending := coherent.pending
  current := coherent.current

theorem renewed (coherent : Coherent host due s)
    (renewed : Renewed host s.catalog s {s with views := vs, notices := ns}) :
    Coherent host due {s with views := vs, notices := ns} where
  attached := coherent.attached
  registered := coherent.registered.beside rfl rfl
  keyed := renewed.keyed coherent.keyed
  shown id inside := (renewed.there id).trans (coherent.shown id inside)
  waiting := coherent.waiting
  pending := coherent.pending
  current id inside v found :=
    (renewed.views id v found).elim (coherent.current id inside v) fun current => .inl current.2

theorem relaid (coherent : Coherent host due s) {ready : Bool} {waits : List Callback}
    (waiting : ready = true → waits = []) (pending : ∀ callback ∈ waits, ∃ id, callback = .refresh id) :
    Coherent host due {s with ready := ready, pending := waits} where
  attached := coherent.attached
  registered := coherent.registered.beside rfl rfl
  keyed := coherent.keyed
  shown := coherent.shown
  waiting := waiting
  pending := pending
  current := coherent.current

theorem cancelled (coherent : Coherent host due s) (callback : Callback) :
    Coherent host due {s with pending := s.pending.erase callback} :=
  coherent.relaid (fun ready => by rw [coherent.waiting ready]; rfl)
    fun callback inside => coherent.pending callback (List.mem_of_mem_erase inside)

theorem hidden (coherent : Coherent host due s) (id : Text) :
    Coherent host due {s with shown := s.shown.erase id} where
  attached := coherent.attached
  registered := coherent.registered.beside rfl rfl
  keyed := coherent.keyed
  shown other inside := coherent.shown other (List.mem_of_mem_erase inside)
  waiting := coherent.waiting
  pending := coherent.pending
  current other inside := coherent.current other (List.mem_of_mem_erase inside)

theorem extended (coherent : Coherent host due s) (sound : x.Sound host) :
    Coherent host due {s with extensions := s.extensions ++ [x]} where
  attached := coherent.attached
  registered := makeRegistered coherent.registered sound
  keyed := coherent.keyed
  shown := coherent.shown
  waiting := coherent.waiting
  pending := coherent.pending
  current id inside v there := (coherent.current id inside v there).imp_right
    fun ⟨id,y,due,found,named⟩ => ⟨id,y,due,foundLater x found,named⟩

theorem opened {v : View} (coherent : Coherent host due s) (fresh : s.view? v.id = none)
    (key : v.mode.isKey = true) (now : v.Current host s.catalog) :
    Coherent host due {s with views := s.views ++ [v], shown := s.shown ++ [v.id]} where
  attached := coherent.attached
  registered := coherent.registered.beside rfl rfl
  keyed id w found := by
    rcases viewEither found with before | ⟨rfl,_⟩
    · exact coherent.keyed id w before
    · exact key
  shown id inside := by
    rcases List.mem_append.mp inside with old | new
    · obtain ⟨w,found⟩ := Option.isSome_iff_exists.mp (coherent.shown id old)
      exact Option.isSome_iff_exists.mpr ⟨w,foundLater v found⟩
    · cases List.mem_singleton.mp new
      have gone : s.views.find? (·.id == v.id) = none := fresh
      have last : (s.views ++ [v]).find? (·.id == v.id) = some v := by
        rw [List.find?_append, gone, Option.none_or, List.find?_singleton, if_pos (beq_self_eq_true v.id)]
      exact Option.isSome_iff_exists.mpr ⟨v,last⟩
  waiting := coherent.waiting
  pending := coherent.pending
  current id inside w found := by
    rcases viewEither found with before | ⟨rfl,_⟩
    · rcases List.mem_append.mp inside with old | new
      · exact coherent.current id old w before
      · -- A view of the new one's name would have been there before.
        cases List.mem_singleton.mp new
        exact absurd (fresh.symm.trans before) nofun
    · exact .inl now

/- What becomes of a session when the entries of one extension change: under all that it asks for, views are
behind until its refresh comes. -/
theorem registering {change : Extension → Extension} (coherent : Coherent host due s)
    (found : s.extension? id = some x) {c : Catalog} {waits : List Callback}
    (kept : ∀ y, (change y).id = y.id) (names : ∀ y, (change y).names = y.names)
    (registered : Registered host {s.withExtension id change with catalog := c, notices := ns, pending := waits})
    (answers : ∀ mode, mode ∉ x.names → (c.answer? mode).isSome = (s.catalog.answer? mode).isSome)
    (waiting : ∀ callback ∈ waits, callback ∈ s.pending) :
    Coherent host (.refresh id :: due)
      {s.withExtension id change with catalog := c, notices := ns, pending := waits} where
  attached := coherent.attached
  registered := registered
  keyed := coherent.keyed
  shown := coherent.shown
  waiting ready := List.eq_nil_iff_forall_not_mem.mpr fun callback inside => by
    have none := waiting callback inside
    rw [coherent.waiting ready] at none
    exact List.not_mem_nil none
  pending callback inside := coherent.pending callback (waiting callback inside)
  current other inside v there := by
    have lists := extensionChanged (s := s) kept id
    have key := coherent.keyed other v there
    by_cases own : v.mode ∈ x.names
    · exact .inr ⟨id,change x,List.mem_cons_self,(lists id).trans (by rw [found, Option.map_some, if_pos rfl]),
        (names x).symm ▸ own⟩
    · rcases coherent.current other inside v there with current | ⟨other,y,due,before,named⟩
      · -- Every mode is the lexer, so it only matters whether the catalog has one for the view.
        left
        rw [Catalog.currentLexing registered.lexing key, Catalog.tokensFor, answers v.mode own]
        exact (Catalog.currentLexing coherent.registered.lexing key).mp current
      · obtain ⟨z,after,named⟩ := Relisted.keeps (t := s.withExtension id change) (P := fun z => v.mode ∈ z.names)
          lists (fun y inside => (names y).symm ▸ inside) before named
        exact .inr ⟨other,z,List.mem_cons_of_mem _ due,after,named⟩

end Coherent

def NoNewBut (new : Option Text) (s t : Session) : Prop :=
  ∀ id, new ≠ some id → s.view? id = none → t.view? id = none

theorem NoNewBut.refl (s : Session) : NoNewBut none s s := fun _ _ gone => gone

theorem NoNewBut.trans {new : Option Text} (first : NoNewBut new s t) (second : NoNewBut none t u) :
    NoNewBut new s u :=
  fun id other gone => second id nofun (first id other gone)

theorem NoNewBut.ofThere (there : ∀ id, (t.view? id).isSome = (s.view? id).isSome) : NoNewBut none s t := by
  intro id _ gone
  rw [← Option.isNone_iff_eq_none, ← Option.not_isSome, there id, gone]
  rfl

def Settles {α : Type} (host : Host) (new : Option Text) (action : Action α) (s : Session) : Prop :=
  ∃ answer t, action s = .ok answer t ∧ Coherent host t.pending t ∧ NoNewBut new s t

theorem Settles.answering {α β : Type} {new : Option Text} {action : Action α}
    (settles : Settles host new action s) (f : α → β) : Settles host new (do return f (← action)) s := by
  obtain ⟨answer,t,ran,coherent,views⟩ := settles
  exact ⟨f answer,t,bindRuns ran,coherent,views⟩

theorem refreshCoherent (coherent : Coherent host (.refresh id :: due) s) :
    ∃ vs ns n, refreshShown host id s = .ok n {s with views := vs, notices := ns} ∧
      Coherent host due {s with views := vs, notices := ns} ∧
      NoNewBut none s {s with views := vs, notices := ns} := by
  obtain ⟨vs,ns,n,ran,renewed,current⟩ := refreshShownRuns id coherent.registered.lexing coherent.keyed
    fun x found => (coherent.registered.extensions id x found).texts
  have after := coherent.renewed renewed
  refine ⟨vs,ns,n,ran,{after with current := fun other inside v found => ?_},.ofThere renewed.there⟩
  rcases after.current other inside v found with now | ⟨id',x,due,there,named⟩
  · exact .inl now
  · rcases List.mem_cons.mp due with same | later
    · cases same
      exact .inl (current x there other inside v found named)
    · exact .inr ⟨id',x,later,there,named⟩

theorem refreshWhenReadyCoherent (coherent : Coherent host (.refresh id :: due) s) :
    ∃ t, refreshWhenReady host id s = .ok () t ∧ Coherent host due t ∧
      t.pending = s.pending.erase (.refresh id) ∧ NoNewBut none s t := by
  obtain ⟨vs,ns,n,ran,after,views⟩ := refreshCoherent (coherent.cancelled (.refresh id))
  exact ⟨_,bindRuns ran,after,rfl,views⟩

variable (programs : Text → List Op)

theorem whenReadySettles (coherent : Coherent host (.refresh id :: s.pending) s) :
    Settles host none (whenReady (invoke host programs) (.refresh id)) s := by
  rw [Settles, whenReady, bindRuns getRuns]
  by_cases ready : s.ready = true
  · rw [if_pos ready, invoke, invokeRefresh]
    obtain ⟨t,ran,after,pending,views⟩ := refreshWhenReadyCoherent coherent
    have none : t.pending = s.pending := by
      rw [pending, coherent.waiting ready]
      rfl
    exact ⟨(),t,ran,none ▸ after,views⟩
  · rw [if_neg ready]
    by_cases there : .refresh id ∈ s.pending
    · rw [if_pos there]
      have waits : ∀ callback ∈ Callback.refresh id :: s.pending, callback ∈ s.pending :=
        List.forall_mem_cons.mpr ⟨there,fun _ inside => inside⟩
      exact ⟨(),s,rfl,coherent.mono waits,.refl s⟩
    · rw [if_neg there]
      have listed : ∀ callback ∈ s.pending ++ [.refresh id], ∃ id, callback = Callback.refresh id := by
        intro callback inside
        rcases List.mem_append.mp inside with before | last
        · exact coherent.pending callback before
        · exact ⟨id,List.mem_singleton.mp last⟩
      refine ⟨(),_,rfl,(coherent.relaid (fun yes => absurd yes ready) listed).mono fun callback inside => ?_,
        fun _ _ gone => gone⟩
      rcases List.mem_cons.mp inside with rfl | before
      · exact List.mem_append_right _ List.mem_cons_self
      · exact List.mem_append_left _ before

theorem loadSettles (coherent : Coherent host s.pending s) (id : Text) :
    Settles host none (load host (invoke host programs) id) s := by
  cases found : s.extension? id with
  | none =>
    refine ⟨(),s,?_,coherent,.refl s⟩
    rw [load, bindRuns getRuns, found]
    rfl
  | some x =>
    obtain rfl := extensionNamed found
    cases loaded : x.loaded with
    | true =>
      refine ⟨(),s,?_,coherent,.refl s⟩
      rw [load, bindRuns getRuns, found]
      simp only [loaded, if_true]
      rfl
    | false =>
      have sound := coherent.registered.extensions x.id x found
      obtain ⟨names,type,asks⟩ := sound.asks
      have whole : (host.mode x.lexer).lacks? = none := by rw [sound.lexer]; rfl
      obtain ⟨c,ns,held,granted,ran⟩ :=
        loadRuns (invoke host programs) found loaded asks whole (sound.idle loaded).1
      let lists := loadedWith held ((typed held type).filter (s.catalog.contentTypes.free (.extension x.id)))
      let loading : Session := {s.withExtension x.id lists with catalog := c, notices := ns}
      have kept : ∀ y, (lists y).id = y.id := fun _ => rfl
      have registered : Registered host loading :=
        loadRegistered coherent.registered found asks granted (extensionChanged kept x.id)
      have after : Coherent host (.refresh x.id :: loading.pending) loading :=
        coherent.registering found kept (fun _ => rfl) registered
          (fun _ other => loadAnswers coherent.registered asks granted other) fun _ inside => inside
      obtain ⟨answer,t,settled,now,views⟩ := whenReadySettles programs after
      exact ⟨answer,t,ran.trans settled,now,views⟩

theorem unloadSettles (coherent : Coherent host s.pending s) (id : Text) :
    Settles host none (unload host id) s := by
  cases found : s.extension? id with
  | none =>
    refine ⟨(),s,?_,coherent,.refl s⟩
    rw [unload, bindRuns getRuns, found]
    rfl
  | some x =>
    obtain rfl := extensionNamed found
    cases loaded : x.loaded with
    | false =>
      refine ⟨(),s,?_,coherent,.refl s⟩
      rw [unload, bindRuns getRuns, found]
      simp only [loaded, Bool.not_false, if_true]
      rfl
    | true =>
      obtain ⟨c,ns,revoked,ran⟩ := unloadRuns host found loaded
      let unloading : Session := {s.withExtension x.id unloaded with
        catalog := c, notices := ns, pending := s.pending.erase (.refresh x.id)}
      have kept : ∀ y, (unloaded y).id = y.id := fun _ => rfl
      have registered : Registered host unloading :=
        unloadRegistered coherent.registered found revoked (extensionChanged kept x.id)
      have after : Coherent host (.refresh x.id :: s.pending) unloading :=
        coherent.registering found kept (fun _ => rfl) registered
          (fun _ other => unloadAnswers coherent.registered found revoked other)
          fun _ inside => List.mem_of_mem_erase inside
      -- Of the waiting refreshes only the extension's own was cancelled, and that one comes now.
      have waits : ∀ callback ∈ Callback.refresh x.id :: s.pending,
          callback ∈ Callback.refresh x.id :: s.pending.erase (.refresh x.id) := by
        intro callback inside
        by_cases own : callback = .refresh x.id
        · exact own ▸ List.mem_cons_self
        · exact List.mem_cons_of_mem _ ((List.mem_erase_of_ne own).mpr (List.mem_of_ne_of_mem own inside))
      obtain ⟨vs,ms,n,refreshed,now,views⟩ := refreshCoherent (after.mono waits)
      exact ⟨(),_,ran.trans (bindRuns refreshed),now,views⟩

theorem invokeAllCoherent (callbacks : List Callback)
    (refreshes : ∀ callback ∈ callbacks, ∃ id, callback = .refresh id) (coherent : Coherent host callbacks s) :
    ∃ t, invokeAll (invoke host programs) callbacks s = .ok () t ∧ Coherent host t.pending t ∧
      NoNewBut none s t := by
  -- What is still to be called is what is due.
  induction callbacks generalizing s with
  | nil => exact ⟨s,rfl,coherent.mono fun _ none => absurd none List.not_mem_nil,.refl s⟩
  | cons callback more ih =>
    obtain ⟨id,rfl⟩ := refreshes callback List.mem_cons_self
    obtain ⟨t,ran,after,_,views⟩ := refreshWhenReadyCoherent coherent
    obtain ⟨u,others,now,moreViews⟩ := ih (fun other later => refreshes other (List.mem_cons_of_mem _ later)) after
    refine ⟨u,?_,now,views.trans moreViews⟩
    rw [invokeAll, invoke, invokeRefresh, bindRuns ran]
    exact others

theorem becomeReadySettles (coherent : Coherent host s.pending s) :
    Settles host none (becomeReady (invoke host programs)) s := by
  rw [Settles, becomeReady, bindRuns getRuns]
  by_cases ready : s.ready = true
  · rw [if_pos ready]
    exact ⟨(),s,rfl,coherent,.refl s⟩
  · rw [if_neg ready]
    let taken : Session := {s with ready := true, pending := [], notices := s.notices ++ [.ready s.pending.length]}
    have relaid : Coherent host s.pending {s with ready := true, pending := []} :=
      coherent.relaid (fun _ => rfl) fun _ none => absurd none List.not_mem_nil
    have set : Coherent host s.pending taken := relaid.told (s.notices ++ [.ready s.pending.length]) s.calls
    obtain ⟨t,ran,now,views⟩ := invokeAllCoherent programs s.pending coherent.pending set
    exact ⟨(),t,ran,now,views⟩

theorem refreshSettles (coherent : Coherent host s.pending s) (id : Text) :
    Settles host none (refreshShown host id) s := by
  obtain ⟨vs,ns,n,ran,after,views⟩ :=
    refreshCoherent (coherent.mono fun _ => List.mem_cons_of_mem (Callback.refresh id))
  exact ⟨n,_,ran,after,views⟩

theorem passOverSettles (coherent : Coherent host s.pending s) (id : Text) :
    Settles host none (passOver host id) s := by
  obtain ⟨vs,ran,passed⟩ := passOverRuns coherent.registered.lexing (coherent.keyed id)
  exact ⟨(),_,ran,coherent.renewed passed.renewed,.ofThere passed.there⟩

theorem switchModeSettles (coherent : Coherent host s.pending s) (id : Text) (key : mode.isKey = true) :
    Settles host none (switchMode host id mode) s := by
  obtain ⟨vs,ran,passed⟩ := switchModeRuns coherent.registered.lexing id key
  exact ⟨(),_,ran,coherent.renewed passed.renewed,.ofThere passed.there⟩

theorem hideViewSettles (coherent : Coherent host s.pending s) (id : Text) :
    Settles host none (hideView id) s :=
  ⟨(),_,rfl,coherent.hidden id,.refl s⟩

theorem makeExtensionSettles {options : ExtensionOptions} (coherent : Coherent host s.pending s)
    (sound : (options.extension id).Sound host) : Settles host none (makeExtension id options) s := by
  refine ⟨(),{s with extensions := s.extensions ++ [options.extension id]},?_,coherent.extended sound,.refl s⟩
  rw [makeExtension, bindRuns getRuns, if_pos coherent.attached]
  rfl

theorem showViewSettles {text : Text} (coherent : Coherent host s.pending s) (key : mode.isKey = true)
    (fresh : s.view? id = none) : Settles host (some id) (showView host id text mode) s := by
  have lexing := coherent.registered.lexing
  let v : View := ⟨id,text,mode,s.catalog.tokensFor mode text,1⟩
  have current : v.Current host s.catalog := (Catalog.currentLexing lexing key).mpr rfl
  have made : makeView host id text mode s = .ok () {s with views := s.views ++ [v]} := by
    rw [makeView, bindRuns (askRuns (Catalog.tokensInLexing lexing key text))]
    rfl
  refine ⟨(),{s with views := s.views ++ [v], shown := s.shown ++ [id]},?_,coherent.opened fresh key current,
    fun other differs gone => ?_⟩
  · rw [showView, bindRuns getRuns, if_pos coherent.attached, bindRuns made]
    rfl
  · by_contra found
    obtain ⟨w,found⟩ := Option.ne_none_iff_exists'.mp found
    rcases viewEither found with before | ⟨_,same⟩
    · cases gone.symm.trans before
    · exact differs (congrArg some same)

end Session
end LittleMan
