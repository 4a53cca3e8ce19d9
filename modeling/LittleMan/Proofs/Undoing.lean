import LittleMan.Proofs.Holdings
import LittleMan.Proofs.Waiting

/-! Unloading takes back what loading did. Loading leaves the entries of everybody else alone, and lists what it
takes for the extension; unloading gives back what is listed. So where the extension had nothing at first, it is
all as before. -/
namespace LittleMan.Session
variable {host : Host} {invoke : Callback → Action Unit} {programs : Text → List Op} {s t : Session}
  {x : Extension} {id : Text} {op : Op}

structure OthersKept (id : Text) (s t : Session) : Prop where
  modes : ∀ owner, owner ≠ .extension id → s.catalog.modes.SameFor owner t.catalog.modes
  contentTypes : ∀ owner, owner ≠ .extension id → s.catalog.contentTypes.SameFor owner t.catalog.contentTypes

theorem othersKeptComposes (id : Text) : Composes (OthersKept id) where
  refl _ := ⟨fun _ _ => Table.sameForRefl _ _,fun _ _ => Table.sameForRefl _ _⟩
  trans first second := ⟨fun owner other => Table.sameForTrans (first.modes owner other) (second.modes owner other),
    fun owner other => Table.sameForTrans (first.contentTypes owner other) (second.contentTypes owner other)⟩

theorem othersSame (same : t.catalog = s.catalog) (id : Text) : OthersKept id s t := by
  refine ⟨fun owner _ => ?_,fun owner _ => ?_⟩
  · rw [same]
    exact Table.sameForRefl _ _
  · rw [same]
    exact Table.sameForRefl _ _

theorem revokedOthers (revoked : x.Revoked s.catalog t.catalog) : OthersKept x.id s t :=
  ⟨fun _ other => Table.revokedSameFor other revoked.modes,
    fun _ other => Table.revokedSameFor other revoked.contentTypes⟩

theorem installOthers (host : Host) (x : Extension) : Within (OthersKept x.id) (install host x) := by
  have composes := othersKeptComposes x.id
  refine installWithin composes (fun name _ => ?_) (fun name => ?_) (fun _ _ _ => othersSame (by rfl) x.id)
    fun _ _ => othersSame (by rfl) x.id
  · refine withinChange composes fun s d done => ?_
    obtain ⟨_,_,_,_,types,modes⟩ := Catalog.insertModeDone done
    exact ⟨fun _ other => Table.grantedSameFor other modes,fun _ _ => types ▸ Table.sameForRefl _ _⟩
  · refine withinChange composes fun s d done => ?_
    obtain ⟨_,_,_,_,_,_,modes,types⟩ := Catalog.insertContentTypeDone done
    exact ⟨fun _ _ => modes ▸ Table.sameForRefl _ _,fun _ other => Table.grantedSameFor other types⟩

theorem loadOthers (host : Host) (refreshes : Within SameTables (invoke (.refresh id))) :
    Within (OthersKept id) (load host invoke id) :=
  loadWithin (othersKeptComposes id) (fun x named => named ▸ installOthers host x) (fun _ => othersSame (by rfl) id)
    fun s => othersSame (whenRefreshTables refreshes s).catalog id

def Inscribed (id : Text) (s : Session) : Prop :=
  ∃ x, s.extension? id = some x ∧
    (∀ name, s.catalog.modes.held (.extension id) name = true → name ∈ x.heldModes) ∧
    ∀ type, s.catalog.contentTypes.held (.extension id) type = true → type ∈ x.heldContentTypes

theorem Inscribed.same (inscribed : Inscribed id s) (same : SameTables s t) : Inscribed id t := by
  obtain ⟨x,found,lists⟩ := inscribed
  exact ⟨x,(same.apart id).extension.trans found,same.catalog ▸ lists⟩

theorem Inscribed.more (inscribed : Inscribed id s) {c : Catalog} (ns : List Notice) {modes types : List Text}
    (modesHeld : ∀ name, c.modes.held (.extension id) name = true →
      s.catalog.modes.held (.extension id) name = true ∨ name ∈ modes)
    (typesHeld : ∀ type, c.contentTypes.held (.extension id) type = true →
      s.catalog.contentTypes.held (.extension id) type = true ∨ type ∈ types) :
    Inscribed id (({s with catalog := c, notices := ns} : Session).withExtension id (listing modes types)) := by
  obtain ⟨x,found,lists,typeLists⟩ := inscribed
  refine ⟨listing modes types x,?_,fun name held => ?_,fun type held => ?_⟩
  · exact changedFound (listingKeeps modes types) found
  · exact List.mem_append.mpr ((modesHeld name held).imp_left (lists name))
  · exact List.mem_append.mpr ((typesHeld type held).imp_left (typeLists type))

theorem installModesInscribed (host : Host) (x : Extension) (names : List Value) :
    Within (Keeps (Inscribed x.id)) (installModes host x names) := by
  induction names with
  | nil => exact (keepsComposes _).refl
  | cons name more ih =>
    intro s
    rw [installModes]
    cases done : s.catalog.insertMode host.mode name x.lexer (.extension x.id) with
    | error e =>
      rw [bindFails (changeFails done)]
      exact (keepsComposes _).refl s
    | ok d =>
      rw [bindRuns (changeRuns done)]
      obtain ⟨name,rfl,_,idle,types,modes⟩ := Catalog.insertModeDone done
      cases taken : d.answer with
      | false =>
        have same : SameTables s {s with catalog := d.catalog, notices := s.notices ++ d.notices} := ⟨idle taken,rfl⟩
        exact (keepsComposes _).trans (fun inscribed => inscribed.same same) (ih _)
      | true =>
        have listed : Keeps (Inscribed x.id) s (({s with catalog := d.catalog, notices := s.notices ++ d.notices} :
            Session).withExtension x.id (listing [name] [])) := by
          refine fun inscribed => inscribed.more _ (fun _ => Table.heldGranted modes) fun _ => ?_
          rw [types]
          exact .inl
        rw [listingMode] at listed
        exact (keepsComposes _).trans listed (ih _)

theorem installContentTypeInscribed (x : Extension) (installed : List Text) :
    Within (Keeps (Inscribed x.id)) (installContentType x installed) := by
  intro s
  cases installed with
  | nil => exact (keepsComposes _).refl s
  | cons first more =>
    rw [installContentType]
    cases done : s.catalog.insertContentType x.contentType (.text first) (.extension x.id) with
    | error e =>
      rw [bindFails (changeFails done)]
      exact (keepsComposes _).refl s
    | ok d =>
      rw [bindRuns (changeRuns done)]
      obtain ⟨type,_,asks,_,_,idle,modes,types⟩ := Catalog.insertContentTypeDone done
      rw [asks]
      cases taken : d.answer with
      | false =>
        have same : SameTables s {s with catalog := d.catalog, notices := s.notices ++ d.notices} := ⟨idle taken,rfl⟩
        exact fun inscribed => inscribed.same same
      | true =>
        have listed : Keeps (Inscribed x.id) s (({s with catalog := d.catalog, notices := s.notices ++ d.notices} :
            Session).withExtension x.id (listing [] [type])) := by
          refine fun inscribed => inscribed.more _ (fun _ => ?_) fun _ => Table.heldGranted types
          rw [modes]
          exact .inl
        rw [listingContentType] at listed
        exact listed

theorem loadInscribed (host : Host) (refreshes : Within SameTables (invoke (.refresh id))) :
    Within (Keeps (Inscribed id)) (load host invoke id) := by
  have composes := keepsComposes (Inscribed id)
  refine loadWithin composes (fun x named => ?_) (fun s inscribed => ?_) fun s inscribed =>
    inscribed.same (whenRefreshTables refreshes s)
  · subst named
    refine installParts composes (installModesInscribed host x x.aliases) (installContentTypeInscribed x)
      fun notice s inscribed => ?_
    have same : SameTables s (left (tell notice s)) := ⟨rfl,rfl⟩
    exact inscribed.same same
  · obtain ⟨x,found,lists⟩ := inscribed
    exact ⟨{x with loaded := true},changedFound (fun _ => rfl) found,lists⟩

def Once (id : Text) (s : Session) : Prop := s.pending.count (.refresh id) ≤ 1

theorem Once.same (once : Once id s) (same : SameLayout s t) : Once id t := by
  rw [Once, same.pending]
  exact once

theorem refreshOnce (host : Host) (id : Text) : Within (Keeps (Once id)) (refreshWhenReady host id) := by
  refine withinBind (keepsComposes _) (fun s once => ?_) fun _ =>
    withinMap (keepsComposes _) (fun s once => once.same (refreshShownViews host id s).toSameLayout) _
  exact Nat.le_trans (List.erase_sublist.count_le _) once

theorem loadOnce (host : Host) (refreshes : Within (Keeps (Once id)) (invoke (.refresh id))) :
    Within (Keeps (Once id)) (load host invoke id) := by
  refine loadWithin (keepsComposes _) (fun x _ s once => once.same (installLayout host x s)) (fun _ once => once)
    fun s => ?_
  cases ready : s.ready with
  | true =>
    rw [whenReadyCalls ready]
    exact refreshes s
  | false =>
    rw [whenReadyWaits ready]
    intro once
    rw [left]
    split
    · exact once
    · rename_i absent
      have added : (s.pending ++ [Callback.refresh id]).count (.refresh id) = 1 := by
        rw [List.count_append, List.count_eq_zero.mpr absent, List.count_singleton_self, Nat.zero_add]
      exact Nat.le_of_eq added

theorem loadedDone (refreshes : Within SameTables (invoke (.refresh id))) (found : s.extension? id = some x)
    (done : load host invoke id s = .ok () t) : t.loads id = true := by
  cases inactive : x.loaded with
  | true =>
    rw [loadNothing host invoke fun y there => Option.some.inj (found.symm.trans there) ▸ inactive] at done
    cases done
    rw [loads, found, Option.any_some, inactive]
  | false =>
    rw [loadInstalls invoke found inactive] at done
    cases ran : install host x s with
    | error e u => cases (bindFails ran).symm.trans done
    | ok _ u =>
      have same := installLoads host x s
      rw [ran] at same
      have there : (u.extension? id).isSome := same.there id (by rw [found]; rfl)
      rw [bindRuns ran, bindRuns (modifyRuns _)] at done
      have refreshed := whenRefreshTables refreshes (u.withExtension id fun x => {x with loaded := true})
      rw [done] at refreshed
      have same : t.extension? id = _ := (refreshed.apart id).extension
      rw [loads, same]
      exact (loadsMarked there id).mpr (.inr rfl)

theorem unloadLeaves (host : Host) (found : t.extension? id = some x) (active : x.loaded = true) :
    x.Revoked t.catalog (left (unload host id t)).catalog ∧
      (left (unload host id t)).extension? id = some (unloaded x) ∧
      (left (unload host id t)).pending = t.pending.erase (.refresh id) := by
  obtain rfl := extensionNamed found
  obtain ⟨c,ns,revoked,ran⟩ := unloadRuns host found active
  have views := withinMap viewsOnlyComposes (refreshShownViews host x.id) (fun _ => ())
    {t.withExtension x.id unloaded with catalog := c, notices := ns, pending := t.pending.erase (.refresh x.id)}
  rw [ran]
  refine ⟨?_,?_,views.pending⟩
  · rw [views.catalog]
    exact revoked
  · have kept : ∀ y, (unloaded y).id = y.id := fun _ => rfl
    exact (views.apart x.id).extension.trans (changedFound kept found)

theorem repeatedIdle (idle : left (perform host (Session.invoke host programs) op s.afresh) = s.afresh) (count : Nat) :
    (ending host programs s (List.replicate count op)).catalog = s.catalog := by
  induction count generalizing s with
  | zero => rfl
  | succ count ih =>
    rw [List.replicate_succ, endingMore, stepLeft, idle]
    exact ih idle

theorem unloadUndoes (host : Host) (inscribed : Inscribed id t) (active : t.loads id = true)
    (others : OthersKept id s t) (modes : ∀ name, s.catalog.modes.held (.extension id) name = false)
    (contentTypes : ∀ type, s.catalog.contentTypes.held (.extension id) type = false) :
    (left (unload host id t)).catalog.modes.get? = s.catalog.modes.get? ∧
      (left (unload host id t)).catalog.contentTypes.get? = s.catalog.contentTypes.get? := by
  obtain ⟨x,found,lists,typeLists⟩ := inscribed
  obtain rfl := extensionNamed found
  have loaded : x.loaded = true := by rwa [loads, found] at active
  obtain ⟨revoked,_⟩ := unloadLeaves host found loaded
  have gone := revoked.holdsNothing lists typeLists
  have kept := (othersKeptComposes x.id).trans others (revokedOthers revoked)
  exact ⟨Table.sameUnheld kept.modes modes gone.modes,Table.sameUnheld kept.contentTypes contentTypes gone.contentTypes⟩

theorem stepUnloadLeft :
    (step host programs s (.unload id)).2 = left (unload host id s.afresh) := by
  rw [stepLeft, perform]
  exact leftMap (unload host id) (fun _ => Answer.nothing) s.afresh

theorem stepLoadDone (done : (step host programs s (.load id)).1.isOk = true) :
    load host (Session.invoke host programs) id s.afresh = .ok () (step host programs s (.load id)).2 := by
  rw [stepLoadLeft]
  cases ran : load host (Session.invoke host programs) id s.afresh with
  | ok _ t => rfl
  | error e t =>
    have failed : perform host (Session.invoke host programs) (.load id) {s with notices := [], calls := []} =
        .error e t := by
      rw [perform]
      exact bindFails ran
    rw [step, failed] at done
    contradiction

theorem loadUndone (host : Host) (programs : Text → List Op) (found : s.extension? id = some x)
    (nothing : x.HoldsNothing s.catalog) (once : s.pending.count (.refresh id) ≤ 1)
    (done : (step host programs s (.load id)).1.isOk = true) :
    let t := (step host programs s (.load id)).2
    let u := (step host programs t (.unload id)).2
    u.catalog.modes.get? = s.catalog.modes.get? ∧ u.catalog.contentTypes.get? = s.catalog.contentTypes.get? ∧
      (∃ y, u.extension? id = some y ∧ y.loaded = false ∧ y.heldModes = []) ∧ .refresh id ∉ u.pending ∧
      ∀ count, (ending host programs t (List.replicate count (.load id))).catalog = t.catalog ∧
        (ending host programs u (List.replicate count (.unload id))).catalog = u.catalog := by
  intro t u
  obtain rfl := extensionNamed found
  have refreshes := refreshTables host programs x.id
  have ran : load host (Session.invoke host programs) x.id s.afresh = .ok () t := stepLoadDone done
  have leaves : left (load host (Session.invoke host programs) x.id s.afresh) = t := congrArg left ran
  have active : t.loads x.id = true := loadedDone (s := s.afresh) refreshes found ran
  have others : OthersKept x.id s.afresh t := leaves ▸ loadOthers host refreshes s.afresh
  have unheld : Inscribed x.id s.afresh := by
    refine ⟨x,found,fun name held => ?_,fun type held => ?_⟩
    · cases (nothing.modes name).symm.trans held
    · cases (nothing.contentTypes type).symm.trans held
  have inscribed : Inscribed x.id t := leaves ▸ loadInscribed host refreshes s.afresh unheld
  have waits : Once x.id t := by
    have invoked : Within (Keeps (Once x.id)) (Session.invoke host programs (.refresh x.id)) := by
      rw [Session.invoke, invokeRefresh]
      exact refreshOnce host x.id
    exact leaves ▸ loadOnce host invoked s.afresh once
  have unloads : u = left (unload host x.id t.afresh) := stepUnloadLeft
  obtain ⟨y,there,loaded⟩ : ∃ y, t.extension? x.id = some y ∧ y.loaded = true := by
    rwa [loads, Option.any_eq_true] at active
  obtain ⟨_,now,pending⟩ := unloadLeaves host (t := t.afresh) there loaded
  obtain ⟨modes,contentTypes⟩ := unloadUndoes host (s := s) (t := t.afresh) inscribed active
    ⟨others.modes,others.contentTypes⟩ nothing.modes nothing.contentTypes
  rw [← unloads] at now pending modes contentTypes
  refine ⟨modes,contentTypes,⟨_,now,rfl,rfl⟩,?_,fun count => ⟨repeatedIdle ?_ count,repeatedIdle ?_ count⟩⟩
  · rw [pending, ← List.count_eq_zero, List.count_erase_self]
    exact Nat.sub_eq_zero_of_le waits
  · have idle : load host (Session.invoke host programs) x.id t.afresh = .ok () t.afresh :=
      loadNothing host _ fun z same => Option.some.inj (there.symm.trans same) ▸ loaded
    rw [perform]
    exact (leftMap _ _ t.afresh).trans (congrArg left idle)
  · have idle : unload host x.id u.afresh = .ok () u.afresh :=
      unloadNothing host fun z same => Option.some.inj (now.symm.trans same) ▸ rfl
    rw [perform]
    exact (leftMap _ _ u.afresh).trans (congrArg left idle)

theorem loadUndoneAround :
    let host : Host := ⟨fun _ => Mode.lexer,.standard⟩
    let p := "p".toList
    let guest : Owner := .guest "g".toList
    let calls : Text → List Op := fun _ => []
    let s := ending host calls (.start true) [.insertMode (.text "b".toList) [] guest,
      .insertContentType (.text "t".toList) (.text "b".toList) guest, .makeExtension p
        ⟨none,some [.text "a".toList,.text "b".toList,.text "a".toList],some (.text "t".toList)⟩]
    (step host calls s (.load p)).2.catalog.modes.held (.extension p) "a".toList = true ∧
      (step host calls (step host calls s (.load p)).2 (.unload p)).2.catalog.modes.get? =
        s.catalog.modes.get? := by
  intro host p guest calls s
  have made : (s.extension? p).isSome = true := by decide +kernel
  have entries : (s.catalog.modes.map (·.owner),s.catalog.contentTypes.map (·.owner)) = ([guest],[guest]) := by
    decide +kernel
  have once : s.pending.count (.refresh p) ≤ 1 := by decide +kernel
  have done : (step host calls s (.load p)).1.isOk = true := by decide +kernel
  have held : (step host calls s (.load p)).2.catalog.modes.held (.extension p) "a".toList = true := by decide +kernel
  obtain ⟨x,found⟩ := Option.isSome_iff_exists.mp made
  have foreign {α : Type} {table : Table α} (owners : table.map (·.owner) = [guest]) (name : Text) :
      table.held (.extension x.id) name = false := by
    rw [← Bool.not_eq_true, Table.heldIff]
    rintro ⟨e,there,own⟩
    have theirs := List.mem_map_of_mem (f := (·.owner)) (List.mem_of_find?_eq_some there)
    rw [owners, own] at theirs
    exact Owner.noConfusion (List.mem_singleton.mp theirs)
  obtain ⟨modes,types⟩ := Prod.mk.inj entries
  exact ⟨held,(loadUndone host calls found ⟨foreign modes,foreign types⟩ once done).1⟩

end LittleMan.Session
