import LittleMan.Proofs.Undoing

/-! Extensions that ask for different names go their own ways. What an extension does is decided by its own record
and by the entries under the names it asks for, and nothing else is changed by it. So however its loads and unloads
are woven with those of another, it comes to what it would have come to alone. -/
namespace LittleMan

structure Plot where
  id : Text
  aliases : List Value
  contentType : Value

def Extension.plot (x : Extension) : Plot := ⟨x.id,x.aliases,x.contentType⟩

/- Nothing is listed that was not asked for. No run comes to anything else: `Session.runModest`. -/
structure Extension.Modest (x : Extension) : Prop where
  modes : ∀ name ∈ x.heldModes, .text name ∈ x.aliases
  contentTypes : ∀ type ∈ x.heldContentTypes, x.contentType = .text type

theorem madeModest (options : Session.ExtensionOptions) (id : Text) : (options.extension id).Modest :=
  ⟨List.forall_mem_nil _,List.forall_mem_nil _⟩

theorem unloadedModest (x : Extension) : (Session.unloaded x).Modest :=
  ⟨List.forall_mem_nil _,List.forall_mem_nil _⟩

theorem Extension.Modest.marked {x : Extension} (modest : x.Modest) : ({x with loaded := true} : Extension).Modest :=
  ⟨modest.modes,modest.contentTypes⟩

structure Plot.Beside (p q : Plot) : Prop where
  id : p.id ≠ q.id
  aliases : ∀ name, .text name ∈ p.aliases → .text name ∉ q.aliases
  contentType : ∀ type, p.contentType = .text type → q.contentType ≠ .text type

theorem Plot.Beside.symm {p q : Plot} (beside : p.Beside q) : q.Beside p :=
  ⟨beside.id.symm,fun name asked other => beside.aliases name other asked,
    fun type asked other => beside.contentType type other asked⟩

inductive Woven {α : Type} : List α → List α → List α → Prop where
  | nil : Woven [] [] []
  | left {a first second both} (rest : Woven first second both) : Woven (a :: first) second (a :: both)
  | right {a first second both} (rest : Woven first second both) : Woven first (a :: second) (a :: both)

theorem wovenLast {α : Type} (second : List α) : Woven [] second second := by
  induction second with
  | nil => exact .nil
  | cons a more ih => exact .right ih

theorem wovenAppend {α : Type} (first second : List α) : Woven first second (first ++ second) := by
  induction first with
  | nil => exact wovenLast second
  | cons a more ih => exact .left ih

theorem Woven.swap {α : Type} {first second both : List α} (woven : Woven first second both) :
    Woven second first both := by
  induction woven with
  | nil => exact .nil
  | left _ ih => exact .right ih
  | right _ ih => exact .left ih

namespace Session
variable {α β : Type} {a : Action α} {f : α → Action β} {host : Host} {invoke : Callback → Action Unit}
  {programs : Text → List Op} {s t u v : Session} {x y : Extension} {p q : Plot} {id : Text}

structure Beyond (p : Plot) (s t : Session) : Prop where
  extension : ∀ id, id ≠ p.id → t.extension? id = s.extension? id
  modes : ∀ name, .text name ∉ p.aliases → t.catalog.modes.get? name = s.catalog.modes.get? name
  contentTypes : ∀ type, p.contentType ≠ .text type →
    t.catalog.contentTypes.get? type = s.catalog.contentTypes.get? type

theorem beyondComposes (p : Plot) : Composes (Beyond p) where
  refl _ := ⟨fun _ _ => rfl,fun _ _ => rfl,fun _ _ => rfl⟩
  trans first second := ⟨fun id other => (second.extension id other).trans (first.extension id other),
    fun name other => (second.modes name other).trans (first.modes name other),
    fun type other => (second.contentTypes type other).trans (first.contentTypes type other)⟩

theorem SameTables.beyond (same : SameTables s t) (p : Plot) : Beyond p s t :=
  ⟨fun id _ => (same.apart id).extension,fun _ _ => by rw [same.catalog],fun _ _ => by rw [same.catalog]⟩

theorem changedBeyond {change : Extension → Extension} (kept : ∀ x, (change x).id = x.id) (s : Session) (p : Plot) :
    Beyond p s (s.withExtension p.id change) :=
  ⟨fun _ other => (changedApart kept other).extension,fun _ _ => rfl,fun _ _ => rfl⟩

theorem installBeyond (host : Host) (x : Extension) : Within (Beyond x.plot) (install host x) := by
  have composes := beyondComposes x.plot
  refine installWithin composes (fun asked inside => ?_) (fun first => ?_)
    (fun s modes types => changedBeyond (listingKeeps modes types) s x.plot) fun notice s => ?_
  · refine withinChange composes fun s d done => ?_
    obtain ⟨name,rfl,_,_,types,modes⟩ := Catalog.insertModeDone done
    refine ⟨fun _ _ => rfl,fun other beyond => ?_,fun _ _ => types ▸ rfl⟩
    have unasked : other ∉ [name] := fun same => beyond (List.mem_singleton.mp same ▸ inside)
    exact (congrFun modes other).trans (Table.grantedOther unasked)
  · refine withinChange composes fun s d done => ?_
    obtain ⟨type,_,asks,_,_,_,modes,types⟩ := Catalog.insertContentTypeDone done
    refine ⟨fun _ _ => rfl,fun _ _ => modes ▸ rfl,fun other beyond => ?_⟩
    have unasked : other ∉ [type] := fun same => beyond (List.mem_singleton.mp same ▸ asks)
    exact (congrFun types other).trans (Table.grantedOther unasked)
  · have told : SameTables s (left (tell notice s)) := ⟨rfl,rfl⟩
    exact told.beyond x.plot

theorem loadBeyond (host : Host) (refreshes : Within SameTables (invoke (.refresh x.id)))
    (found : s.extension? x.id = some x) : Beyond x.plot s (left (load host invoke x.id s)) := by
  have composes := beyondComposes x.plot
  refine loadAnew composes fun y _ there _ => ?_
  cases found.symm.trans there
  refine leftBind composes (installBeyond host x s) fun _ t _ => ?_
  have kept : ∀ y : Extension, ({y with loaded := true} : Extension).id = y.id := fun _ => rfl
  have marks : Within (Beyond x.plot)
      (modify fun s : Session => s.withExtension x.id fun x => {x with loaded := true}) :=
    fun s => changedBeyond kept s x.plot
  exact withinBind composes marks (fun _ s => (whenRefreshTables refreshes s).beyond x.plot) t

theorem unloadBeyond (host : Host) (found : s.extension? x.id = some x) (modest : x.Modest) :
    Beyond x.plot s (left (unload host x.id s)) := by
  refine unloadRevokes (beyondComposes x.plot) (fun same => same.toSameTables.beyond x.plot)
    fun {y c} ns _ there _ revoked => ?_
  cases found.symm.trans there
  have kept : ∀ y, (unloaded y).id = y.id := fun _ => rfl
  refine ⟨(changedBeyond kept s x.plot).extension,fun name beyond => ?_,fun type beyond => ?_⟩
  · exact (congrFun revoked.modes name).trans (Table.revokedOther fun lists => beyond (modest.modes name lists))
  · exact (congrFun revoked.contentTypes type).trans
      (Table.revokedOther fun lists => beyond (modest.contentTypes type lists))

structure Alike (p : Plot) (s t : Session) : Prop where
  found : ∃ x, s.extension? p.id = some x ∧ t.extension? p.id = some x ∧ x.plot = p ∧ x.Modest
  modes : ∀ name, .text name ∈ p.aliases → t.catalog.modes.get? name = s.catalog.modes.get? name
  contentTypes : ∀ type, p.contentType = .text type →
    t.catalog.contentTypes.get? type = s.catalog.contentTypes.get? type

theorem alikeRefl (found : s.extension? x.id = some x) (modest : x.Modest) : Alike x.plot s s :=
  ⟨⟨x,found,found,rfl,modest⟩,fun _ _ => rfl,fun _ _ => rfl⟩

theorem Alike.tables (alike : Alike p s t) (first : SameTables s u) (second : SameTables t v) : Alike p u v := by
  obtain ⟨x,found,same,named⟩ := alike.found
  refine ⟨⟨x,(first.apart p.id).extension.trans found,(second.apart p.id).extension.trans same,named⟩,?_,?_⟩
  · rw [first.catalog, second.catalog]
    exact alike.modes
  · rw [first.catalog, second.catalog]
    exact alike.contentTypes

theorem Alike.changed {change : Extension → Extension} (alike : Alike p s t) (kept : ∀ x, (change x).plot = x.plot)
    (modest : ∀ x, x.plot = p → x.Modest → (change x).Modest) :
    Alike p (s.withExtension p.id change) (t.withExtension p.id change) := by
  obtain ⟨x,found,same,named,was⟩ := alike.found
  have ids : ∀ x, (change x).id = x.id := fun x => congrArg Plot.id (kept x)
  exact ⟨⟨change x,changedFound ids found,changedFound ids same,(kept x).trans named,modest x named was⟩,
    alike.modes,alike.contentTypes⟩

theorem Alike.listing (alike : Alike p s t) {modes types : List Text}
    (asked : ∀ name ∈ modes, .text name ∈ p.aliases) (typed : ∀ type ∈ types, p.contentType = .text type) :
    Alike p (s.withExtension p.id (listing modes types)) (t.withExtension p.id (listing modes types)) := by
  refine alike.changed (fun _ => rfl) fun x named was => ⟨fun name lists => ?_,fun type lists => ?_⟩
  · subst named
    exact (List.mem_append.mp lists).elim (was.modes name) (asked name)
  · subst named
    exact (List.mem_append.mp lists).elim (was.contentTypes type) (typed type)

theorem Beyond.alike (beyond : Beyond q s t) (beside : p.Beside q) (found : s.extension? p.id = some x)
    (named : x.plot = p) (modest : x.Modest) : Alike p s t :=
  ⟨⟨x,found,(beyond.extension p.id beside.id).trans found,named,modest⟩,
    fun name asked => beyond.modes name (beside.aliases name asked),
    fun type asked => beyond.contentTypes type (beside.contentType type asked)⟩

theorem alikeTrans (first : Alike p s t) (second : Alike p t u) : Alike p s u := by
  obtain ⟨x,found,same,named⟩ := first.found
  obtain ⟨y,there,after,_⟩ := second.found
  cases same.symm.trans there
  exact ⟨⟨x,found,after,named⟩,fun name asked => (second.modes name asked).trans (first.modes name asked),
    fun type asked => (second.contentTypes type asked).trans (first.contentTypes type asked)⟩

theorem Alike.sameExtension (first : Alike p s t) (second : Alike p s u) : t.extension? p.id = u.extension? p.id := by
  obtain ⟨x,found,same,_⟩ := first.found
  obtain ⟨y,there,after,_⟩ := second.found
  cases found.symm.trans there
  exact same.trans after.symm

inductive Matched (R : Session → Session → Prop) {α : Type} :
    EStateM.Result Failure Session α → EStateM.Result Failure Session α → Prop where
  | ok {s t : Session} (answer : α) (related : R s t) : Matched R (.ok answer s) (.ok answer t)
  | error {s t : Session} (e f : Failure) (related : R s t) : Matched R (.error e s) (.error f t)

theorem Matched.left {R : Session → Session → Prop} {outcome other : EStateM.Result Failure Session α}
    (matched : Matched R outcome other) : R (left outcome) (left other) := by
  cases matched with
  | ok _ related => exact related
  | error _ _ related => exact related

theorem matchedThen {R : Session → Session → Prop}
    {Q : EStateM.Result Failure Session β → EStateM.Result Failure Session β → Prop}
    (first : Matched R (a s) (a t)) (next : ∀ answer {u v}, R u v → Q (f answer u) (f answer v))
    (fails : ∀ e g {u v}, R u v → Q (.error e u) (.error g v)) : Q ((a >>= f) s) ((a >>= f) t) := by
  generalize ran : a s = outcome at first
  generalize same : a t = other at first
  cases first with
  | ok answer related =>
    rw [bindRuns ran, bindRuns same]
    exact next answer related
  | error e g related =>
    rw [bindFails ran, bindFails same]
    exact fails e g related

theorem matchedBind {R : Session → Session → Prop} (first : Matched R (a s) (a t))
    (next : ∀ answer {u v}, R u v → Matched R (f answer u) (f answer v)) :
    Matched R ((a >>= f) s) ((a >>= f) t) :=
  matchedThen first next fun e g _ _ related => .error e g related

theorem changeGranted {operation : Catalog → Except Failure Catalog.Change} {d e : Catalog.Change}
    (alike : Alike p s t) (done : operation s.catalog = .ok d) (same : operation t.catalog = .ok e)
    (answer : e.answer = d.answer)
    (modes : ∀ name, .text name ∈ p.aliases → e.catalog.modes.get? name = d.catalog.modes.get? name)
    (contentTypes : ∀ type, p.contentType = .text type →
      e.catalog.contentTypes.get? type = d.catalog.contentTypes.get? type) :
    Matched (Alike p) (change operation s) (change operation t) := by
  rw [changeRuns done, changeRuns same, answer]
  exact .ok d.answer ⟨alike.found,modes,contentTypes⟩

theorem changeRefused {operation : Catalog → Except Failure Catalog.Change} {e g : Failure} (alike : Alike p s t)
    (failed : operation s.catalog = .error e) (same : operation t.catalog = .error g) :
    Matched (Alike p) (change operation s) (change operation t) := by
  rw [changeFails failed, changeFails same]
  exact .error e g alike

theorem insertModeAlike {v : Value} (asked : v ∈ x.aliases) (alike : Alike x.plot s t) :
    Matched (Alike x.plot) (change (fun c => c.insertMode host.mode v x.lexer (.extension x.id)) s)
      (change (fun c => c.insertMode host.mode v x.lexer (.extension x.id)) t) := by
  by_cases faulty : v.isName = false ∨ (host.mode x.lexer).lacks? ≠ none
  · obtain ⟨name,reason,failed⟩ := Catalog.insertModeFaulty x.lexer faulty
    exact changeRefused alike (failed s.catalog _) (failed t.catalog _)
  · rw [not_or, not_not, Bool.not_eq_false] at faulty
    obtain ⟨name,rfl,filled⟩ := Value.nameText faulty.1
    obtain ⟨d,done,answer,_,types,modes⟩ :=
      Catalog.insertModeGrants s.catalog (.extension x.id) filled faulty.2
    obtain ⟨e,same,other,_,sameTypes,sameModes⟩ :=
      Catalog.insertModeGrants t.catalog (.extension x.id) filled faulty.2
    refine changeGranted alike done same ?_ (fun name asked => ?_) fun type asked => ?_
    · rw [other, answer, Table.free, Table.free, alike.modes name asked]
    · rw [sameModes, modes]
      exact Table.grantedAlike (alike.modes name asked) _ _ _
    · rw [sameTypes, types]
      exact alike.contentTypes type asked

theorem installModesAlike {names : List Value} (asked : ∀ v ∈ names, v ∈ x.aliases) (alike : Alike x.plot s t) :
    Matched (Alike x.plot) (installModes host x names s) (installModes host x names t) := by
  induction names generalizing s t with
  | nil => exact .ok () alike
  | cons v more ih =>
    have later := fun {s t} => ih (s := s) (t := t) fun w inside => asked w (List.mem_cons_of_mem _ inside)
    refine matchedBind (insertModeAlike (asked v List.mem_cons_self) alike) fun held u v alike => ?_
    split
    · rename_i name
      rw [← listingMode name]
      have mine : ∀ other ∈ [name], .text other ∈ x.aliases := fun other inside =>
        List.mem_singleton.mp inside ▸ asked _ List.mem_cons_self
      exact later (alike.listing mine (List.forall_mem_nil _))
    · exact later alike

theorem insertContentTypeAlike {first : Text} (asked : .text first ∈ x.aliases) (alike : Alike x.plot s t) :
    Matched (Alike x.plot) (change (fun c => c.insertContentType x.contentType (.text first) (.extension x.id)) s)
      (change (fun c => c.insertContentType x.contentType (.text first) (.extension x.id)) t) := by
  cases named : x.contentType.isName with
  | false =>
    have failed (c : Catalog) : c.insertContentType x.contentType (.text first) (.extension x.id) =
        .error (.registration x.contentType .emptyName) := by
      rw [Catalog.insertContentType, Catalog.validNameFaulty named]
      rfl
    exact changeRefused alike (failed s.catalog) (failed t.catalog)
  | true =>
    obtain ⟨type,own,filled⟩ := Value.nameText named
    rw [own]
    cases found : s.catalog.modes.get? first with
    | none =>
      have missing := (alike.modes first asked).trans found
      exact changeRefused alike (Catalog.insertContentTypeUnknown _ filled found)
        (Catalog.insertContentTypeUnknown _ filled missing)
    | some entry =>
      have there := (alike.modes first asked).trans found
      obtain ⟨d,done,answer,_,modes,types⟩ :=
        Catalog.insertContentTypeGrants (.extension x.id) filled found
      obtain ⟨e,same,other,_,sameModes,sameTypes⟩ :=
        Catalog.insertContentTypeGrants (.extension x.id) filled there
      refine changeGranted alike done same ?_ (fun name asked => ?_) fun type asked => ?_
      · rw [other, answer, Table.free, Table.free, alike.contentTypes type own]
      · rw [sameModes, modes]
        exact alike.modes name asked
      · rw [sameTypes, types]
        exact Table.grantedAlike (alike.contentTypes type asked) _ _ _

theorem installContentTypeAlike {installed : List Text} (asked : ∀ name ∈ installed, .text name ∈ x.aliases)
    (alike : Alike x.plot s t) :
    Matched (Alike x.plot) (installContentType x installed s) (installContentType x installed t) := by
  cases installed with
  | nil => exact .ok () alike
  | cons first more =>
    refine matchedBind (insertContentTypeAlike (asked first List.mem_cons_self) alike) fun held u v alike => ?_
    cases held with
    | false => exact .ok () alike
    | true =>
      cases own : x.contentType with
      | text type =>
        have mine : ∀ other ∈ [type], x.contentType = .text other := fun other inside =>
          List.mem_singleton.mp inside ▸ own
        have listed := alike.listing (List.forall_mem_nil _) mine
        rw [listingContentType] at listed
        exact .ok () listed
      | _ => exact .ok () alike

theorem heldModesAlike (alike : Alike x.plot s t) :
    ∃ names, heldModes x.id s = .ok names s ∧ heldModes x.id t = .ok names t ∧
      ∀ name ∈ names, .text name ∈ x.aliases := by
  obtain ⟨y,found,same,named,modest⟩ := alike.found
  have aliases : y.aliases = x.aliases := congrArg Plot.aliases named
  exact ⟨y.heldModes,heldModesRuns found,heldModesRuns same,aliases ▸ modest.modes⟩

theorem installAlike (alike : Alike x.plot s t) : Matched (Alike x.plot) (install host x s) (install host x t) := by
  refine matchedBind (installModesAlike (fun _ inside => inside) alike) fun _ s t alike => ?_
  obtain ⟨names,lists,same,mine⟩ := heldModesAlike alike
  rw [bindRuns lists, bindRuns same]
  refine matchedBind (installContentTypeAlike mine alike) fun _ s t alike => ?_
  obtain ⟨names,lists,same,_⟩ := heldModesAlike alike
  rw [bindRuns lists, bindRuns same]
  obtain ⟨ns,told⟩ := reportRuns _ _ (.installed names) s
  obtain ⟨ms,retold⟩ := reportRuns _ _ (.installed names) t
  have reported := Matched.ok () (alike.tables (u := {s with notices := ns}) (v := {t with notices := ms})
    ⟨rfl,rfl⟩ ⟨rfl,rfl⟩)
  rw [← told, ← retold] at reported
  exact reported

theorem loadAlike (refreshes : Within SameTables (invoke (.refresh p.id))) (alike : Alike p s t) :
    Alike p (left (load host invoke p.id s)) (left (load host invoke p.id t)) := by
  obtain ⟨x,found,same,rfl,modest⟩ := alike.found
  cases inactive : x.loaded with
  | true =>
    rw [loadNothing host invoke fun y there => Option.some.inj (found.symm.trans there) ▸ inactive,
      loadNothing host invoke fun y there => Option.some.inj (same.symm.trans there) ▸ inactive]
    exact alike
  | false =>
    rw [loadInstalls invoke found inactive, loadInstalls invoke same inactive]
    refine matchedThen (Q := fun outcome other => Alike x.plot (left outcome) (left other)) (installAlike alike)
      (fun _ s t alike => ?_) fun _ _ _ _ alike => alike
    rw [bindRuns (modifyRuns _), bindRuns (modifyRuns _)]
    have kept : ∀ y : Extension, ({y with loaded := true} : Extension).plot = y.plot := fun _ => rfl
    have marked := alike.changed kept fun _ _ modest => modest.marked
    exact marked.tables (whenRefreshTables refreshes _) (whenRefreshTables refreshes _)

theorem unloadAlike (alike : Alike p s t) : Alike p (left (unload host p.id s)) (left (unload host p.id t)) := by
  obtain ⟨x,found,same,rfl,modest⟩ := alike.found
  cases active : x.loaded with
  | false =>
    rw [unloadNothing host fun y there => Option.some.inj (found.symm.trans there) ▸ active,
      unloadNothing host fun y there => Option.some.inj (same.symm.trans there) ▸ active]
    exact alike
  | true =>
    obtain ⟨revoked,now,_⟩ := unloadLeaves host found active
    obtain ⟨sameRevoked,sameNow,_⟩ := unloadLeaves host same active
    refine ⟨⟨unloaded x,now,sameNow,rfl,unloadedModest x⟩,fun name asked => ?_,fun type asked => ?_⟩
    · rw [revoked.modes, sameRevoked.modes]
      exact Table.revokedAlike (alike.modes name asked) _ _
    · rw [revoked.contentTypes, sameRevoked.contentTypes]
      exact Table.revokedAlike (alike.contentTypes type asked) _ _

def Measured (id : Text) (s : Session) : Prop := ∀ x, s.extension? id = some x → x.Modest

theorem measuredPrivate (id : Text) : Private id (Measured id) where
  apart apart measured x found := measured x (apart.extension.symm.trans found)
  made {s} options none _ x found := by
    rw [extensionAdded, none, Option.none_or] at found
    cases (if_pos rfl).symm.trans found
    exact madeModest options id
  unloaded {s t x} _ _ _ now _ y found := by
    cases now.symm.trans found
    exact unloadedModest x

theorem loadMeasured (host : Host) (invoked : ∀ callback, Within (Keeps (Measured id)) (invoke callback)) :
    Within (Keeps (Measured id)) (load host invoke id) := by
  have composes := keepsComposes (Measured id)
  refine fun s => loadAnew composes fun x named found _ => ?_
  subst named
  refine leftBind composes (fun measured y there => ?_) fun _ t _ =>
    withinBind composes (fun u measured y there => ?_)
      (fun _ => whenReadyKeeps (measuredPrivate x.id) invoked _) t
  · have installed : Matched (Alike x.plot) (install host x s) (install host x s) :=
      installAlike (alikeRefl found (measured x found))
    obtain ⟨z,now,_,_,modest⟩ := installed.left.found
    exact Option.some.inj (now.symm.trans there) ▸ modest
  · have kept : ∀ z : Extension, ({z with loaded := true} : Extension).id = z.id := fun _ => rfl
    have changed : (u.withExtension x.id fun z => {z with loaded := true}).extension? x.id = _ :=
      extensionChanged kept x.id x.id
    obtain ⟨z,before,rfl⟩ := Option.map_eq_some_iff.mp (changed.symm.trans there)
    rw [if_pos rfl]
    exact (measured z before).marked

theorem performOneMeasured (invoked : ∀ callback, Within (Keeps (Measured id)) (invoke callback)) {op : Op}
    (single : op.single = true) : Within (Keeps (Measured id)) (perform host invoke op) := by
  have composes := keepsComposes (Measured id)
  have changes (operation : Catalog → Except Failure Catalog.Change) :
      Within (Keeps (Measured id)) (change operation) :=
    withinChange composes fun _ _ _ measured => measured
  by_cases sparing : op.Sparing id
  · exact performOneKeeps (measuredPrivate id) invoked single sparing
  -- What is left is done by the extension itself, or in its name.
  · cases op with
    | insertMode _ _ _ | eraseMode _ _ | insertContentType _ _ _ | eraseContentType _ _ =>
      rw [perform]
      exact withinMap composes (changes _) _
    | load other =>
      obtain rfl : id = other := not_not.mp sparing
      rw [perform]
      exact withinMap composes (loadMeasured host invoked) _
    | eachView ops => contradiction
    | _ => exact absurd trivial sparing

theorem performMeasured (invoked : ∀ callback, Within (Keeps (Measured id)) (invoke callback)) (op : Op) :
    Within (Keeps (Measured id)) (perform host invoke op) :=
  performWithin (keepsComposes _) (fun _ => True) (fun _ _ _ _ => trivial)
    (fun _ single _ => performOneMeasured invoked single) op trivial

theorem invokeMeasured (host : Host) (programs : Text → List Op) (id : Text) (depth : Nat) (callback : Callback) :
    Within (Keeps (Measured id)) (invokeWithin host programs depth callback) :=
  invokeAllowed (keepsComposes _) (fun _ => True)
    (fun same => (measuredPrivate id).apart (same.toSameTables.apart id))
    (fun other s => (measuredPrivate id).apart ((refreshWhenReadyTables host other s).apart id))
    (fun _ _ _ => trivial) (fun _ invoked op _ => performMeasured invoked op) depth callback

theorem stepMeasured (host : Host) (programs : Text → List Op) (op : Op) (measured : Measured id s) :
    Measured id (step host programs s op).2 := by
  rw [stepLeft]
  exact performMeasured (invokeMeasured host programs id depthLimit) op s.afresh measured

theorem runMeasured (host : Host) (programs : Text → List Op) (ops : List Op) (measured : Measured id s) :
    Measured id (ending host programs s ops) := by
  induction ops generalizing s with
  | nil => exact measured
  | cons op more ih =>
    rw [endingMore]
    exact ih (stepMeasured host programs op measured)

theorem runModest (host : Host) (programs : Text → List Op) (attached : Bool) (ops : List Op)
    (found : (ending host programs (.start attached) ops).extension? id = some x) : x.Modest :=
  runMeasured host programs ops (fun _ there => by cases there) x found

def Op.Drives (id : Text) (op : Op) : Prop := op = .load id ∨ op = .unload id

theorem afreshTables (s : Session) : SameTables s s.afresh := ⟨rfl,rfl⟩

theorem stepAlike {op : Op} (drives : op.Drives p.id) (alike : Alike p s t) :
    Alike p (step host programs s op).2 (step host programs t op).2 := by
  have begun : Alike p s.afresh t.afresh := alike.tables (afreshTables s) (afreshTables t)
  rcases drives with rfl | rfl
  · rw [stepLoadLeft, stepLoadLeft]
    exact loadAlike (refreshTables host programs p.id) begun
  · rw [stepUnloadLeft, stepUnloadLeft]
    exact unloadAlike begun

theorem stepBeyond {op : Op} (drives : op.Drives x.id) (found : s.extension? x.id = some x) (modest : x.Modest) :
    Beyond x.plot s (step host programs s op).2 := by
  refine (beyondComposes x.plot).trans ((afreshTables s).beyond x.plot) ?_
  rcases drives with rfl | rfl
  · rw [stepLoadLeft]
    exact loadBeyond (s := s.afresh) host (refreshTables host programs x.id) found
  · rw [stepUnloadLeft]
    exact unloadBeyond (s := s.afresh) host found modest

theorem stepWoven {op : Op} (drives : op.Drives p.id) (beside : p.Beside q) (own : Alike p u s) (other : Alike q v s) :
    Alike p (step host programs u op).2 (step host programs s op).2 ∧ Alike q v (step host programs s op).2 ∧
      Beyond p s (step host programs s op).2 := by
  obtain ⟨x,_,found,rfl,modest⟩ := own.found
  obtain ⟨y,_,there,named,kept⟩ := other.found
  have beyond : Beyond x.plot s (step host programs s op).2 := stepBeyond drives found modest
  exact ⟨stepAlike drives own,alikeTrans other (beyond.alike beside.symm there named kept),beyond⟩

structure Outside (p q : Plot) (s t : Session) : Prop where
  modes : ∀ name, .text name ∉ p.aliases → .text name ∉ q.aliases →
    t.catalog.modes.get? name = s.catalog.modes.get? name
  contentTypes : ∀ type, p.contentType ≠ .text type → q.contentType ≠ .text type →
    t.catalog.contentTypes.get? type = s.catalog.contentTypes.get? type

theorem outsideComposes (p q : Plot) : Composes (Outside p q) where
  refl _ := ⟨fun _ _ _ => rfl,fun _ _ _ => rfl⟩
  trans first second := ⟨fun name own other => (second.modes name own other).trans (first.modes name own other),
    fun type own other => (second.contentTypes type own other).trans (first.contentTypes type own other)⟩

theorem wovenAlike {first second calls : List Op} (beside : p.Beside q) (woven : Woven first second calls)
    (drives : ∀ op ∈ first, op.Drives p.id) (others : ∀ op ∈ second, op.Drives q.id) (own : Alike p u s)
    (other : Alike q v s) :
    Alike p (ending host programs u first) (ending host programs s calls) ∧
      Alike q (ending host programs v second) (ending host programs s calls) ∧
      Outside p q s (ending host programs s calls) := by
  have composes := outsideComposes p q
  induction woven generalizing s u v with
  | nil => exact ⟨own,other,composes.refl s⟩
  | left rest ih =>
    rw [List.forall_mem_cons] at drives
    obtain ⟨goes,keeps,beyond⟩ := stepWoven drives.1 beside own other
    obtain ⟨ends,otherEnds,outside⟩ := ih drives.2 others goes keeps
    rw [endingMore, endingMore]
    exact ⟨ends,otherEnds,composes.trans
      ⟨fun name own _ => beyond.modes name own,fun type own _ => beyond.contentTypes type own⟩ outside⟩
  | right rest ih =>
    rw [List.forall_mem_cons] at others
    obtain ⟨goes,keeps,beyond⟩ := stepWoven others.1 beside.symm other own
    obtain ⟨ends,otherEnds,outside⟩ := ih drives others.2 keeps goes
    rw [endingMore, endingMore]
    exact ⟨ends,otherEnds,composes.trans
      ⟨fun name _ other => beyond.modes name other,fun type _ other => beyond.contentTypes type other⟩ outside⟩

theorem extensionsIndependent (host : Host) (programs : Text → List Op) {first second calls whole : List Op}
    (found : s.extension? x.id = some x) (there : s.extension? y.id = some y) (beside : x.plot.Beside y.plot)
    (modest : x.Modest) (otherModest : y.Modest) (drives : ∀ op ∈ first, op.Drives x.id)
    (others : ∀ op ∈ second, op.Drives y.id) (woven : Woven first second calls)
    (sequence : whole = first ++ second ∨ whole = second ++ first) :
    let t := ending host programs s calls
    let u := ending host programs s whole
    t.catalog.modes.get? = u.catalog.modes.get? ∧ t.catalog.contentTypes.get? = u.catalog.contentTypes.get? ∧
      t.extension? x.id = u.extension? x.id ∧ t.extension? y.id = u.extension? y.id := by
  intro t u
  have wholeWoven : Woven first second whole := by
    rcases sequence with rfl | rfl
    · exact wovenAppend first second
    · exact (wovenAppend second first).swap
  have own := alikeRefl found modest
  have other := alikeRefl there otherModest
  obtain ⟨ends,otherEnds,outside⟩ := wovenAlike beside woven drives others own other
  obtain ⟨wholeEnds,wholeOtherEnds,wholeOutside⟩ :=
    wovenAlike beside wholeWoven drives others own other
  refine ⟨funext fun name => ?_,funext fun type => ?_,?_,?_⟩
  · by_cases asked : .text name ∈ x.aliases
    · exact (ends.modes name asked).trans (wholeEnds.modes name asked).symm
    · by_cases otherAsked : .text name ∈ y.aliases
      · exact (otherEnds.modes name otherAsked).trans (wholeOtherEnds.modes name otherAsked).symm
      · exact (outside.modes name asked otherAsked).trans (wholeOutside.modes name asked otherAsked).symm
  · by_cases asked : x.contentType = .text type
    · exact (ends.contentTypes type asked).trans (wholeEnds.contentTypes type asked).symm
    · by_cases otherAsked : y.contentType = .text type
      · exact (otherEnds.contentTypes type otherAsked).trans (wholeOtherEnds.contentTypes type otherAsked).symm
      · exact (outside.contentTypes type asked otherAsked).trans
          (wholeOutside.contentTypes type asked otherAsked).symm
  · exact ends.sameExtension wholeEnds
  · exact otherEnds.sameExtension wholeOtherEnds

theorem wovenAroundHost :
    let host : Host := ⟨fun _ => Mode.lexer,.standard⟩
    let calls : Text → List Op := fun _ => []
    let asks : ExtensionOptions := ⟨none,some [.text ['a'],.text ['c']],some (.text ['b'])⟩
    let others : ExtensionOptions := ⟨none,some [.text ['b']],some (.text ['a'])⟩
    let x : Extension := asks.extension ['p']
    let y : Extension := others.extension ['q']
    let s : Session :=
      {Session.start true with catalog := ⟨[⟨['a'],.host [],.host⟩],[]⟩, extensions := [x,y]}
    let woven : List Op := [.load x.id,.load y.id,.unload x.id,.unload y.id,.load x.id]
    let whole : List Op := [.load y.id,.unload y.id,.load x.id,.unload x.id,.load x.id]
    (ending host calls s woven).catalog.modes.held (.extension x.id) ['c'] = true ∧
      (ending host calls s woven).catalog.modes.get? = (ending host calls s whole).catalog.modes.get? ∧
      (ending host calls s woven).extension? x.id = (ending host calls s whole).extension? x.id := by
  intro host calls asks others x y s woven whole
  have held : (ending host calls s woven).catalog.modes.held (.extension x.id) ['c'] = true := by decide +kernel
  have beside : x.plot.Beside y.plot := by
    refine ⟨by decide,fun name asked other => ?_,fun type own other => ?_⟩
    · cases Value.text.inj (List.mem_singleton.mp other)
      exact absurd asked (by simp [x, asks, Extension.plot, ExtensionOptions.extension])
    · exact absurd (own.trans other.symm) (by simp [x, y, asks, others, Extension.plot, ExtensionOptions.extension])
  have weaving : Woven [.load x.id,.unload x.id,.load x.id] [.load y.id,.unload y.id] woven :=
    .left (.right (.left (.right (.left .nil))))
  have drives : ∀ op ∈ [.load x.id,.unload x.id,.load x.id], Op.Drives x.id op := by simp [Op.Drives]
  have otherDrives : ∀ op ∈ [.load y.id,.unload y.id], Op.Drives y.id op := by simp [Op.Drives]
  have sequence : whole = [.load y.id,.unload y.id] ++ [.load x.id,.unload x.id,.load x.id] := rfl
  have independent := extensionsIndependent (s := s) host calls rfl rfl beside (madeModest _ _) (madeModest _ _)
    drives otherDrives weaving (.inr sequence)
  exact ⟨held,independent.1,independent.2.2.1⟩

end Session
end LittleMan
