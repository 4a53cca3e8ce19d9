import LittleMan.Proofs.Effects

/-! What others do is done apart from an extension: neither its lists nor its entries in the catalog change, in
whatever way an action ends. So what holds of these alone is kept by all that is done neither by the extension
nor in its name. -/
namespace LittleMan
namespace Session
variable {α : Type} {host : Host} {invoke : Callback → Action Unit} {programs : Text → List Op} {s t : Session}
  {x : Extension} {id : Text} {P : Session → Prop}

structure Apart (id : Text) (s t : Session) : Prop where
  extension : t.extension? id = s.extension? id
  modes : s.catalog.modes.SameFor (.extension id) t.catalog.modes
  contentTypes : s.catalog.contentTypes.SameFor (.extension id) t.catalog.contentTypes

theorem apartComposes (id : Text) : Composes (Apart id) where
  refl _ := ⟨rfl,Table.sameForRefl _ _,Table.sameForRefl _ _⟩
  trans first second := ⟨second.extension.trans first.extension,Table.sameForTrans first.modes second.modes,
    Table.sameForTrans first.contentTypes second.contentTypes⟩

theorem SameTables.apart (same : SameTables s t) (id : Text) : Apart id s t := by
  refine ⟨?_,?_,?_⟩
  · rw [extension?, same.extensions, extension?]
  · rw [same.catalog]
    exact Table.sameForRefl _ _
  · rw [same.catalog]
    exact Table.sameForRefl _ _

theorem changedApart {other : Text} {change : Extension → Extension} (kept : ∀ x, (change x).id = x.id)
    (differs : id ≠ other) : Apart id s (s.withExtension other change) := by
  refine ⟨?_,Table.sameForRefl _ _,Table.sameForRefl _ _⟩
  rw [extensionChanged kept]
  simp only [if_neg differs, Option.map_id']

theorem otherOwner {other : Text} (differs : id ≠ other) : Owner.extension id ≠ .extension other :=
  fun same => differs (Owner.extension.inj same)

theorem insertModeApart {owner : Owner} (name : Value) (mode : ModeRef) (differs : .extension id ≠ owner) :
    Within (Apart id) (change fun c => c.insertMode host.mode name mode owner) := by
  refine withinChange (apartComposes id) fun s d done => ?_
  obtain ⟨_,_,_,_,types,modes⟩ := Catalog.insertModeDone done
  exact ⟨rfl,Table.grantedSameFor differs modes,types ▸ Table.sameForRefl _ _⟩

theorem eraseModeApart {owner : Owner} (name : Value) (differs : .extension id ≠ owner) :
    Within (Apart id) (change fun c => c.eraseMode name owner) := by
  refine withinChange (apartComposes id) fun s d done => ?_
  obtain ⟨_,types,modes⟩ := Catalog.eraseModeDone done
  exact ⟨rfl,Table.revokedSameFor differs modes,types ▸ Table.sameForRefl _ _⟩

theorem insertContentTypeApart {owner : Owner} (contentType name : Value) (differs : .extension id ≠ owner) :
    Within (Apart id) (change fun c => c.insertContentType contentType name owner) := by
  refine withinChange (apartComposes id) fun s d done => ?_
  obtain ⟨_,_,_,_,_,_,modes,types⟩ := Catalog.insertContentTypeDone done
  exact ⟨rfl,modes ▸ Table.sameForRefl _ _,Table.grantedSameFor differs types⟩

theorem eraseContentTypeApart {owner : Owner} (contentType : Value) (differs : .extension id ≠ owner) :
    Within (Apart id) (change fun c => c.eraseContentType contentType owner) := by
  refine withinChange (apartComposes id) fun s d done => ?_
  obtain ⟨_,modes,types⟩ := Catalog.eraseContentTypeDone done
  exact ⟨rfl,modes ▸ Table.sameForRefl _ _,Table.revokedSameFor differs types⟩

theorem tellApart (id : Text) (notice : Notice) : Within (Apart id) (tell notice) := by
  intro s
  have same : SameTables s (left (tell notice s)) := ⟨rfl,rfl⟩
  exact same.apart id

theorem installApart (host : Host) (differs : id ≠ x.id) : Within (Apart id) (install host x) :=
  installWithin (apartComposes id) (fun name _ => insertModeApart name x.lexer (otherOwner differs))
    (fun name => insertContentTypeApart x.contentType name (otherOwner differs))
    (fun _ modes types => changedApart (listingKeeps modes types) differs) (tellApart id)

theorem revokedApart {x : Extension} {c : Catalog} (revoked : x.Revoked s.catalog c) (differs : id ≠ x.id)
    (ns : List Notice) (waits : List Callback) :
    Apart id s {s.withExtension x.id unloaded with catalog := c, notices := ns, pending := waits} := by
  have others := otherOwner differs
  have kept : ∀ y, (unloaded y).id = y.id := fun _ => rfl
  exact ⟨(changedApart (s := s) kept differs).extension,
    Table.revokedSameFor others revoked.modes,Table.revokedSameFor others revoked.contentTypes⟩

/- What is said of nothing but an extension's lists and entries, and is still true when it unloads. -/
structure Private (id : Text) (P : Session → Prop) : Prop where
  apart : ∀ {s t}, Apart id s t → P s → P t
  made : ∀ {s} (options : ExtensionOptions), s.extension? id = none → P s →
    P {s with extensions := s.extensions ++ [options.extension id]}
  unloaded : ∀ {s t x}, s.extension? id = some x → x.loaded = true → x.Revoked s.catalog t.catalog →
    t.extension? id = some (unloaded x) → P s → P t

def Keeps (P : Session → Prop) (s t : Session) : Prop := P s → P t

theorem keepsComposes (P : Session → Prop) : Composes (Keeps P) :=
  ⟨fun _ => fun holds => holds,fun first second holds => second (first holds)⟩

theorem extensionAdded (s : Session) (x : Extension) (id : Text) :
    ({s with extensions := s.extensions ++ [x]} : Session).extension? id =
      (s.extension? id).or (if x.id = id then some x else none) := by
  rw [extension?, extension?, List.find?_append, List.find?_singleton]
  simp only [beq_iff_eq]

theorem Private.keeps (own : Private id P) {action : Action α} (apart : Within (Apart id) action) :
    Within (Keeps P) action :=
  fun s => own.apart (apart s)

theorem makeExtensionKeeps (own : Private id P) (other : Text) (options : ExtensionOptions) :
    Within (Keeps P) (makeExtension other options) := by
  intro s
  rw [makeExtension, bindRuns getRuns]
  split
  · let made : Session := {s with extensions := s.extensions ++ [options.extension other]}
    show P s → P made
    have added : made.extension? id =
        (s.extension? id).or (if other = id then some (options.extension other) else none) :=
      extensionAdded s (options.extension other) id
    have beside (same : made.extension? id = s.extension? id) : Apart id s made :=
      ⟨same,Table.sameForRefl _ _,Table.sameForRefl _ _⟩
    cases there : s.extension? id with
    | some x => exact own.apart (beside (by rw [added, there, Option.some_or]))
    | none =>
      by_cases same : other = id
      · subst same
        exact own.made options there
      · exact own.apart (beside (by rw [added, there, if_neg same, Option.none_or]))
  · exact fun holds => holds

theorem whenReadyKeeps (own : Private id P) (invoked : ∀ callback, Within (Keeps P) (invoke callback))
    (callback : Callback) : Within (Keeps P) (whenReady invoke callback) := by
  intro s
  rw [whenReady, bindRuns getRuns]
  split
  · exact invoked callback s
  · split
    · exact fun holds => holds
    · have same : SameTables s {s with pending := s.pending ++ [callback]} := ⟨rfl,rfl⟩
      exact own.apart (same.apart id)

theorem becomeReadyKeeps (own : Private id P) (invoked : ∀ callback, Within (Keeps P) (invoke callback)) :
    Within (Keeps P) (becomeReady invoke) := by
  intro s
  rw [becomeReady, bindRuns getRuns]
  split
  · exact fun holds => holds
  · have same : SameTables s {s with ready := true, pending := []} := ⟨rfl,rfl⟩
    exact leftBind (keepsComposes P) (own.apart (same.apart id)) fun _ t _ =>
      withinBind (keepsComposes P) (own.keeps (tellApart id _))
        (fun _ => invokeAllWithin (keepsComposes P) invoked s.pending) t

theorem loadKeeps (own : Private id P) (invoked : ∀ callback, Within (Keeps P) (invoke callback)) {other : Text}
    (differs : id ≠ other) : Within (Keeps P) (load host invoke other) := by
  refine loadWithin (keepsComposes P) (fun x named => own.keeps (installApart host (named ▸ differs))) (fun s => ?_)
    (whenReadyKeeps own invoked _)
  exact own.apart (changedApart (fun _ => rfl) differs)

theorem unloadKeeps (own : Private id P) (host : Host) (other : Text) : Within (Keeps P) (unload host other) := by
  refine unloadWithin (keepsComposes P) (fun same => own.apart (same.apart id))
    fun {s x c} ns named found loaded revoked => ?_
  subst named
  by_cases same : id = x.id
  · subst same
    have kept : ∀ y, (Session.unloaded y).id = y.id := fun _ => rfl
    exact own.unloaded found loaded revoked (changedFound kept found)
  · exact own.apart (revokedApart revoked same ns _)

mutual

/- Done by others: the extension is not loaded by it, and nothing in the catalog is changed in its name. -/
def Op.Sparing (id : Text) : Op → Prop
  | .load other => id ≠ other
  | .insertMode _ _ owner | .eraseMode _ owner => .extension id ≠ owner
  | .insertContentType _ _ owner | .eraseContentType _ owner => .extension id ≠ owner
  | .eachView ops => Op.SparingAll id ops
  | _ => True

def Op.SparingAll (id : Text) : List Op → Prop
  | [] => True
  | op :: more => op.Sparing id ∧ Op.SparingAll id more

end

theorem sparingMember {ops : List Op} (sparing : Op.SparingAll id ops) : ∀ op ∈ ops, op.Sparing id := by
  induction ops with
  | nil => exact List.forall_mem_nil _
  | cons op more ih => exact List.forall_mem_cons.mpr ⟨sparing.1,ih sparing.2⟩

theorem performOneKeeps (own : Private id P) (invoked : ∀ callback, Within (Keeps P) (invoke callback)) {op : Op}
    (single : op.single = true) (sparing : op.Sparing id) : Within (Keeps P) (perform host invoke op) := by
  have composes := keepsComposes P
  have viewing (views : op.onViews = true) : Within (Keeps P) (perform host invoke op) :=
    own.keeps fun s => (performViews invoke views s).apart id
  cases op with
  | insertMode name mode owner =>
    rw [perform]
    exact withinMap composes (own.keeps (insertModeApart name (.host mode) sparing)) _
  | eraseMode name owner =>
    rw [perform]
    exact withinMap composes (own.keeps (eraseModeApart name sparing)) _
  | insertContentType contentType name owner =>
    rw [perform]
    exact withinMap composes (own.keeps (insertContentTypeApart contentType name sparing)) _
  | eraseContentType contentType owner =>
    rw [perform]
    exact withinMap composes (own.keeps (eraseContentTypeApart contentType sparing)) _
  | makeExtension other options =>
    rw [perform]
    exact withinMap composes (makeExtensionKeeps own other options) _
  | load other =>
    rw [perform]
    exact withinMap composes (loadKeeps own invoked sparing) _
  | unload other =>
    rw [perform]
    exact withinMap composes (unloadKeeps own host other) _
  | eachView ops => contradiction
  | whenReady callback =>
    rw [perform]
    exact withinMap composes (whenReadyKeeps own invoked (.user callback)) _
  | cancelReady callback =>
    rw [perform]
    have cancelled : Within SameTables (cancelReady (.user callback)) := fun _ => ⟨rfl,rfl⟩
    exact withinMap composes (own.keeps fun s => (cancelled s).apart id) _
  | becomeReady =>
    rw [perform]
    exact withinMap composes (becomeReadyKeeps own invoked) _
  | _ => exact viewing rfl

theorem performKeeps (own : Private id P) (invoked : ∀ callback, Within (Keeps P) (invoke callback)) (op : Op)
    (sparing : op.Sparing id) : Within (Keeps P) (perform host invoke op) :=
  performWithin (keepsComposes P) (Op.Sparing id) (fun _ => sparingMember) (fun _ => performOneKeeps own invoked)
    op sparing

theorem invokeKeeps (own : Private id P) (host : Host) (sparing : ∀ callback, Op.SparingAll id (programs callback))
    (depth : Nat) (callback : Callback) : Within (Keeps P) (invokeWithin host programs depth callback) :=
  invokeAllowed (keepsComposes P) (Op.Sparing id) (fun same => own.apart (same.toSameTables.apart id))
    (fun other s => own.apart ((refreshWhenReadyTables host other s).apart id))
    (fun name => sparingMember (sparing name)) (fun _ invoked => performKeeps own invoked) depth callback

end Session
end LittleMan
