import LittleMan.Session.Extension
import LittleMan.Proofs.Ownership

/-! What loading and unloading do to a session: an owner is granted names in the catalog, or gives back
those it holds, and its extension keeps the list of them. Views and callbacks are not touched. -/
namespace LittleMan

structure Extension.Asks (x : Extension) (names : List Text) (type : Text) : Prop where
  aliases : x.aliases = names.map .text
  filled : [] ∉ names
  contentType : x.contentType = .text type
  typeFilled : type ≠ []

/- A content type is asked for only where there is a name for it to stand for. -/
def typed (held : List Text) (type : Text) : List Text := (held.take 1).map fun _ => type

structure Extension.Granted (x : Extension) (names held : List Text) (type : Text) (c d : Catalog) : Prop where
  free : held = names.filter (c.modes.free (.extension x.id))
  modes : d.modes.get? = c.modes.granted (.extension x.id) x.lexer names
  contentTypes : d.contentTypes.get? = c.contentTypes.granted (.extension x.id) (held.headD []) (typed held type)

structure Extension.Revoked (x : Extension) (c d : Catalog) : Prop where
  modes : d.modes.get? = c.modes.revoked (.extension x.id) x.heldModes
  contentTypes : d.contentTypes.get? = c.contentTypes.revoked (.extension x.id) x.heldContentTypes

namespace Session
variable {α β : Type} {host : Host} {s t : Session} {x : Extension} {id : Text}

theorem bindRuns {a : Action α} {f : α → Action β} {answer : α} (ran : a s = .ok answer t) :
    (a >>= f) s = f answer t := by
  show EStateM.bind a f s = f answer t
  rw [EStateM.bind, ran]

theorem getRuns : (get : Action Session) s = .ok s s := rfl

theorem modifyRuns (f : Session → Session) : (modify f : Action Unit) s = .ok () (f s) := rfl

theorem tellRuns (notice : Notice) : tell notice s = .ok () {s with notices := s.notices ++ [notice]} := rfl

theorem askRuns {question : Catalog → Except Failure α} {answer : α}
    (answered : question s.catalog = .ok answer) : ask question s = .ok answer s := by
  rw [ask, bindRuns getRuns, answered]
  rfl

theorem changeRuns {operation : Catalog → Except Failure Catalog.Change} {d : Catalog.Change}
    (done : operation s.catalog = .ok d) :
    change operation s = .ok d.answer {s with catalog := d.catalog, notices := s.notices ++ d.notices} := by
  rw [change, bindRuns (askRuns done)]
  rfl

theorem findChanged {key : α → Text} {change : α → α} (kept : ∀ a, key (change a) = key a) (items : List α)
    (id other : Text) :
    (items.map fun a => if key a == id then change a else a).find? (key · == other) =
      (items.find? (key · == other)).map fun a => if other = id then change a else a := by
  have same : ((key · == other) ∘ fun a => if key a == id then change a else a) = (key · == other) := by
    funext a
    by_cases here : key a = id <;> simp [here, kept]
  rw [List.find?_map, same]
  cases found : items.find? (key · == other) with
  | none => rfl
  | some a =>
    have keyed : key a = other := by simpa using List.find?_some found
    simp [keyed]

theorem extensionChanged {change : Extension → Extension} (kept : ∀ x, (change x).id = x.id) (id other : Text) :
    (s.withExtension id change).extension? other =
      (s.extension? other).map fun x => if other = id then change x else x :=
  findChanged kept s.extensions id other

theorem changedFound {change : Extension → Extension} (kept : ∀ x, (change x).id = x.id)
    (found : s.extension? id = some x) : (s.withExtension id change).extension? id = some (change x) := by
  rw [extensionChanged kept, found, Option.map_some, if_pos rfl]

theorem extensionNamed (found : s.extension? id = some x) : x.id = id := by
  simpa using List.find?_some found

theorem changedTwice {f : Extension → Extension} (kept : ∀ x, (f x).id = x.id) (g : Extension → Extension)
    (s : Session) (id : Text) :
    (s.withExtension id f).withExtension id g = s.withExtension id fun x => g (f x) := by
  simp only [withExtension, List.map_map]
  congr 2
  funext x
  by_cases here : x.id = id <;> simp [here, kept]

def listing (modes contentTypes : List Text) (x : Extension) : Extension :=
  {x with heldModes := x.heldModes ++ modes, heldContentTypes := x.heldContentTypes ++ contentTypes}

theorem listingNothing (s : Session) (id : Text) : s.withExtension id (listing [] []) = s := by
  simp only [withExtension, listing, List.append_nil, ite_self, List.map_id']

theorem listingKeeps (modes contentTypes : List Text) (x : Extension) : (listing modes contentTypes x).id = x.id :=
  rfl

theorem listingTwice (modes contentTypes more moreTypes : List Text) (s : Session) (id : Text) :
    (s.withExtension id (listing modes contentTypes)).withExtension id (listing more moreTypes) =
      s.withExtension id (listing (modes ++ more) (contentTypes ++ moreTypes)) := by
  rw [changedTwice (listingKeeps modes contentTypes)]
  congr 1
  funext x
  simp only [listing, List.append_assoc]

theorem listingMode (name : Text) :
    listing [name] [] = fun x => {x with heldModes := x.heldModes ++ [name]} := by
  funext x
  simp only [listing, List.append_nil]

theorem listingContentType (name : Text) :
    listing [] [name] = fun x => {x with heldContentTypes := x.heldContentTypes ++ [name]} := by
  funext x
  simp only [listing, List.append_nil]

theorem installModesRuns {names : List Text} (filled : [] ∉ names) (whole : (host.mode x.lexer).lacks? = none)
    (s : Session) :
    ∃ c ns, installModes host x (names.map .text) s = .ok ()
        {s.withExtension x.id (listing (names.filter (s.catalog.modes.free (.extension x.id))) []) with
          catalog := c, notices := ns} ∧
      c.contentTypes = s.catalog.contentTypes ∧
      c.modes.get? = s.catalog.modes.granted (.extension x.id) x.lexer names := by
  induction names generalizing s with
  | nil =>
    refine ⟨s.catalog,s.notices,?_,rfl,Table.grantedNone.symm⟩
    rw [List.filter_nil, listingNothing]
    rfl
  | cons name more ih =>
    rw [List.mem_cons, not_or] at filled
    obtain ⟨d,done,answer,_,types,modes⟩ :=
      Catalog.insertModeGrants s.catalog (.extension x.id) (Ne.symm filled.1) whole
    -- Holding the first name changes nothing about which of the others are free.
    have free := funext (Table.freeGranted modes)
    let asked : Session := {s with catalog := d.catalog, notices := s.notices ++ d.notices}
    let granted := [name].filter (s.catalog.modes.free (.extension x.id))
    obtain ⟨c,ns,ran,sameTypes,sameModes⟩ := ih filled.2 (asked.withExtension x.id (listing granted []))
    refine ⟨c,ns,?_,sameTypes.trans types,sameModes.trans (Table.grantedStep modes)⟩
    have first : installModes host x ((name :: more).map .text) s =
        installModes host x (more.map .text) (asked.withExtension x.id (listing granted [])) := by
      rw [List.map_cons, installModes, bindRuns (changeRuns done), answer]
      cases taken : s.catalog.modes.free (.extension x.id) name with
      | false =>
        have nothing : granted = [] := List.filter_eq_nil_iff.mpr (by simp [taken])
        rw [nothing, listingNothing]
      | true =>
        have all : granted = [name] := List.filter_eq_self.mpr (by simp [taken])
        rw [all, listingMode]
        exact bindRuns (modifyRuns _)
    have names : (name :: more).filter (s.catalog.modes.free (.extension x.id)) =
        granted ++ more.filter (d.catalog.modes.free (.extension x.id)) := by
      rw [free, ← List.filter_append, List.singleton_append]
    rw [first, ran, listingTwice, names]
    rfl

theorem installContentTypeRuns {installed : List Text} {name : Text} (asks : x.contentType = .text name)
    (filled : name ≠ []) (s : Session) (there : ∀ first ∈ installed, (s.catalog.modes.get? first).isSome) :
    ∃ c ns, installContentType x installed s = .ok ()
        {s.withExtension x.id
            (listing [] ((typed installed name).filter (s.catalog.contentTypes.free (.extension x.id)))) with
          catalog := c, notices := ns} ∧
      c.modes = s.catalog.modes ∧
      c.contentTypes.get? =
        s.catalog.contentTypes.granted (.extension x.id) (installed.headD []) (typed installed name) := by
  cases installed with
  | nil =>
    refine ⟨s.catalog,s.notices,?_,rfl,Table.grantedNone.symm⟩
    rw [typed, List.take_nil, List.map_nil, List.filter_nil, listingNothing]
    rfl
  | cons first more =>
    obtain ⟨e,found⟩ := Option.isSome_iff_exists.mp (there first List.mem_cons_self)
    obtain ⟨d,done,answer,_,modes,types⟩ := Catalog.insertContentTypeGrants (.extension x.id) filled found
    refine ⟨d.catalog,s.notices ++ d.notices,?_,modes,types⟩
    rw [installContentType, asks, bindRuns (changeRuns done), answer]
    have asked : typed (first :: more) name = [name] := rfl
    cases taken : s.catalog.contentTypes.free (.extension x.id) name with
    | false =>
      rw [asked, List.filter_eq_nil_iff.mpr (by simp [taken]), listingNothing]
      rfl
    | true =>
      rw [asked, List.filter_eq_self.mpr (by simp [taken]), listingContentType]
      rfl

theorem heldModesRuns (found : s.extension? id = some x) : heldModes id s = .ok x.heldModes s :=
  congrArg (fun found : Option Extension => EStateM.Result.ok (found.elim [] (·.heldModes)) s) found

theorem heldModesListed (found : s.extension? id = some x) (modes contentTypes : List Text) (c : Catalog)
    (ns : List Notice) :
    heldModes id {s.withExtension id (listing modes contentTypes) with catalog := c, notices := ns} =
      .ok (x.heldModes ++ modes)
        {s.withExtension id (listing modes contentTypes) with catalog := c, notices := ns} := by
  have lists : ({s.withExtension id (listing modes contentTypes) with catalog := c, notices := ns} :
      Session).extension? id = some (listing modes contentTypes x) :=
    changedFound (listingKeeps modes contentTypes) found
  exact heldModesRuns lists

theorem reportRuns (first : Bool) (early late : Notice) (s : Session) :
    ∃ ns, (if first = true then (do tell early; tell late) else tell late : Action Unit) s =
      .ok () {s with notices := ns} := by
  cases first with
  | false => exact ⟨s.notices ++ [late],rfl⟩
  | true => exact ⟨s.notices ++ [early] ++ [late],rfl⟩

theorem installRuns {names : List Text} {type : Text} (found : s.extension? x.id = some x)
    (asks : x.Asks names type) (whole : (host.mode x.lexer).lacks? = none) (idle : x.heldModes = []) :
    ∃ c ns held, x.Granted names held type s.catalog c ∧
      install host x s = .ok ()
        {s.withExtension x.id
            (listing held ((typed held type).filter (s.catalog.contentTypes.free (.extension x.id)))) with
          catalog := c, notices := ns} := by
  obtain ⟨c,ns,ran,sameTypes,modes⟩ := installModesRuns asks.filled whole s
  let held := names.filter (s.catalog.modes.free (.extension x.id))
  let between : Session := {s.withExtension x.id (listing held []) with catalog := c, notices := ns}
  have there : ∀ first ∈ held, (between.catalog.modes.get? first).isSome := by
    intro first inside
    show (c.modes.get? first).isSome
    rw [modes, Table.granted, if_pos (List.mem_filter.mp inside)]
    rfl
  obtain ⟨d,ms,ranType,sameModes,contentTypes⟩ :=
    installContentTypeRuns asks.contentType asks.typeFilled between there
  have sameTable : between.catalog.contentTypes = s.catalog.contentTypes := sameTypes
  rw [sameTable] at ranType contentTypes
  let taken := (typed held type).filter (s.catalog.contentTypes.free (.extension x.id))
  have ranBoth : installContentType x held between =
      .ok () {s.withExtension x.id (listing held taken) with catalog := d, notices := ms} := by
    have twice := listingTwice held [] [] taken s x.id
    rw [List.append_nil, List.nil_append] at twice
    rw [← twice]
    exact ranType
  have listed := heldModesListed found held
  rw [idle, List.nil_append] at listed
  obtain ⟨rs,reported⟩ := reportRuns _ _ (.installed held)
    {s.withExtension x.id (listing held taken) with catalog := d, notices := ms}
  refine ⟨d,rs,held,⟨rfl,sameModes ▸ modes,contentTypes⟩,?_⟩
  rw [install, bindRuns (asks.aliases ▸ ran), bindRuns (listed [] c ns), bindRuns ranBoth,
    bindRuns (listed taken d ms)]
  exact reported

def loadedWith (modes contentTypes : List Text) (x : Extension) : Extension :=
  {listing modes contentTypes x with loaded := true}

def unloaded (x : Extension) : Extension := {x with heldModes := [], heldContentTypes := [], loaded := false}

theorem loadInstalls (invoke : Callback → Action Unit) (found : s.extension? id = some x)
    (inactive : x.loaded = false) : load host invoke id s = (do
      install host x
      modify fun s : Session => s.withExtension id fun x => {x with loaded := true}
      whenReady invoke (.refresh id)) s := by
  rw [load, bindRuns getRuns, found]
  simp only [inactive, Bool.false_eq_true, if_false]

theorem loadRuns {names : List Text} {type : Text} (invoke : Callback → Action Unit)
    (found : s.extension? x.id = some x) (inactive : x.loaded = false) (asks : x.Asks names type)
    (whole : (host.mode x.lexer).lacks? = none) (idle : x.heldModes = []) :
    ∃ c ns held, x.Granted names held type s.catalog c ∧
      load host invoke x.id s = whenReady invoke (.refresh x.id)
        {s.withExtension x.id
            (loadedWith held ((typed held type).filter (s.catalog.contentTypes.free (.extension x.id)))) with
          catalog := c, notices := ns} := by
  obtain ⟨c,ns,held,granted,ran⟩ := installRuns found asks whole idle
  refine ⟨c,ns,held,granted,?_⟩
  rw [loadInstalls invoke found inactive, bindRuns ran, bindRuns (modifyRuns _)]
  have twice := changedTwice (listingKeeps held ((typed held type).filter
    (s.catalog.contentTypes.free (.extension x.id)))) (fun x => {x with loaded := true}) s x.id
  exact congrArg (fun u : Session => whenReady invoke (.refresh x.id) {u with catalog := c, notices := ns}) twice

theorem uninstallContentTypesRuns (id : Text) (names : List Text) (s : Session) :
    ∃ c ns, uninstallContentTypes id names s = .ok () {s with catalog := c, notices := ns} ∧
      c.modes = s.catalog.modes ∧ c.contentTypes.get? = s.catalog.contentTypes.revoked (.extension id) names := by
  induction names generalizing s with
  | nil => exact ⟨s.catalog,s.notices,rfl,rfl,Table.revokedNone.symm⟩
  | cons name more ih =>
    obtain ⟨d,done,_,_,modes,types⟩ := s.catalog.eraseContentTypeRevokes name (.extension id)
    obtain ⟨c,ns,ran,sameModes,sameTypes⟩ := ih {s with catalog := d.catalog, notices := s.notices ++ d.notices}
    refine ⟨c,ns,?_,sameModes.trans modes,sameTypes.trans (Table.revokedStep types)⟩
    rw [uninstallContentTypes, bindRuns (changeRuns done), ran]

theorem uninstallModesRuns (id : Text) (names : List Text) (s : Session) :
    ∃ c ns, uninstallModes id names s = .ok () {s with catalog := c, notices := ns} ∧
      c.contentTypes = s.catalog.contentTypes ∧ c.modes.get? = s.catalog.modes.revoked (.extension id) names := by
  induction names generalizing s with
  | nil => exact ⟨s.catalog,s.notices,rfl,rfl,Table.revokedNone.symm⟩
  | cons name more ih =>
    obtain ⟨d,done,_,_,types,modes⟩ := s.catalog.eraseModeRevokes name (.extension id)
    obtain ⟨c,ns,ran,sameTypes,sameModes⟩ := ih {s with catalog := d.catalog, notices := s.notices ++ d.notices}
    refine ⟨c,ns,?_,sameTypes.trans types,sameModes.trans (Table.revokedStep modes)⟩
    rw [uninstallModes, bindRuns (changeRuns done), ran]

theorem unloadRuns (host : Host) (found : s.extension? x.id = some x) (active : x.loaded = true) :
    ∃ c ns, x.Revoked s.catalog c ∧ unload host x.id s = (do let _ ← refreshShown host x.id)
      {s.withExtension x.id unloaded with
        catalog := c, notices := ns, pending := s.pending.erase (.refresh x.id)} := by
  let dropped : Session := {s with pending := s.pending.erase (.refresh x.id)}
  obtain ⟨c,ns,ran,modes,types⟩ := uninstallContentTypesRuns x.id x.heldContentTypes dropped
  obtain ⟨d,ms,ranModes,sameTypes,sameModes⟩ := uninstallModesRuns x.id x.heldModes
    {dropped with catalog := c, notices := ns}
  have cancelled : cancelReady (.refresh x.id) s = .ok () dropped := rfl
  refine ⟨d,ms ++ [.uninstalled x.heldModes],⟨sameModes.trans ?_,?_⟩,?_⟩
  · show c.modes.revoked _ _ = _
    rw [modes]
  · rw [sameTypes]
    exact types
  · rw [unload, bindRuns getRuns, found]
    simp only [active, Bool.not_true, Bool.false_eq_true, if_false]
    rw [bindRuns cancelled, bindRuns ran, bindRuns ranModes, bindRuns (tellRuns _), bindRuns (modifyRuns _)]
    rfl

end Session
end LittleMan
