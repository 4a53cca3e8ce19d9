import LittleMan.Proofs.Apart

/-! What an extension lists is what the catalog has of it, whatever its loads came to: the lists are a second copy
of the entries, kept by hand. -/
namespace LittleMan

def Value.isName : Value → Bool
  | .text (_ :: _) => true
  | _ => false

theorem Value.nameText {v : Value} (named : v.isName = true) : ∃ name, v = .text name ∧ name ≠ [] := by
  match v, named with
  | .text (first :: more), _ => exact ⟨first :: more,rfl,List.cons_ne_nil first more⟩

/- An extension that asks for something no catalog takes: a load that comes to it fails. -/
def Extension.Faulty (x : Extension) : Prop := (∃ v ∈ x.aliases, v.isName = false) ∨ x.contentType.isName = false

theorem Catalog.validNameFaulty {v : Value} (faulty : v.isName = false) :
    validName v = .error (.registration v .emptyName) := by
  match v with
  | .text [] | .null | .bool _ | .int _ | .real _ | .list _ | .object _ => rfl
  | .text (_ :: _) => contradiction

theorem Catalog.insertModeFaulty {modes : ModeRef → Mode} {v : Value} (mode : ModeRef)
    (faulty : v.isName = false ∨ (modes mode).lacks? ≠ none) :
    ∃ name reason, ∀ (c : Catalog) owner, c.insertMode modes v mode owner = .error (.registration name reason) := by
  cases named : v.isName with
  | false => exact ⟨v,.emptyName,fun c owner => by rw [insertMode, validNameFaulty named]; rfl⟩
  | true =>
    obtain ⟨name,rfl,filled⟩ := Value.nameText named
    have lacking := faulty.resolve_left fun unnamed => by cases named.symm.trans unnamed
    obtain ⟨member,lacks⟩ := Option.ne_none_iff_exists'.mp lacking
    exact ⟨.text name,.lacks (modes mode).kind member,fun c owner => by
      rw [insertMode, validFilled filled, okBind, lacks]; rfl⟩

theorem namesSplit (values : List Value) :
    ∃ (names : List Text) (rest : List Value), values = names.map .text ++ rest ∧ [] ∉ names ∧
      values.takeWhile Value.isName = names.map .text ∧ ∀ v more, rest = v :: more → v.isName = false := by
  induction values with
  | nil => exact ⟨[],[],rfl,List.not_mem_nil,rfl,fun _ _ same => by cases same⟩
  | cons v more ih =>
    cases named : v.isName with
    | false =>
      have none : (v :: more).takeWhile Value.isName = [] := List.takeWhile_cons_of_neg (by simp [named])
      refine ⟨[],v :: more,rfl,List.not_mem_nil,none,fun w others same => ?_⟩
      cases same
      exact named
    | true =>
      obtain ⟨name,rfl,filled⟩ := Value.nameText named
      obtain ⟨names,rest,rfl,allFilled,taken,ends⟩ := ih
      refine ⟨name :: names,rest,rfl,by simp [allFilled, Ne.symm filled],?_,ends⟩
      rw [List.takeWhile_cons_of_pos named, taken, List.map_cons]

/- Asked for in order, some name is free to the extension before anything is refused it. -/
def Extension.Gains (host : Host) (x : Extension) (c : Catalog) : Prop :=
  (host.mode x.lexer).lacks? = none ∧
    ∃ name, .text name ∈ x.aliases.takeWhile Value.isName ∧ c.modes.free (.extension x.id) name = true

theorem Extension.gainsIff {host : Host} {x : Extension} {names : List Text} {c : Catalog}
    (whole : (host.mode x.lexer).lacks? = none) (taken : x.aliases.takeWhile Value.isName = names.map .text) :
    x.Gains host c ↔ names.filter (c.modes.free (.extension x.id)) ≠ [] := by
  rw [Gains, taken, Ne, List.filter_eq_nil_iff]
  simp [whole]

namespace Session
variable {host : Host} {invoke : Callback → Action Unit} {programs : Text → List Op} {s t u : Session}
  {x y : Extension} {id : Text}

structure Accounted (id : Text) (s : Session) : Prop where
  modes : ∀ name e, s.catalog.modes.get? name = some e → e.owner = .extension id →
    ∃ x, s.extension? id = some x ∧ name ∈ x.heldModes ∧ e.item = x.lexer
  contentTypes : ∀ name e, s.catalog.contentTypes.get? name = some e → e.owner = .extension id →
    ∃ x, s.extension? id = some x ∧ name ∈ x.heldContentTypes ∧ x.contentType = .text name ∧
      x.heldModes.head? = some e.item
  listed : ∀ x, s.extension? id = some x → ∀ name ∈ x.heldModes,
    ∃ e, s.catalog.modes.get? name = some e ∧ e.owner = .extension id

theorem accountedStart (attached : Bool) (id : Text) : Accounted id (.start attached) :=
  ⟨fun _ _ found => by contradiction,fun _ _ found => by contradiction,fun _ found => by contradiction⟩

theorem Accounted.modeListed {name : Text} {e : Entry ModeRef} (accounted : Accounted id s)
    (found : s.extension? id = some x) (there : s.catalog.modes.get? name = some e) (own : e.owner = .extension id) :
    name ∈ x.heldModes ∧ e.item = x.lexer := by
  obtain ⟨y,same,lists⟩ := accounted.modes name e there own
  cases Option.some.inj (found.symm.trans same)
  exact lists

theorem Accounted.typeListed {name : Text} {e : Entry Text} (accounted : Accounted id s)
    (found : s.extension? id = some x) (there : s.catalog.contentTypes.get? name = some e)
    (own : e.owner = .extension id) :
    name ∈ x.heldContentTypes ∧ x.contentType = .text name ∧ x.heldModes.head? = some e.item := by
  obtain ⟨y,same,lists⟩ := accounted.contentTypes name e there own
  cases Option.some.inj (found.symm.trans same)
  exact lists

theorem accountedPrivate (id : Text) : Private id (Accounted id) where
  apart {s t} apart accounted := by
    refine ⟨fun name e there own => ?_,fun name e there own => ?_,fun x found name lists => ?_⟩
    · rw [apart.extension]
      exact accounted.modes name e ((apart.modes name e own).mp there) own
    · rw [apart.extension]
      exact accounted.contentTypes name e ((apart.contentTypes name e own).mp there) own
    · obtain ⟨e,there,own⟩ := accounted.listed x (apart.extension ▸ found) name lists
      exact ⟨e,(apart.modes name e own).mpr there,own⟩
  made {s} options gone accounted := by
    refine ⟨fun name e there own => ?_,fun name e there own => ?_,fun x found name lists => ?_⟩
    · obtain ⟨x,found,_⟩ := accounted.modes name e there own
      cases gone.symm.trans found
    · obtain ⟨x,found,_⟩ := accounted.contentTypes name e there own
      cases gone.symm.trans found
    · rw [extensionAdded, gone, Option.none_or] at found
      split at found
      · cases Option.some.inj found
        exact absurd lists List.not_mem_nil
      · contradiction
  unloaded {s t x} found _ revoked now accounted := by
    obtain rfl := extensionNamed found
    refine ⟨fun name e there own => ?_,fun name e there own => ?_,fun y same name lists => ?_⟩
    · rw [revoked.modes, Table.revoked] at there
      split at there
      · contradiction
      · rename_i kept
        obtain ⟨lists,_⟩ := accounted.modeListed found there own
        exact absurd ⟨lists,(Table.heldFound _ there).trans (decide_eq_true own)⟩ kept
    · rw [revoked.contentTypes, Table.revoked] at there
      split at there
      · contradiction
      · rename_i kept
        obtain ⟨lists,_⟩ := accounted.typeListed found there own
        exact absurd ⟨lists,(Table.heldFound _ there).trans (decide_eq_true own)⟩ kept
    · cases Option.some.inj (now.symm.trans same)
      exact absurd lists List.not_mem_nil

theorem Accounted.modesGranted (accounted : Accounted id s) (found : s.extension? id = some x) {names : List Text}
    (modes : t.catalog.modes.get? = s.catalog.modes.granted (.extension id) x.lexer names)
    (types : t.catalog.contentTypes = s.catalog.contentTypes)
    (lists : t.extension? id = some (listing (names.filter (s.catalog.modes.free (.extension id))) [] x)) :
    Accounted id t := by
  refine ⟨fun name e there own => ?_,fun name e there own => ?_,fun y same name inside => ?_⟩
  · rw [modes, Table.granted] at there
    split at there
    · rename_i taken
      cases Option.some.inj there
      exact ⟨_,lists,List.mem_append_right _ (List.mem_filter.mpr taken),rfl⟩
    · obtain ⟨listed,item⟩ := accounted.modeListed found there own
      exact ⟨_,lists,List.mem_append_left _ listed,item⟩
  · rw [types] at there
    obtain ⟨listed,asked,first⟩ := accounted.typeListed found there own
    refine ⟨_,lists,List.mem_append_left _ listed,asked,?_⟩
    rw [listing, List.head?_append, first, Option.some_or]
  · cases Option.some.inj (lists.symm.trans same)
    rw [modes, Table.granted]
    split
    · exact ⟨_,rfl,rfl⟩
    · rename_i kept
      rcases List.mem_append.mp inside with before | granted
      · exact accounted.listed x found name before
      · exact absurd (List.mem_filter.mp granted) kept

theorem Accounted.typeGranted (accounted : Accounted id s) (found : s.extension? id = some x) {type first : Text}
    (asks : x.contentType = .text type) (head : x.heldModes.head? = some first)
    (modes : t.catalog.modes = s.catalog.modes)
    (types : t.catalog.contentTypes.get? = s.catalog.contentTypes.granted (.extension id) first [type])
    (lists : t.extension? id = some (listing [] ([type].filter (s.catalog.contentTypes.free (.extension id))) x)) :
    Accounted id t := by
  refine ⟨fun name e there own => ?_,fun name e there own => ?_,fun y same name inside => ?_⟩
  · rw [modes] at there
    obtain ⟨listed,item⟩ := accounted.modeListed found there own
    exact ⟨_,lists,List.mem_append_left _ listed,item⟩
  · rw [types, Table.granted] at there
    split at there
    · rename_i taken
      cases Option.some.inj there
      refine ⟨_,lists,List.mem_append_right _ (List.mem_filter.mpr taken),?_,?_⟩
      · exact List.mem_singleton.mp taken.1 ▸ asks
      · rw [listing, List.append_nil]
        exact head
    · obtain ⟨listed,asked,held⟩ := accounted.typeListed found there own
      refine ⟨_,lists,List.mem_append_left _ listed,asked,?_⟩
      rw [listing, List.append_nil]
      exact held
  · cases Option.some.inj (lists.symm.trans same)
    rw [listing, List.append_nil] at inside
    rw [modes]
    exact accounted.listed x found name inside

def Refused {α : Type} (outcome : EStateM.Result Failure Session α) : Prop :=
  ∃ name reason t, outcome = .error (.registration name reason) t

theorem insertModeRefused (host : Host) {v : Value} (faulty : v.isName = false ∨ (host.mode x.lexer).lacks? ≠ none)
    (more : List Value) : ∃ name reason, installModes host x (v :: more) s = .error (.registration name reason) s := by
  obtain ⟨name,reason,failed⟩ := Catalog.insertModeFaulty x.lexer faulty
  exact ⟨name,reason,bindFails (changeFails (failed s.catalog (.extension x.id)))⟩

theorem installModesMore {first : List Value} (ran : installModes host x first s = .ok () t) (more : List Value) :
    installModes host x (first ++ more) s = installModes host x more t := by
  induction first generalizing s with
  | nil =>
    cases ran
    rfl
  | cons v rest ih =>
    rw [List.cons_append, installModes]
    rw [installModes] at ran
    cases done : s.catalog.insertMode host.mode v x.lexer (.extension x.id) with
    | error e => cases (bindFails (changeFails done)).symm.trans ran
    | ok d =>
      rw [bindRuns (changeRuns done)] at ran ⊢
      obtain ⟨name,rfl,_⟩ := Catalog.insertModeDone done
      cases held : d.answer with
      | false =>
        rw [held] at ran
        exact ih ran
      | true =>
        rw [held] at ran
        exact ih ran

theorem installModesEnds (host : Host) (accounted : Accounted x.id s) (found : s.extension? x.id = some x) :
    ∃ more, (left (installModes host x x.aliases s)).extension? x.id = some (listing more [] x) ∧
      Accounted x.id (left (installModes host x x.aliases s)) ∧ (x.Gains host s.catalog ↔ more ≠ []) ∧
      ((Refused (installModes host x x.aliases s) ∧ (more ≠ [] → ∃ v ∈ x.aliases, v.isName = false)) ∨
        (∃ t, installModes host x x.aliases s = .ok () t) ∧ ∀ v ∈ x.aliases, v.isName = true) := by
  have unlisted : s.extension? x.id = some (listing [] [] x) := by simpa only [listing, List.append_nil] using found
  obtain ⟨names,rest,split,filled,taken,ends⟩ := namesSplit x.aliases
  cases whole : (host.mode x.lexer).lacks? with
  | some member =>
    have none : x.Gains host s.catalog ↔ ([] : List Text) ≠ [] := by simp [Extension.Gains, whole]
    cases asked : x.aliases with
    | nil => exact ⟨[],unlisted,accounted,none,.inr ⟨⟨s,rfl⟩,List.forall_mem_nil _⟩⟩
    | cons v more =>
      obtain ⟨name,reason,refused⟩ :=
        insertModeRefused host (x := x) (s := s) (v := v) (.inr fun none => by cases whole.symm.trans none) more
      rw [refused]
      exact ⟨[],unlisted,accounted,none,.inl ⟨⟨name,reason,s,rfl⟩,fun some => absurd rfl some⟩⟩
  | none =>
    have gains := Extension.gainsIff (c := s.catalog) whole taken
    obtain ⟨c,ns,ran,types,modes⟩ := installModesRuns filled whole s
    let granted := names.filter (s.catalog.modes.free (.extension x.id))
    let asked : Session := {s.withExtension x.id (listing granted []) with catalog := c, notices := ns}
    have lists : asked.extension? x.id = some (listing granted [] x) := changedFound (listingKeeps granted []) found
    have now : Accounted x.id asked := accounted.modesGranted found modes types lists
    rw [split, installModesMore ran]
    cases rest with
    | nil =>
      refine ⟨granted,lists,now,gains,.inr ⟨⟨asked,rfl⟩,fun v inside => ?_⟩⟩
      rw [List.append_nil, List.mem_map] at inside
      obtain ⟨name,listed,rfl⟩ := inside
      cases name with
      | nil => exact absurd listed filled
      | cons first more => rfl
    | cons v more =>
      have faulty := ends v more rfl
      obtain ⟨name,reason,refused⟩ :=
        insertModeRefused host (x := x) (s := asked) (v := v) (.inl faulty) more
      rw [refused]
      exact ⟨granted,lists,now,gains,.inl ⟨⟨name,reason,asked,rfl⟩,fun _ =>
        ⟨v,List.mem_append_right _ List.mem_cons_self,faulty⟩⟩⟩

theorem installContentTypeEnds (accounted : Accounted x.id s) (found : s.extension? x.id = some y)
    (asks : y.contentType = x.contentType) :
    ∃ types, (left (installContentType x y.heldModes s)).extension? x.id = some (listing [] types y) ∧
      Accounted x.id (left (installContentType x y.heldModes s)) ∧
      ((Refused (installContentType x y.heldModes s) ∧ types = [] ∧ x.contentType.isName = false) ∨
        (∃ t, installContentType x y.heldModes s = .ok () t) ∧ (y.heldModes ≠ [] → x.contentType.isName = true)) := by
  have unlisted : s.extension? x.id = some (listing [] [] y) := by simpa only [listing, List.append_nil] using found
  cases held : y.heldModes with
  | nil => exact ⟨[],unlisted,accounted,.inr ⟨⟨s,rfl⟩,fun none => absurd rfl none⟩⟩
  | cons first more =>
    cases named : x.contentType.isName with
    | false =>
      have failed : s.catalog.insertContentType x.contentType (.text first) (.extension x.id) =
          .error (.registration x.contentType .emptyName) := by
        rw [Catalog.insertContentType, Catalog.validNameFaulty named]
        rfl
      have refused : installContentType x (first :: more) s = .error (.registration x.contentType .emptyName) s :=
        bindFails (changeFails failed)
      rw [refused]
      exact ⟨[],unlisted,accounted,.inl ⟨⟨_,_,s,rfl⟩,rfl,rfl⟩⟩
    | true =>
      obtain ⟨type,asked,filled⟩ := Value.nameText named
      have there : ∀ name ∈ first :: more, (s.catalog.modes.get? name).isSome := by
        intro name inside
        obtain ⟨e,there,_⟩ := accounted.listed y found name (held ▸ inside)
        exact Option.isSome_iff_exists.mpr ⟨e,there⟩
      obtain ⟨c,ns,ran,modes,types⟩ := installContentTypeRuns asked filled s there
      let taken := [type].filter (s.catalog.contentTypes.free (.extension x.id))
      let typed : Session := {s.withExtension x.id (listing [] taken) with catalog := c, notices := ns}
      have lists : typed.extension? x.id = some (listing [] taken y) := changedFound (listingKeeps [] taken) found
      have head : y.heldModes.head? = some first := by rw [held, List.head?_cons]
      rw [ran]
      exact ⟨taken,lists,accounted.typeGranted found (asks.trans asked) head modes types lists,
        .inr ⟨⟨typed,rfl⟩,fun _ => rfl⟩⟩

theorem Accounted.marked (accounted : Accounted id s) (found : s.extension? id = some x)
    (catalog : t.catalog = s.catalog) (marked : t.extension? id = some {x with loaded := true}) : Accounted id t := by
  refine ⟨fun name e there own => ?_,fun name e there own => ?_,fun y same name inside => ?_⟩
  · have lists := accounted.modeListed found (catalog ▸ there) own
    exact ⟨_,marked,lists⟩
  · have lists := accounted.typeListed found (catalog ▸ there) own
    exact ⟨_,marked,lists⟩
  · cases Option.some.inj (marked.symm.trans same)
    rw [catalog]
    exact accounted.listed x found name inside

theorem installEnds (host : Host) (accounted : Accounted x.id s) (found : s.extension? x.id = some x) :
    ∃ more types, (left (install host x s)).extension? x.id = some (listing more types x) ∧
      Accounted x.id (left (install host x s)) ∧ (x.Gains host s.catalog ↔ more ≠ []) ∧
      ((Refused (install host x s) ∧ types = [] ∧ (more ≠ [] → x.Faulty)) ∨
        (∃ t, install host x s = .ok () t) ∧ ((listing more [] x).heldModes ≠ [] → ¬ x.Faulty)) := by
  obtain ⟨more,lists,accounted,gains,ends⟩ := installModesEnds host accounted found
  rcases ends with ⟨⟨name,reason,t,refused⟩,faulty⟩ | ⟨⟨t,ran⟩,named⟩
  · have stopped : install host x s = .error (.registration name reason) t := bindFails refused
    rw [refused] at lists accounted
    rw [stopped]
    exact ⟨more,[],lists,accounted,gains,.inl ⟨⟨name,reason,t,rfl⟩,rfl,fun some => .inl (faulty some)⟩⟩
  · rw [ran] at lists accounted
    have held : heldModes x.id t = .ok (listing more [] x).heldModes t := heldModesRuns lists
    obtain ⟨types,typed,now,last⟩ := installContentTypeEnds (s := t) accounted lists rfl
    have both : listing [] types (listing more [] x) = listing more types x := by simp [listing]
    rw [both] at typed
    rcases last with ⟨⟨name,reason,u,refused⟩,none,faulty⟩ | ⟨⟨u,typeRan⟩,whole⟩
    · have stopped : install host x s = .error (.registration name reason) u := by
        rw [install, bindRuns ran, bindRuns held]
        exact bindFails refused
      rw [refused] at typed now
      rw [stopped]
      exact ⟨more,types,typed,now,gains,.inl ⟨⟨name,reason,u,rfl⟩,none,fun _ => .inr faulty⟩⟩
    · rw [typeRan] at typed now
      have relists : heldModes x.id u = .ok (listing more types x).heldModes u := heldModesRuns typed
      obtain ⟨ns,reported⟩ := reportRuns _ _ (.installed (listing more types x).heldModes) u
      have done : install host x s = .ok () {u with notices := ns} := by
        rw [install, bindRuns ran, bindRuns held, bindRuns typeRan, bindRuns relists]
        exact reported
      rw [done]
      have told : SameTables u {u with notices := ns} := ⟨rfl,rfl⟩
      refine ⟨more,types,typed,(accountedPrivate x.id).apart (told.apart x.id) now,gains,
        .inr ⟨⟨_,rfl⟩,fun some faulty => ?_⟩⟩
      rcases faulty with ⟨v,inside,unnamed⟩ | unnamed
      · cases (named v inside).symm.trans unnamed
      · cases (whole some).symm.trans unnamed

theorem loadedListing {modes types : List Text} (found : s.extension? id = some (listing modes types x)) :
    (s.withExtension id fun x => {x with loaded := true}).extension? id = some (loadedWith modes types x) :=
  changedFound (fun _ => rfl) found

theorem loadEnds (host : Host) (refreshes : Within SameTables (invoke (.refresh x.id)))
    (accounted : Accounted x.id s) (found : s.extension? x.id = some x) (inactive : x.loaded = false) :
    ∃ more types, Accounted x.id (left (load host invoke x.id s)) ∧ (x.Gains host s.catalog ↔ more ≠ []) ∧
      ((Refused (load host invoke x.id s) ∧
          (left (load host invoke x.id s)).extension? x.id = some (listing more [] x) ∧ (more ≠ [] → x.Faulty)) ∨
        (left (load host invoke x.id s)).extension? x.id = some (loadedWith more types x) ∧
          ((listing more [] x).heldModes ≠ [] → ¬ x.Faulty)) := by
  obtain ⟨more,types,lists,accounted,gains,ends⟩ := installEnds host accounted found
  refine ⟨more,types,?_⟩
  rw [loadInstalls invoke found inactive]
  rcases ends with ⟨⟨name,reason,t,refused⟩,rfl,faulty⟩ | ⟨⟨t,ran⟩,whole⟩
  · rw [refused] at lists accounted
    rw [bindFails refused]
    exact ⟨accounted,gains,.inl ⟨⟨name,reason,t,rfl⟩,lists,faulty⟩⟩
  · rw [ran] at lists accounted
    rw [bindRuns ran, bindRuns (modifyRuns _)]
    have now := loadedListing lists
    have same := whenRefreshTables refreshes (t.withExtension x.id fun x => {x with loaded := true})
    have marked : Accounted x.id (t.withExtension x.id fun x => {x with loaded := true}) :=
      accounted.marked lists rfl now
    exact ⟨(accountedPrivate x.id).apart (same.apart x.id) marked,gains,
      .inr ⟨(same.apart x.id).extension.trans now,whole⟩⟩

end Session
end LittleMan
