import LittleMan.Proofs.Bookkeeping

/-! What an extension holds at every point of a run. While it is loaded, that is what it lists; while it is not,
that is nothing, unless one of its loads was refused after some of its names were granted: these stay in the
catalog for good, since it can be neither loaded nor unloaded from then on. -/
namespace LittleMan

structure Extension.HoldsListed (x : Extension) (c : Catalog) : Prop where
  modes : ∀ name, c.modes.held (.extension x.id) name = true ↔ name ∈ x.heldModes
  items : ∀ name, c.modes.held (.extension x.id) name = true → c.mode? (.text name) = .ok (some x.lexer)
  contentTypes : ∀ type, c.contentTypes.held (.extension x.id) type = true →
    x.contentType = .text type ∧ c.target? (.text type) = .ok x.heldModes.head? ∧
      ∃ first, x.heldModes.head? = some first ∧ c.modes.held (.extension x.id) first = true

structure Extension.HoldsNothing (x : Extension) (c : Catalog) : Prop where
  modes : ∀ name, c.modes.held (.extension x.id) name = false
  contentTypes : ∀ type, c.contentTypes.held (.extension x.id) type = false

theorem Extension.Revoked.holdsNothing {x : Extension} {c d : Catalog} (revoked : x.Revoked c d)
    (lists : ∀ name, c.modes.held (.extension x.id) name = true → name ∈ x.heldModes)
    (typeLists : ∀ type, c.contentTypes.held (.extension x.id) type = true → type ∈ x.heldContentTypes) :
    x.HoldsNothing d := by
  refine ⟨fun name => ?_,fun type => ?_⟩
  · rw [Table.heldRevoked revoked.modes]
    cases held : c.modes.held (.extension x.id) name with
    | false => rfl
    | true => simp [lists name held]
  · rw [Table.heldRevoked revoked.contentTypes]
    cases held : c.contentTypes.held (.extension x.id) type with
    | false => rfl
    | true => simp [typeLists type held]

namespace Session
variable {host : Host} {programs : Text → List Op} {s t : Session}
  {x : Extension} {id : Text} {P Q : Session → Prop} {ops more : List Op} {op : Op}

theorem Accounted.holdsListed (accounted : Accounted id s) (found : s.extension? id = some x) :
    x.HoldsListed s.catalog := by
  obtain rfl := extensionNamed found
  have own {name : Text} (lists : name ∈ x.heldModes) : s.catalog.modes.held (.extension x.id) name = true :=
    Table.heldIff.mpr (accounted.listed x found name lists)
  refine ⟨fun name => ⟨fun held => ?_,own⟩,fun name held => ?_,fun type held => ?_⟩
  · obtain ⟨e,there,own⟩ := Table.heldIff.mp held
    exact (accounted.modeListed found there own).1
  · obtain ⟨e,there,own⟩ := Table.heldIff.mp held
    rw [Catalog.mode?, Catalog.lookupText, there, Catalog.okBind, ← (accounted.modeListed found there own).2]
    rfl
  · obtain ⟨e,there,owns⟩ := Table.heldIff.mp held
    obtain ⟨_,asked,head⟩ := accounted.typeListed found there owns
    refine ⟨asked,?_,e.item,head,own (List.mem_of_mem_head? head)⟩
    rw [Catalog.target?, Catalog.lookupText, there, Catalog.okBind, head]
    rfl

theorem Accounted.untyped (accounted : Accounted id s) (found : s.extension? id = some x)
    (types : x.heldContentTypes = []) (type : Text) : s.catalog.contentTypes.held (.extension x.id) type = false := by
  obtain rfl := extensionNamed found
  rw [← Bool.not_eq_true, Table.heldIff]
  rintro ⟨e,there,own⟩
  have lists := (accounted.typeListed found there own).1
  rw [types] at lists
  exact List.not_mem_nil lists

theorem Accounted.holdsNothing (accounted : Accounted id s) (found : s.extension? id = some x)
    (modes : x.heldModes = []) (types : x.heldContentTypes = []) : x.HoldsNothing s.catalog := by
  refine ⟨fun name => ?_,accounted.untyped found types⟩
  rw [← Bool.not_eq_true, (accounted.holdsListed found).modes, modes]
  exact List.not_mem_nil

def Idle (id : Text) (s : Session) : Prop :=
  ∀ x, s.extension? id = some x → x.loaded = false → x.heldModes = [] ∧ x.heldContentTypes = []

/- Not loaded, the extension lists names, and asks for what is refused every time. -/
def Stranded (id : Text) (s : Session) : Prop :=
  ∃ x, s.extension? id = some x ∧ x.loaded = false ∧ x.heldModes ≠ [] ∧ x.heldContentTypes = [] ∧ x.Faulty

/- The extension is not loaded, and a load would gain it a name before it comes to something that is refused. -/
def PartWay (host : Host) (id : Text) (s : Session) : Prop :=
  ∃ x, s.extension? id = some x ∧ x.loaded = false ∧ x.Faulty ∧ x.Gains host s.catalog

theorem Private.both (first : Private id P) (second : Private id Q) : Private id fun s => P s ∧ Q s where
  apart apart holds := ⟨first.apart apart holds.1,second.apart apart holds.2⟩
  made options gone holds := ⟨first.made options gone holds.1,second.made options gone holds.2⟩
  unloaded found active revoked now holds :=
    ⟨first.unloaded found active revoked now holds.1,second.unloaded found active revoked now holds.2⟩

theorem idlePrivate (id : Text) : Private id (Idle id) where
  apart apart idle x found := idle x (apart.extension ▸ found)
  made {s} options gone _ x found _ := by
    rw [extensionAdded, gone, Option.none_or] at found
    split at found
    · cases Option.some.inj found
      exact ⟨rfl,rfl⟩
    · contradiction
  unloaded {s t x} _ _ _ now _ y same _ := by
    cases Option.some.inj (now.symm.trans same)
    exact ⟨rfl,rfl⟩

theorem strandedPrivate (id : Text) : Private id (Stranded id) where
  apart apart stranded := by
    obtain ⟨x,found,lists⟩ := stranded
    exact ⟨x,apart.extension.trans found,lists⟩
  made options gone stranded := by
    obtain ⟨x,found,_⟩ := stranded
    cases gone.symm.trans found
  unloaded {s t x} found active _ _ stranded := by
    obtain ⟨y,same,inactive,_⟩ := stranded
    cases Option.some.inj (found.symm.trans same)
    cases active.symm.trans inactive

theorem loadIdle (host : Host) {invoke : Callback → Action Unit}
    (refreshes : Within SameTables (invoke (.refresh id))) (accounted : Accounted id s) (idle : Idle id s) :
    Accounted id (left (load host invoke id s)) ∧
      (Idle id (left (load host invoke id s)) ∧ ¬ PartWay host id s ∨
        Stranded id (left (load host invoke id s)) ∧ Refused (load host invoke id s) ∧ PartWay host id s) := by
  cases found : s.extension? id with
  | none =>
    rw [loadNothing host invoke fun x there => by cases found.symm.trans there]
    refine ⟨accounted,.inl ⟨idle,?_⟩⟩
    rintro ⟨x,there,_⟩
    cases found.symm.trans there
  | some x =>
    obtain rfl := extensionNamed found
    cases inactive : x.loaded with
    | true =>
      rw [loadNothing host invoke fun y there => Option.some.inj (found.symm.trans there) ▸ inactive]
      refine ⟨accounted,.inl ⟨idle,?_⟩⟩
      rintro ⟨y,same,unloaded,_⟩
      cases Option.some.inj (found.symm.trans same)
      cases inactive.symm.trans unloaded
    | false =>
      obtain ⟨noModes,noTypes⟩ := idle x found inactive
      obtain ⟨more,types,after,gains,ends⟩ := loadEnds host refreshes accounted found inactive
      have lists : (listing more [] x).heldModes = more := by rw [listing, noModes, List.nil_append]
      -- The lists were empty, so they hold something after the load just where it gained a name.
      have cause : PartWay host x.id s ↔ x.Faulty ∧ more ≠ [] := by
        rw [← gains]
        constructor
        · rintro ⟨y,same,_,facts⟩
          cases Option.some.inj (found.symm.trans same)
          exact facts
        · exact fun facts => ⟨x,found,inactive,facts⟩
      rw [cause]
      refine ⟨after,?_⟩
      rcases ends with ⟨refused,now,faulty⟩ | ⟨now,sound⟩
      · by_cases none : more = []
        · refine .inl ⟨fun y same _ => ?_,fun partWay => partWay.2 none⟩
          cases Option.some.inj (now.symm.trans same)
          exact ⟨lists.trans none,by rw [listing, noTypes]; rfl⟩
        · have stranded : (listing more [] x).heldModes ≠ [] := fun empty => none (lists.symm.trans empty)
          exact .inr ⟨⟨_,now,inactive,stranded,by rw [listing, noTypes]; rfl,faulty none⟩,refused,faulty none,none⟩
      · refine .inl ⟨?_,?_⟩
        · intro y same unlike
          cases Option.some.inj (now.symm.trans same)
          cases unlike
        · rintro ⟨faulty,gained⟩
          exact sound (fun empty => gained (lists.symm.trans empty)) faulty

theorem loadStranded (host : Host) {invoke : Callback → Action Unit}
    (refreshes : Within SameTables (invoke (.refresh id))) (accounted : Accounted id s) (stranded : Stranded id s) :
    Accounted id (left (load host invoke id s)) ∧ Stranded id (left (load host invoke id s)) ∧
      Refused (load host invoke id s) := by
  obtain ⟨x,found,inactive,some,noTypes,faulty⟩ := stranded
  obtain rfl := extensionNamed found
  obtain ⟨more,types,after,_,ends⟩ := loadEnds host refreshes accounted found inactive
  have still : (listing more [] x).heldModes ≠ [] := fun none => some (List.append_eq_nil_iff.mp none).1
  rcases ends with ⟨refused,now,_⟩ | ⟨_,sound⟩
  · exact ⟨after,⟨_,now,inactive,still,by rw [listing, noTypes]; rfl,faulty⟩,refused⟩
  · exact absurd faulty (sound still)

def Settled (id : Text) (s : Session) : Prop := Accounted id s ∧ Idle id s

def Stuck (id : Text) (s : Session) : Prop := Accounted id s ∧ Stranded id s

theorem afreshApart (id : Text) (s : Session) : Apart id s s.afresh :=
  ⟨rfl,Table.sameForRefl _ _,Table.sameForRefl _ _⟩

theorem stepKeeps (own : Private id P) (sparing : ∀ callback, Op.SparingAll id (programs callback))
    (other : op.Sparing id) (holds : P s) : P (step host programs s op).2 := by
  rw [stepLeft]
  exact performKeeps own (invokeKeeps own host sparing depthLimit) op other s.afresh
    (own.apart (afreshApart id s) holds)

def refused : Except Failure Answer → Bool
  | .error (.registration _ _) => true
  | _ => false

theorem stepLoadLeft :
    (step host programs s (.load id)).2 = left (load host (invoke host programs) id s.afresh) := by
  rw [stepLeft, perform]
  exact leftMap (load host (invoke host programs) id) (fun _ => Answer.nothing) s.afresh

theorem stepLoadRefused (stopped : Refused (load host (invoke host programs) id s.afresh)) :
    refused (step host programs s (.load id)).1 = true := by
  obtain ⟨name,reason,t,failed⟩ := stopped
  have failed : perform host (invoke host programs) (.load id) {s with notices := [], calls := []} =
      .error (.registration name reason) t := by
    rw [perform]
    exact bindFails failed
  rw [step, failed]
  rfl

def steps (host : Host) (programs : Text → List Op) (s : Session) (ops : List Op) :
    List (Op × Except Failure Answer × Session) :=
  ops.zip (run host programs s ops)

def ending (host : Host) (programs : Text → List Op) (s : Session) (ops : List Op) : Session :=
  (run host programs s ops).getLast?.elim s (·.2)

theorem stepsMore : steps host programs s (op :: more) =
    (op,step host programs s op) :: steps host programs (step host programs s op).2 more := rfl

theorem endingMore :
    ending host programs s (op :: more) = ending host programs (step host programs s op).2 more := by
  rw [ending, run, List.getLast?_cons, ending]
  cases (run host programs (step host programs s op).2 more).getLast? <;> rfl

theorem stepsReached {op : Op} (s : Session) (earlier later : List Op) :
    (op,step host programs (ending host programs s earlier) op) ∈ steps host programs s (earlier ++ op :: later) := by
  induction earlier generalizing s with
  | nil => exact List.mem_cons_self
  | cons first earlier ih =>
    rw [List.cons_append, stepsMore, endingMore]
    exact List.mem_cons_of_mem _ (ih _)

theorem Stuck.holds (stuck : Stuck id t) : ∃ x, t.extension? id = some x ∧ x.loaded = false ∧
    ∃ name, t.catalog.modes.held (.extension id) name = true := by
  obtain ⟨accounted,x,found,inactive,some,_⟩ := stuck
  obtain rfl := extensionNamed found
  obtain ⟨name,lists⟩ := List.exists_mem_of_ne_nil _ some
  exact ⟨x,found,inactive,name,((accounted.holdsListed found).modes name).mpr lists⟩

theorem settledPrivate (id : Text) : Private id (Settled id) := (accountedPrivate id).both (idlePrivate id)

theorem stuckPrivate (id : Text) : Private id (Stuck id) := (accountedPrivate id).both (strandedPrivate id)

theorem refreshTables (host : Host) (programs : Text → List Op) (id : Text) :
    Within SameTables (invoke host programs (.refresh id)) := by
  rw [invoke, invokeRefresh]
  exact refreshWhenReadyTables host id

theorem loadSettled (host : Host) (programs : Text → List Op) (settled : Settled id s) :
    Settled id (step host programs s (.load id)).2 ∧ ¬ PartWay host id s ∨
      Stuck id (step host programs s (.load id)).2 ∧ refused (step host programs s (.load id)).1 = true ∧
        PartWay host id s := by
  obtain ⟨accounted,idle⟩ := (settledPrivate id).apart (afreshApart id s) settled
  obtain ⟨after,ends⟩ := loadIdle host (refreshTables host programs id) accounted idle
  rw [← stepLoadLeft] at after ends
  rcases ends with ⟨idle,whole⟩ | ⟨stranded,stopped,partWay⟩
  · exact .inl ⟨⟨after,idle⟩,whole⟩
  · exact .inr ⟨⟨after,stranded⟩,stepLoadRefused stopped,partWay⟩

theorem loadStuck (host : Host) (programs : Text → List Op) (stuck : Stuck id s) :
    Stuck id (step host programs s (.load id)).2 ∧ refused (step host programs s (.load id)).1 = true := by
  obtain ⟨accounted,stranded⟩ := (stuckPrivate id).apart (afreshApart id s) stuck
  obtain ⟨after,still,stopped⟩ := loadStranded host (refreshTables host programs id) accounted stranded
  rw [← stepLoadLeft] at after still
  exact ⟨⟨after,still⟩,stepLoadRefused stopped⟩

theorem runStuck (sparing : ∀ callback, Op.SparingAll id (programs callback))
    (among : ∀ op ∈ ops, op = .load id ∨ op.Sparing id) (stuck : Stuck id s) :
    Stuck id (ending host programs s ops) := by
  induction ops generalizing s with
  | nil => exact stuck
  | cons op more ih =>
    rw [endingMore]
    refine ih (fun op later => among op (List.mem_cons_of_mem _ later)) ?_
    rcases among op List.mem_cons_self with rfl | other
    · exact (loadStuck host programs stuck).1
    · exact stepKeeps (stuckPrivate id) sparing other stuck

def StopsPartWay (host : Host) (programs : Text → List Op) (id : Text) (s : Session) (ops : List Op) : Prop :=
  ∃ earlier later, ops = earlier ++ .load id :: later ∧ PartWay host id (ending host programs s earlier)

theorem stopsMore : StopsPartWay host programs id s (op :: more) ↔
    op = .load id ∧ PartWay host id s ∨ StopsPartWay host programs id (step host programs s op).2 more := by
  constructor
  · rintro ⟨earlier,later,split,partWay⟩
    cases earlier with
    | nil =>
      cases split
      exact .inl ⟨rfl,partWay⟩
    | cons first earlier =>
      cases split
      exact .inr ⟨earlier,later,rfl,endingMore ▸ partWay⟩
  · rintro (⟨rfl,partWay⟩ | ⟨earlier,later,rfl,partWay⟩)
    · exact ⟨[],more,rfl,partWay⟩
    · exact ⟨op :: earlier,later,rfl,endingMore ▸ partWay⟩

/- A run leaves an extension settled as long as none of its loads stops part-way, and stuck from then on. -/
theorem runSettled (sparing : ∀ callback, Op.SparingAll id (programs callback))
    (among : ∀ op ∈ ops, op = .load id ∨ op.Sparing id) (settled : Settled id s) :
    Settled id (ending host programs s ops) ∧ ¬ StopsPartWay host programs id s ops ∨
      Stuck id (ending host programs s ops) ∧ StopsPartWay host programs id s ops := by
  induction ops generalizing s with
  | nil =>
    refine .inl ⟨settled,?_⟩
    rintro ⟨earlier,later,split,_⟩
    exact List.append_ne_nil_of_right_ne_nil earlier (List.cons_ne_nil _ later) split.symm
  | cons op more ih =>
    have later : ∀ op ∈ more, op = .load id ∨ op.Sparing id :=
      fun op inside => among op (List.mem_cons_of_mem _ inside)
    rw [endingMore, stopsMore]
    by_cases load : op = .load id
    · subst load
      rcases loadSettled host programs settled with ⟨now,whole⟩ | ⟨stuck,_,partWay⟩
      · simpa [whole] using ih later now
      · exact .inr ⟨runStuck sparing later stuck,.inl ⟨rfl,partWay⟩⟩
    · have other := (among op List.mem_cons_self).resolve_left load
      simpa [load] using ih later (stepKeeps (settledPrivate id) sparing other settled)

theorem partWayRefused {earlier later : List Op} (sparing : ∀ callback, Op.SparingAll id (programs callback))
    (among : ∀ op ∈ earlier ++ .load id :: later, op = .load id ∨ op.Sparing id) (settled : Settled id s)
    (partWay : PartWay host id (ending host programs s earlier)) :
    refused (step host programs (ending host programs s earlier) (.load id)).1 = true ∧
      Stuck id (step host programs (ending host programs s earlier) (.load id)).2 := by
  have before : ∀ op ∈ earlier, op = .load id ∨ op.Sparing id :=
    fun op inside => among op (List.mem_append_left _ inside)
  rcases runSettled sparing before settled with ⟨now,_⟩ | ⟨stuck,_⟩
  · rcases loadSettled host programs now with ⟨_,whole⟩ | ⟨after,stopped,_⟩
    · exact absurd partWay whole
    · exact ⟨stopped,after⟩
  · obtain ⟨after,stopped⟩ := loadStuck host programs stuck
    exact ⟨stopped,after⟩

theorem settledStart (attached : Bool) (id : Text) : Settled id (.start attached) :=
  ⟨accountedStart attached id,fun _ found => by contradiction⟩

theorem holdingsListed (host : Host) (attached : Bool) (sparing : ∀ callback, Op.SparingAll id (programs callback))
    (among : ∀ op ∈ ops, op = .load id ∨ op.Sparing id)
    (granted : ∀ r ∈ steps host programs (.start attached) ops, r.1 = .load id → refused r.2.1 = false)
    (found : (ending host programs (.start attached) ops).extension? id = some x) :
    (x.loaded = true → x.HoldsListed (ending host programs (.start attached) ops).catalog) ∧
      (x.loaded = false → x.HoldsNothing (ending host programs (.start attached) ops).catalog) := by
  rcases runSettled sparing among (settledStart attached id) with ⟨⟨accounted,idle⟩,_⟩ | ⟨_,stops⟩
  · refine ⟨fun _ => accounted.holdsListed found,fun inactive => ?_⟩
    obtain ⟨modes,types⟩ := idle x found inactive
    exact accounted.holdsNothing found modes types
  · obtain ⟨earlier,later,rfl,partWay⟩ := stops
    obtain ⟨stopped,_⟩ := partWayRefused sparing among (settledStart attached id) partWay
    cases (granted _ (stepsReached _ earlier later) rfl).symm.trans stopped

theorem holdingsListedTwice :
    let host : Host := ⟨fun _ => Mode.lexer,.standard⟩
    let p := "p".toList
    let ops : List Op := [.insertMode (.text "b".toList) [] (.guest "g".toList),
      .makeExtension p ⟨none,some [.text "a".toList,.text "b".toList,.text "a".toList],none⟩,.load p,
      .eraseMode (.text "b".toList) (.guest "g".toList)]
    ∃ x, (ending host (fun _ => []) (.start true) ops).extension? p = some x ∧ x.loaded = true ∧
      x.heldModes = ["a".toList,"a".toList] ∧ x.HoldsListed (ending host (fun _ => []) (.start true) ops).catalog := by
  intro host p ops
  have sparing : ∀ callback : Text, Op.SparingAll p ((fun _ => []) callback) := fun _ => trivial
  have among : ∀ op ∈ ops, op = .load p ∨ op.Sparing p := by simp [ops, Op.Sparing]
  have outcomes : (steps host (fun _ => []) (.start true) ops).all (fun r => !refused r.2.1) = true := by
    decide +kernel
  have granted : ∀ r ∈ steps host (fun _ => []) (.start true) ops, r.1 = .load p → refused r.2.1 = false :=
    fun r inside _ => Bool.not_eq_true' _ |>.mp (List.all_eq_true.mp outcomes r inside)
  have ended : ((ending host (fun _ => []) (.start true) ops).extension? p).map (fun x => (x.loaded,x.heldModes)) =
      some (true,["a".toList,"a".toList]) := by decide +kernel
  obtain ⟨x,found,facts⟩ := Option.map_eq_some_iff.mp ended
  obtain ⟨loaded,lists⟩ := Prod.mk.inj facts
  exact ⟨x,found,loaded,lists,(holdingsListed host true sparing among granted found).1 loaded⟩

theorem holdingsWhileUnloaded (host : Host) (attached : Bool)
    (sparing : ∀ callback, Op.SparingAll id (programs callback))
    (among : ∀ op ∈ ops, op = .load id ∨ op.Sparing id)
    (found : (ending host programs (.start attached) ops).extension? id = some x) (inactive : x.loaded = false) :
    (∀ type, (ending host programs (.start attached) ops).catalog.contentTypes.held (.extension id) type = false) ∧
      ((∃ name, (ending host programs (.start attached) ops).catalog.modes.held (.extension id) name = true) ↔
        ∃ earlier later, ops = earlier ++ .load id :: later ∧
          PartWay host id (ending host programs (.start attached) earlier)) ∧
      (∀ earlier later, ops = earlier ++ .load id :: later →
        PartWay host id (ending host programs (.start attached) earlier) →
          refused (step host programs (ending host programs (.start attached) earlier) (.load id)).1 = true ∧
            ∃ name, (step host programs (ending host programs (.start attached) earlier) (.load id)).2.catalog.modes.held
              (.extension id) name = true) ∧
      ((∃ name, (ending host programs (.start attached) ops).catalog.modes.held (.extension id) name = true) →
        x.Faulty) := by
  obtain rfl := extensionNamed found
  have refusals (earlier later : List Op) (split : ops = earlier ++ .load x.id :: later)
      (partWay : PartWay host x.id (ending host programs (.start attached) earlier)) :
      refused (step host programs (ending host programs (.start attached) earlier) (.load x.id)).1 = true ∧
        ∃ name, (step host programs (ending host programs (.start attached) earlier) (.load x.id)).2.catalog.modes.held
          (.extension x.id) name = true := by
    obtain ⟨stopped,stuck⟩ := partWayRefused sparing (split ▸ among) (settledStart attached x.id) partWay
    obtain ⟨_,_,_,held⟩ := stuck.holds
    exact ⟨stopped,held⟩
  rcases runSettled sparing among (settledStart attached x.id) with ⟨⟨accounted,idle⟩,none⟩ | ⟨stuck,stops⟩
  · obtain ⟨modes,types⟩ := idle x found inactive
    have nothing := accounted.holdsNothing found modes types
    have unheld : ¬ ∃ name,
        (ending host programs (.start attached) ops).catalog.modes.held (.extension x.id) name = true := by
      rintro ⟨name,held⟩
      cases (nothing.modes name).symm.trans held
    exact ⟨nothing.contentTypes,⟨fun held => absurd held unheld,fun stops => absurd stops none⟩,refusals,
      fun held => absurd held unheld⟩
  · obtain ⟨_,_,_,held⟩ := stuck.holds
    obtain ⟨accounted,y,same,_,_,noTypes,faulty⟩ := stuck
    cases Option.some.inj (found.symm.trans same)
    exact ⟨accounted.untyped found noTypes,⟨fun _ => stops,fun _ => held⟩,refusals,fun _ => faulty⟩

theorem holdingsWhileUnloadedPartWay :
    let host : Host := ⟨fun _ => Mode.lexer,.standard⟩
    let p := "p".toList
    let make : Op := .makeExtension p ⟨none,some [.text "a".toList,.text []],none⟩
    let ended := ending host (fun _ => []) (.start true) [make,.load p,.unload p]
    ∃ x, ended.extension? p = some x ∧ x.loaded = false ∧ x.Faulty ∧
      PartWay host p (ending host (fun _ => []) (.start true) [make]) ∧
      ∃ name, ended.catalog.modes.held (.extension p) name = true := by
  intro host p make ended
  have sparing : ∀ callback : Text, Op.SparingAll p ((fun _ => []) callback) := fun _ => trivial
  have among : ∀ op ∈ [make,.load p,.unload p], op = .load p ∨ op.Sparing p := by simp [make, Op.Sparing]
  have status : (ended.extension? p).map (·.loaded) = some false := by decide +kernel
  obtain ⟨x,found,inactive⟩ := Option.map_eq_some_iff.mp status
  obtain ⟨_,holds,_,faulty⟩ := holdingsWhileUnloaded host true sparing among found inactive
  have partWay : PartWay host p (ending host (fun _ => []) (.start true) [make]) := by
    have empty : Value.text [] ∈ [.text "a".toList,.text []] := List.mem_cons_of_mem _ List.mem_cons_self
    have first : Value.text "a".toList ∈ [.text "a".toList] := List.mem_cons_self
    exact ⟨_,rfl,rfl,.inl ⟨_,empty,rfl⟩,rfl,_,first,rfl⟩
  have held := holds.mpr ⟨[make],[.unload p],rfl,partWay⟩
  exact ⟨x,found,inactive,faulty held,partWay,held⟩

theorem unloadedStillHolds :
    let p := "p".toList
    let ended := ending ⟨fun _ => Mode.lexer,.standard⟩ (fun _ => []) (.start true)
      [.makeExtension p ⟨none,some [.text "a".toList,.text []],none⟩,.load p,.unload p]
    (ended.extension? p).map (·.loaded) = some false ∧
      ended.catalog.modes.held (.extension p) "a".toList = true := by
  decide +kernel

end Session
end LittleMan
