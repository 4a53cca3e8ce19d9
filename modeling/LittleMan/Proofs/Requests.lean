import LittleMan.Proofs.Holdings

/-! Requests of an owner to a catalog. Each asks at most one thing of one table: to have an item under a
name, or to give the name back. What the table then is depends on who has the name, and nobody else's
entries and no other names are ever touched. A request that fails, or is not granted, changes nothing. -/
namespace LittleMan
namespace Table
variable {α : Type} {table after : Table α} {owner : Owner} {name : Text} {e : Entry α}

structure Deed (α : Type) where
  owner : Owner
  name : Text
  item : Option α

def Deed.allowed (deed : Deed α) (table : Table α) : Bool :=
  match deed.item with
  | some _ => table.free deed.owner deed.name
  | none => table.held deed.owner deed.name

def Deed.done (deed : Deed α) (table : Table α) : Text → Option (Entry α) :=
  match deed.item with
  | some item => table.granted deed.owner item [deed.name]
  | none => table.revoked deed.owner [deed.name]

def next (table : Table α) (deed : Option (Deed α)) : Text → Option (Entry α) :=
  deed.elim table.get? (·.done table)

structure Spared (owner : Owner) (about : Option Text) (table after : Table α) : Prop where
  others : ∀ other, other ≠ owner → SameFor other table after
  names : ∀ name, about ≠ some name → after.get? name = table.get? name

/- What the answer tells of the name: an item is granted if the owner then has it there, and refused if
somebody else's entry stands there as before; a name is given back if the owner had it, and is then free. -/
def Deed.Answered (deed : Deed α) (table after : Table α) (answer : Bool) : Prop :=
  match deed.item with
  | some item =>
    (answer = true ↔ after.get? deed.name = some ⟨deed.name,item,deed.owner⟩) ∧
      (answer = false ↔ ∃ e, e.owner ≠ deed.owner ∧ table.get? deed.name = some e ∧ after.get? deed.name = some e)
  | none =>
    (answer = true ↔ ∃ e, table.get? deed.name = some e ∧ e.owner = deed.owner) ∧
      (answer = true → after.get? deed.name = none)

theorem doneSpared {deed : Deed α} (done : after.get? = deed.done table) :
    Spared deed.owner (some deed.name) table after := by
  obtain ⟨owner,name,item⟩ := deed
  have elsewhere : ∀ other, some name ≠ some other → other ∉ [name] := fun other differs inside =>
    differs (congrArg some (List.mem_singleton.mp inside).symm)
  cases item with
  | some item =>
    refine ⟨fun other differs => grantedSameFor differs done,fun other differs => ?_⟩
    rw [done]
    exact if_neg fun asked => elsewhere other differs asked.1
  | none =>
    refine ⟨fun other differs => revokedSameFor differs done,fun other differs => ?_⟩
    rw [done]
    exact if_neg fun asked => elsewhere other differs asked.1

theorem nextSpared {about : Option Text} {asked : Option (Deed α)}
    (named : ∀ deed, asked = some deed → owner = deed.owner ∧ about = some deed.name)
    (next : after.get? = table.next asked) : Spared owner about table after := by
  cases asked with
  | none =>
    have same : after.get? = table.get? := next
    exact ⟨fun _ _ name e _ => by rw [same],fun name _ => congrFun same name⟩
  | some deed =>
    obtain ⟨own,about⟩ := named deed rfl
    rw [own, about]
    exact doneSpared next

theorem heldForeign (found : table.get? name = some e) (foreign : e.owner ≠ owner) :
    table.free owner name = false ∧ table.held owner name = false := by
  rw [freeFound owner found, heldFound owner found]
  exact ⟨decide_eq_false foreign,decide_eq_false foreign⟩

theorem foreignFound (refused : table.free owner name = false) :
    ∃ e, e.owner ≠ owner ∧ table.get? name = some e := by
  cases found : table.get? name with
  | none => cases (freeMissing owner found).symm.trans refused
  | some e => exact ⟨e,of_decide_eq_false ((freeFound owner found).symm.trans refused),rfl⟩

theorem doneAnswered {deed : Deed α} (done : after.get? = deed.done table) :
    deed.Answered table after (deed.allowed table) := by
  obtain ⟨owner,name,item⟩ := deed
  cases item with
  | some item =>
    have there : after.get? name = if table.free owner name = true then some ⟨name,item,owner⟩ else table.get? name := by
      rw [done]
      simp only [Deed.done, granted, List.mem_singleton, true_and]
    show (table.free owner name = true ↔ _) ∧ (table.free owner name = false ↔ _)
    rw [there]
    cases free : table.free owner name with
    | true =>
      refine ⟨⟨fun _ => if_pos rfl,fun _ => rfl⟩,⟨fun refused => absurd refused.symm Bool.false_ne_true,?_⟩⟩
      rintro ⟨e,foreign,found,_⟩
      exact free.symm.trans (heldForeign found foreign).1
    | false =>
      obtain ⟨e,foreign,found⟩ := foreignFound free
      refine ⟨⟨fun granted => absurd granted Bool.false_ne_true,fun own => ?_⟩,
        ⟨fun _ => ⟨e,foreign,found,by rw [if_neg Bool.false_ne_true, found]⟩,fun _ => rfl⟩⟩
      rw [if_neg Bool.false_ne_true, found] at own
      exact absurd (congrArg Entry.owner (Option.some.inj own)) foreign
  | none =>
    refine ⟨heldIff,fun held => ?_⟩
    rw [done]
    exact if_pos ⟨List.mem_singleton_self name,held⟩

end Table

namespace Session
variable {host : Host} {programs : Text → List Op} {s : Session} {c : Catalog}

inductive Wish where
  | insertMode (name : Value) (mode : Text)
  | eraseMode (name : Value)
  | insertContentType (contentType name : Value)
  | eraseContentType (contentType : Value)

structure Request where
  owner : Owner
  wish : Wish

namespace Request

def op (r : Request) : Op :=
  match r.wish with
  | .insertMode name mode => .insertMode name mode r.owner
  | .eraseMode name => .eraseMode name r.owner
  | .insertContentType contentType name => .insertContentType contentType name r.owner
  | .eraseContentType contentType => .eraseContentType contentType r.owner

def ask (r : Request) (host : Host) (c : Catalog) : Except Failure Catalog.Change :=
  match r.wish with
  | .insertMode name mode => c.insertMode host.mode name (.host mode) r.owner
  | .eraseMode name => c.eraseMode name r.owner
  | .insertContentType contentType name => c.insertContentType contentType name r.owner
  | .eraseContentType contentType => c.eraseContentType contentType r.owner

def modeName? (r : Request) : Option Text :=
  match r.wish with
  | .insertMode (.text name) _ | .eraseMode (.text name) => some name
  | _ => none

def contentTypeName? (r : Request) : Option Text :=
  match r.wish with
  | .insertContentType (.text name) _ | .eraseContentType (.text name) => some name
  | _ => none

def Valid (r : Request) (host : Host) (c : Catalog) : Prop :=
  match r.wish with
  | .insertMode name mode => (∃ t, name = .text t ∧ t ≠ []) ∧ (host.modes mode).lacks? = none
  | .insertContentType contentType name =>
    (∃ t, contentType = .text t ∧ t ≠ []) ∧ ∃ t e, name = .text t ∧ c.modes.get? t = some e
  | .eraseMode name | .eraseContentType name => name.isKey = true

def modeDeed? (r : Request) (host : Host) : Option (Table.Deed ModeRef) :=
  match r.wish with
  | .insertMode (.text name) mode =>
    if name ≠ [] ∧ (host.modes mode).lacks? = none then some ⟨r.owner,name,some (.host mode)⟩ else none
  | .eraseMode (.text name) => some ⟨r.owner,name,none⟩
  | _ => none

def contentTypeDeed? (r : Request) (c : Catalog) : Option (Table.Deed Text) :=
  match r.wish with
  | .insertContentType (.text contentType) (.text name) =>
    if contentType ≠ [] ∧ (c.modes.get? name).isSome then some ⟨r.owner,contentType,some name⟩ else none
  | .eraseContentType (.text contentType) => some ⟨r.owner,contentType,none⟩
  | _ => none

inductive Effect (r : Request) (host : Host) (c : Catalog) : Except Failure Catalog.Change → Prop where
  | failed {e} (invalid : ¬ r.Valid host c) (noMode : r.modeDeed? host = none)
      (noType : r.contentTypeDeed? c = none) : Effect r host c (.error e)
  | idle {d} (valid : r.Valid host c) (noMode : r.modeDeed? host = none) (noType : r.contentTypeDeed? c = none)
      (refused : d.answer = false) (same : d.catalog = c) : Effect r host c (.ok d)
  | onModes {deed d} (valid : r.Valid host c) (asks : r.modeDeed? host = some deed)
      (answer : d.answer = deed.allowed c.modes) (refused : d.answer = false → d.catalog = c)
      (others : d.catalog.contentTypes = c.contentTypes) (done : d.catalog.modes.get? = deed.done c.modes) :
      Effect r host c (.ok d)
  | onContentTypes {deed d} (valid : r.Valid host c) (asks : r.contentTypeDeed? c = some deed)
      (answer : d.answer = deed.allowed c.contentTypes) (refused : d.answer = false → d.catalog = c)
      (others : d.catalog.modes = c.modes) (done : d.catalog.contentTypes.get? = deed.done c.contentTypes) :
      Effect r host c (.ok d)

theorem modeDeedNamed (c : Catalog) {r : Request} {deed : Table.Deed ModeRef} (asks : r.modeDeed? host = some deed) :
    r.owner = deed.owner ∧ r.modeName? = some deed.name ∧ r.contentTypeName? = none ∧
      r.contentTypeDeed? c = none := by
  obtain ⟨owner,wish⟩ := r
  cases wish with
  | insertMode name mode =>
    cases name with
    | text name =>
      obtain ⟨_,made⟩ := Option.ite_none_right_eq_some.mp asks
      cases made
      exact ⟨rfl,rfl,rfl,rfl⟩
    | _ => contradiction
  | eraseMode name =>
    cases name with
    | text name =>
      cases Option.some.inj asks
      exact ⟨rfl,rfl,rfl,rfl⟩
    | _ => contradiction
  | _ => contradiction

theorem contentTypeDeedNamed (host : Host) {r : Request} {deed : Table.Deed Text}
    (asks : r.contentTypeDeed? c = some deed) :
    r.owner = deed.owner ∧ r.contentTypeName? = some deed.name ∧ r.modeName? = none ∧
      r.modeDeed? host = none := by
  obtain ⟨owner,wish⟩ := r
  cases wish with
  | insertContentType contentType name =>
    cases contentType with
    | text contentType =>
      cases name with
      | text name =>
        obtain ⟨_,made⟩ := Option.ite_none_right_eq_some.mp asks
        cases made
        exact ⟨rfl,rfl,rfl,rfl⟩
      | _ => contradiction
    | _ => contradiction
  | eraseContentType contentType =>
    cases contentType with
    | text contentType =>
      cases Option.some.inj asks
      exact ⟨rfl,rfl,rfl,rfl⟩
    | _ => contradiction
  | _ => contradiction

theorem insertModeEffect (host : Host) (c : Catalog) (owner : Owner) (name : Value) (mode : Text) :
    Effect ⟨owner,.insertMode name mode⟩ host c (c.insertMode host.mode name (.host mode) owner) := by
  by_cases valid : Valid ⟨owner,.insertMode name mode⟩ host c
  · obtain ⟨⟨t,rfl,filled⟩,whole⟩ := valid
    have able : (host.mode (.host mode)).lacks? = none := whole
    obtain ⟨d,done,answer,refused,others,granted⟩ := Catalog.insertModeGrants c owner filled able
    rw [done]
    exact .onModes ⟨⟨t,rfl,filled⟩,whole⟩ (if_pos ⟨filled,whole⟩) answer refused others granted
  · cases ran : c.insertMode host.mode name (.host mode) owner with
    | ok d =>
      obtain ⟨t,named,rest⟩ := Catalog.bindDone ran
      obtain ⟨same,filled⟩ := Catalog.validNameText named
      cases whole : (host.mode (.host mode)).lacks? with
      | none => exact absurd ⟨⟨t,same,filled⟩,whole⟩ valid
      | some member =>
        rw [whole] at rest
        cases rest
    | error e =>
      refine .failed valid ?_ rfl
      cases name with
      | text t => exact if_neg fun ⟨filled,whole⟩ => valid ⟨⟨t,rfl,filled⟩,whole⟩
      | _ => rfl

theorem insertContentTypeEffect (host : Host) (c : Catalog) (owner : Owner) (contentType name : Value) :
    Effect ⟨owner,.insertContentType contentType name⟩ host c (c.insertContentType contentType name owner) := by
  by_cases valid : Valid ⟨owner,.insertContentType contentType name⟩ host c
  · obtain ⟨⟨t,rfl,filled⟩,target,e,rfl,there⟩ := valid
    obtain ⟨d,done,answer,refused,others,granted⟩ := Catalog.insertContentTypeGrants owner filled there
    rw [done]
    exact .onContentTypes ⟨⟨t,rfl,filled⟩,target,e,rfl,there⟩
      (if_pos ⟨filled,by rw [there]; rfl⟩) answer refused others granted
  · cases ran : c.insertContentType contentType name owner with
    | ok d =>
      obtain ⟨t,named,rest⟩ := Catalog.bindDone ran
      obtain ⟨same,filled⟩ := Catalog.validNameText named
      obtain ⟨found,looked,rest⟩ := Catalog.bindDone rest
      cases found with
      | none => cases rest
      | some e =>
        rcases Catalog.lookupKey looked with missing | ⟨target,named,there⟩
        · cases missing
        · exact absurd ⟨⟨t,same,filled⟩,target,e,named,there⟩ valid
    | error e =>
      refine .failed valid rfl ?_
      cases contentType with
      | text t =>
        cases name with
        | text target =>
          refine if_neg fun ⟨filled,there⟩ => ?_
          obtain ⟨e,found⟩ := Option.isSome_iff_exists.mp there
          exact valid ⟨⟨t,rfl,filled⟩,target,e,rfl,found⟩
        | _ => rfl
      | _ => rfl

theorem eraseModeEffect (host : Host) (c : Catalog) (owner : Owner) (name : Value) :
    Effect ⟨owner,.eraseMode name⟩ host c (c.eraseMode name owner) := by
  cases name with
  | text t =>
    obtain ⟨d,done,answer,refused,others,revoked⟩ := c.eraseModeRevokes t owner
    rw [done]
    exact .onModes rfl rfl answer refused others revoked
  | list _ | object _ => exact .failed Bool.false_ne_true rfl rfl
  | _ => exact .idle rfl rfl rfl rfl rfl

theorem eraseContentTypeEffect (host : Host) (c : Catalog) (owner : Owner) (contentType : Value) :
    Effect ⟨owner,.eraseContentType contentType⟩ host c (c.eraseContentType contentType owner) := by
  cases contentType with
  | text t =>
    obtain ⟨d,done,answer,refused,others,revoked⟩ := c.eraseContentTypeRevokes t owner
    rw [done]
    exact .onContentTypes rfl rfl answer refused others revoked
  | list _ | object _ => exact .failed Bool.false_ne_true rfl rfl
  | _ => exact .idle rfl rfl rfl rfl rfl

/- What a request comes to, read off its deed. Nothing below looks at the operations again. -/
theorem effect (r : Request) (host : Host) (c : Catalog) : r.Effect host c (r.ask host c) := by
  obtain ⟨owner,wish⟩ := r
  cases wish with
  | insertMode name mode => exact insertModeEffect host c owner name mode
  | eraseMode name => exact eraseModeEffect host c owner name
  | insertContentType contentType name => exact insertContentTypeEffect host c owner contentType name
  | eraseContentType contentType => exact eraseContentTypeEffect host c owner contentType

def leaves (c : Catalog) : Except Failure Catalog.Change → Catalog
  | .ok d => d.catalog
  | .error _ => c

section Effect
variable {r : Request} {outcome : Except Failure Catalog.Change} {d : Catalog.Change}

theorem modesNext (effect : r.Effect host c outcome) :
    (leaves c outcome).modes.get? = c.modes.next (r.modeDeed? host) := by
  cases effect with
  | failed _ noMode _ => rw [noMode]; rfl
  | idle _ noMode _ _ same => rw [noMode, leaves, same]; rfl
  | onModes _ asks _ _ _ done => rw [asks]; exact done
  | onContentTypes _ asks _ _ others _ =>
    obtain ⟨_,_,_,noMode⟩ := contentTypeDeedNamed host asks
    rw [noMode, leaves, others]
    rfl

theorem contentTypesNext (effect : r.Effect host c outcome) :
    (leaves c outcome).contentTypes.get? = c.contentTypes.next (r.contentTypeDeed? c) := by
  cases effect with
  | failed _ _ noType => rw [noType]; rfl
  | idle _ _ noType _ same => rw [noType, leaves, same]; rfl
  | onModes _ asks _ _ others _ =>
    obtain ⟨_,_,_,noType⟩ := modeDeedNamed c asks
    rw [noType, leaves, others]
    rfl
  | onContentTypes _ asks _ _ _ done => rw [asks]; exact done

theorem modesSpared (effect : r.Effect host c outcome) :
    Table.Spared r.owner r.modeName? c.modes (leaves c outcome).modes :=
  Table.nextSpared (fun _ asks => ⟨(modeDeedNamed c asks).1,(modeDeedNamed c asks).2.1⟩) (modesNext effect)

theorem contentTypesSpared (effect : r.Effect host c outcome) :
    Table.Spared r.owner r.contentTypeName? c.contentTypes (leaves c outcome).contentTypes :=
  Table.nextSpared (fun _ asks => ⟨(contentTypeDeedNamed host asks).1,(contentTypeDeedNamed host asks).2.1⟩)
    (contentTypesNext effect)

theorem refusedNothing (effect : r.Effect host c (.ok d)) (refused : d.answer = false) : d.catalog = c := by
  cases effect with
  | idle _ _ _ _ same => exact same
  | onModes _ _ _ nothing _ _ => exact nothing refused
  | onContentTypes _ _ _ nothing _ _ => exact nothing refused

theorem disallowedIdle (effect : r.Effect host c outcome)
    (modes : ∀ deed, r.modeDeed? host = some deed → deed.allowed c.modes = false)
    (contentTypes : ∀ deed, r.contentTypeDeed? c = some deed → deed.allowed c.contentTypes = false) :
    leaves c outcome = c := by
  cases effect with
  | failed _ _ _ => rfl
  | idle _ _ _ _ same => exact same
  | onModes _ asks answer refused _ _ => exact refused (answer.trans (modes _ asks))
  | onContentTypes _ asks answer refused _ _ => exact refused (answer.trans (contentTypes _ asks))

structure Answered (r : Request) (host : Host) (c after : Catalog) (answer : Bool) : Prop where
  modes : ∀ deed, r.modeDeed? host = some deed → deed.Answered c.modes after.modes answer
  contentTypes : ∀ deed, r.contentTypeDeed? c = some deed →
    deed.Answered c.contentTypes after.contentTypes answer
  neither : r.modeDeed? host = none → r.contentTypeDeed? c = none → answer = false

theorem answered (effect : r.Effect host c (.ok d)) : r.Answered host c d.catalog d.answer := by
  cases effect with
  | idle _ noMode noType refused _ =>
    exact {
      modes := fun _ asks => absurd (noMode.symm.trans asks) nofun
      contentTypes := fun _ asks => absurd (noType.symm.trans asks) nofun
      neither := fun _ _ => refused }
  | onModes _ asks answer _ _ done =>
    obtain ⟨_,_,_,noType⟩ := modeDeedNamed c asks
    refine ⟨fun deed same => ?_,fun _ other => absurd (noType.symm.trans other) nofun,
      fun noMode => absurd (noMode.symm.trans asks) nofun⟩
    cases asks.symm.trans same
    rw [answer]
    exact Table.doneAnswered done
  | onContentTypes _ asks answer _ _ done =>
    obtain ⟨_,_,_,noMode⟩ := contentTypeDeedNamed host asks
    refine ⟨fun _ other => absurd (noMode.symm.trans other) nofun,fun deed same => ?_,
      fun _ noType => absurd (noType.symm.trans asks) nofun⟩
    cases asks.symm.trans same
    rw [answer]
    exact Table.doneAnswered done

end Effect

theorem opAsks (r : Request) (invoke : Callback → Action Unit) :
    perform host invoke r.op = (do return .bool (← change (r.ask host))) := by
  obtain ⟨owner,wish⟩ := r
  cases wish <;> rw [op, perform] <;> rfl

theorem stepAsks (host : Host) (programs : Text → List Op) (s : Session) (r : Request) :
    (step host programs s r.op).1 = (r.ask host s.catalog).map (fun d => .bool d.answer) ∧
      (step host programs s r.op).2.catalog = leaves s.catalog (r.ask host s.catalog) := by
  rw [step, opAsks]
  cases asked : r.ask host s.catalog with
  | error e =>
    have failed : (change (r.ask host) >>= fun granted => (return .bool granted : Action Answer)) s.afresh =
        .error e s.afresh := bindFails (changeFails asked)
    rw [afresh] at failed
    rw [failed]
    exact ⟨rfl,rfl⟩
  | ok d =>
    have done : (change (r.ask host) >>= fun granted => (return .bool granted : Action Answer)) s.afresh =
        .ok (.bool d.answer) {s.afresh with catalog := d.catalog, notices := [] ++ d.notices} :=
      bindRuns (changeRuns asked)
    rw [afresh] at done
    rw [done]
    exact ⟨rfl,rfl⟩

end Request

theorem ownersKept (host : Host) (programs : Text → List Op) (s : Session) (r : Request) :
    let outcome := (step host programs s r.op).1
    let after := (step host programs s r.op).2.catalog
    Table.Spared r.owner r.modeName? s.catalog.modes after.modes ∧
    Table.Spared r.owner r.contentTypeName? s.catalog.contentTypes after.contentTypes ∧
    (¬ r.Valid host s.catalog → ∃ e, outcome = .error e ∧ after = s.catalog) ∧
    (r.Valid host s.catalog → ∃ answer, outcome = .ok (.bool answer) ∧ r.Answered host s.catalog after answer ∧
      (answer = false → after = s.catalog)) := by
  intro outcome after
  obtain ⟨answers,leaves⟩ := Request.stepAsks host programs s r
  have effect := r.effect host s.catalog
  have answers : outcome = _ := answers
  have leaves : after = _ := leaves
  rw [leaves, answers]
  refine ⟨Request.modesSpared effect,Request.contentTypesSpared effect,?_⟩
  cases asked : r.ask host s.catalog with
  | error e =>
    rw [asked] at effect
    cases effect with
    | failed invalid _ _ => exact ⟨fun _ => ⟨e,rfl,rfl⟩,fun valid => absurd valid invalid⟩
  | ok d =>
    rw [asked] at effect
    have valid : r.Valid host s.catalog := by cases effect <;> assumption
    exact ⟨fun invalid => absurd valid invalid,
      fun _ => ⟨d.answer,rfl,Request.answered effect,Request.refusedNothing effect⟩⟩

theorem ownersKeptForeign :
    let host : Host := ⟨fun _ => Mode.lexer,.standard⟩
    let name := "m".toList
    let s := ending host (fun _ => []) (.start true) [.insertMode (.text name) [] (.guest "g".toList)]
    let r : Request := ⟨.host,.insertMode (.text name) "other".toList⟩
    r.Valid host s.catalog ∧ (step host (fun _ => []) s r.op).1 = .ok (.bool false) ∧
      (step host (fun _ => []) s r.op).2.catalog = s.catalog := by
  intro host name s r
  have valid : r.Valid host s.catalog := ⟨⟨name,rfl,by decide⟩,rfl⟩
  have refused : (step host (fun _ => []) s r.op).1 = .ok (.bool false) := rfl
  obtain ⟨answer,same,_,nothing⟩ := (ownersKept host (fun _ => []) s r).2.2.2 valid
  cases Except.ok.inj (same.symm.trans refused)
  exact ⟨valid,refused,nothing rfl⟩

end Session
end LittleMan
