import LittleMan.Proofs.Requests

/-! Tenancies. A name belongs to the first owner that asks for it while nobody has it, until that owner gives
it back; what stands there is what that owner asked for last, and whatever others ask meanwhile is without
effect. So the history of a catalog says what is in it. -/
namespace LittleMan
namespace Table
variable {α : Type} {table after : Table α} {tables : Nat → Table α} {deeds : Nat → Option (Deed α)}
  {owner : Owner} {name : Text} {item : α} {e : Entry α} {first count : Nat}

structure Course (tables : Nat → Table α) (deeds : Nat → Option (Deed α)) : Prop where
  start : tables 0 = []
  step : ∀ moment, (tables (moment + 1)).get? = (tables moment).next (deeds moment)

structure Tenancy (tables : Nat → Table α) (deeds : Nat → Option (Deed α)) (owner : Owner) (name : Text)
    (first count : Nat) : Prop where
  past : first < count
  asked : ∃ item, deeds first = some ⟨owner,name,some item⟩
  absent : (tables first).get? name = none
  kept : ∀ later, first < later → later < count → deeds later ≠ some ⟨owner,name,none⟩

def Latest (deeds : Nat → Option (Deed α)) (owner : Owner) (name : Text) (first count : Nat) (item : α) : Prop :=
  ∃ last, first ≤ last ∧ last < count ∧ deeds last = some ⟨owner,name,some item⟩ ∧
    ∀ later other, last < later → later < count → deeds later ≠ some ⟨owner,name,some other⟩

theorem foreignRefused {deed : Deed α} (found : table.get? deed.name = some e) (foreign : e.owner ≠ deed.owner) :
    deed.allowed table = false := by
  obtain ⟨owner,name,item⟩ := deed
  cases item with
  | some _ => exact (heldForeign found foreign).1
  | none => exact (heldForeign found foreign).2

theorem doneGranted (free : table.free owner name = true) :
    (⟨owner,name,some item⟩ : Deed α).done table name = some ⟨name,item,owner⟩ :=
  if_pos ⟨List.mem_singleton_self name,free⟩

theorem doneKeeps {deed : Deed α} (found : table.get? name = some e)
    (other : deed.name = name → deed.owner ≠ e.owner) (done : after.get? = deed.done table) :
    after.get? name = some e := by
  have spared := doneSpared done
  by_cases own : deed.owner = e.owner
  · rw [spared.names name fun same => other (Option.some.inj same) own, found]
  · exact (spared.others e.owner (Ne.symm own) name e rfl).mpr found

theorem doneFound {deed : Deed α} (found : deed.done table name = some e) :
    deed = ⟨e.owner,name,some e.item⟩ ∧ table.free e.owner name = true ∨
      table.get? name = some e ∧ (deed.name = name → deed.owner ≠ e.owner) := by
  obtain ⟨owner,about,item⟩ := deed
  cases item with
  | some item =>
    change table.granted owner item [about] name = some e at found
    rw [granted] at found
    split at found
    · rename_i taken
      cases List.mem_singleton.mp taken.1
      cases Option.some.inj found
      exact .inl ⟨rfl,taken.2⟩
    · rename_i refused
      refine .inr ⟨found,fun same own => refused ⟨List.mem_singleton.mpr same.symm,?_⟩⟩
      rw [freeFound owner found]
      exact decide_eq_true own.symm
  | none =>
    change table.revoked owner [about] name = some e at found
    rw [revoked] at found
    split at found
    · contradiction
    · rename_i refused
      refine .inr ⟨found,fun same own => refused ⟨List.mem_singleton.mpr same.symm,?_⟩⟩
      rw [heldFound owner found]
      exact decide_eq_true own.symm

theorem tenancyMore (tenancy : Tenancy tables deeds owner name first count)
    (keeps : deeds count ≠ some ⟨owner,name,none⟩) : Tenancy tables deeds owner name first (count + 1) where
  past := Nat.lt_succ_of_lt tenancy.past
  asked := tenancy.asked
  absent := tenancy.absent
  kept later after within := by
    rcases Nat.lt_succ_iff_lt_or_eq.mp within with earlier | rfl
    · exact tenancy.kept later after earlier
    · exact keeps

theorem latestMore (latest : Latest deeds owner name first count item)
    (keeps : ∀ other, deeds count ≠ some ⟨owner,name,some other⟩) :
    Latest deeds owner name first (count + 1) item := by
  obtain ⟨last,since,within,asked,later⟩ := latest
  refine ⟨last,since,Nat.lt_succ_of_lt within,asked,fun moment other after within => ?_⟩
  rcases Nat.lt_succ_iff_lt_or_eq.mp within with earlier | rfl
  · exact later moment other after earlier
  · exact keeps other

theorem latestSame {another : Nat} {other : α} (latest : Latest deeds owner name first count item)
    (same : Latest deeds owner name another count other) : item = other := by
  obtain ⟨i,_,iWithin,iAsked,iLater⟩ := latest
  obtain ⟨j,_,jWithin,jAsked,jLater⟩ := same
  rcases Nat.lt_trichotomy i j with less | rfl | more
  · exact absurd jAsked (iLater j other less jWithin)
  · cases iAsked.symm.trans jAsked
    rfl
  · exact absurd iAsked (jLater i item more iWithin)

section Course
variable (course : Course tables deeds)
include course

theorem tenantHolds (tenancy : Tenancy tables deeds owner name first count) :
    ∃ item, (tables count).get? name = some ⟨name,item,owner⟩ := by
  -- On the moments since: each deed that is the owner's own renews the entry, and no other touches it.
  induction count with
  | zero => exact absurd tenancy.past (Nat.not_lt_zero first)
  | succ count ih =>
    have next := course.step count
    rcases Nat.lt_succ_iff_lt_or_eq.mp tenancy.past with past | rfl
    · obtain ⟨item,found⟩ := ih
        {tenancy with past := past, kept := fun later after within => tenancy.kept later after (by omega)}
      cases done : deeds count with
      | none =>
        rw [done] at next
        exact ⟨item,(congrFun next name).trans found⟩
      | some deed =>
        rw [done] at next
        by_cases own : deed.name = name ∧ deed.owner = owner
        · obtain ⟨owner,name,wish⟩ := deed
          obtain ⟨rfl,rfl⟩ := own
          cases wish with
          | none => exact absurd done (tenancy.kept count past (Nat.lt_succ_self count))
          | some wish =>
            have free := (freeFound owner found).trans (decide_eq_true rfl)
            exact ⟨wish,(congrFun next name).trans (doneGranted free)⟩
        · exact ⟨item,doneKeeps found (fun same mine => own ⟨same,mine⟩) next⟩
    · obtain ⟨item,asked⟩ := tenancy.asked
      rw [asked] at next
      exact ⟨item,(congrFun next name).trans (doneGranted (freeMissing owner tenancy.absent))⟩

theorem tenantFound (found : (tables count).get? name = some e) : ∃ first,
    Tenancy tables deeds e.owner name first count ∧ Latest deeds e.owner name first count e.item := by
  -- On the moments: an entry that is new begins a tenancy or renews one, and an old one goes on.
  induction count generalizing e with
  | zero =>
    rw [course.start] at found
    contradiction
  | succ count ih =>
    rw [course.step count] at found
    cases done : deeds count with
    | none =>
      rw [done] at found
      obtain ⟨first,tenancy,latest⟩ := ih found
      exact ⟨first,tenancyMore tenancy (by rw [done]; nofun),latestMore latest (by rw [done]; nofun)⟩
    | some deed =>
      rw [done] at found
      rcases doneFound found with ⟨rfl,free⟩ | ⟨there,other⟩
      · have latest (first : Nat) (since : first ≤ count) : Latest deeds e.owner name first (count + 1) e.item :=
          ⟨count,since,Nat.lt_succ_self count,done,fun later _ after within => by omega⟩
        cases before : (tables count).get? name with
        | none =>
          exact ⟨count,⟨Nat.lt_succ_self count,⟨e.item,done⟩,before,fun later after within => by omega⟩,
            latest count (Nat.le_refl count)⟩
        | some old =>
          have same := of_decide_eq_true ((freeFound e.owner before).symm.trans free)
          obtain ⟨first,tenancy,_⟩ := ih before
          rw [same] at tenancy
          exact ⟨first,tenancyMore tenancy (by rw [done]; nofun),latest first (Nat.le_of_lt tenancy.past)⟩
      · obtain ⟨first,tenancy,latest⟩ := ih there
        have unspoken (item : Option α) : deeds count ≠ some ⟨e.owner,name,item⟩ := by
          rw [done]
          intro own
          cases Option.some.inj own
          exact other rfl rfl
        exact ⟨first,tenancyMore tenancy (unspoken none),latestMore latest fun item => unspoken (some item)⟩

theorem foundTenant : (tables count).get? name = some ⟨name,item,owner⟩ ↔ ∃ first,
    Tenancy tables deeds owner name first count ∧ Latest deeds owner name first count item := by
  constructor
  · intro found
    exact tenantFound course found
  · rintro ⟨first,tenancy,latest⟩
    obtain ⟨there,found⟩ := tenantHolds course tenancy
    obtain ⟨_,_,same⟩ := tenantFound course found
    cases latestSame latest same
    exact found

end Course
end Table

namespace Session
variable {host : Host} {programs : Text → List Op} {attached : Bool} {s : Session} {c : Catalog} {r : Request}
  {rs : List Request} {ops more : List Op} {name : Text}

theorem endingAppend : ending host programs s (ops ++ more) = ending host programs (ending host programs s ops) more := by
  induction ops generalizing s with
  | nil => rfl
  | cons op ops ih => rw [List.cons_append, endingMore, ih, endingMore]

def catalogAt (host : Host) (programs : Text → List Op) (attached : Bool) (rs : List Request) (moment : Nat) : Catalog :=
  (ending host programs (.start attached) ((rs.take moment).map Request.op)).catalog

def modeDeeds (host : Host) (rs : List Request) (moment : Nat) : Option (Table.Deed ModeRef) :=
  rs[moment]?.bind (·.modeDeed? host)

def contentTypeDeeds (host : Host) (programs : Text → List Op) (attached : Bool) (rs : List Request) (moment : Nat) :
    Option (Table.Deed Text) :=
  rs[moment]?.bind (·.contentTypeDeed? (catalogAt host programs attached rs moment))

theorem catalogNext (attached : Bool) (rs : List Request) (moment : Nat) :
    catalogAt host programs attached rs (moment + 1) =
      rs[moment]?.elim (catalogAt host programs attached rs moment) fun r =>
        Request.leaves (catalogAt host programs attached rs moment)
          (r.ask host (catalogAt host programs attached rs moment)) := by
  rw [catalogAt, List.take_add_one, List.map_append, endingAppend]
  cases rs[moment]? with
  | none => rfl
  | some r => exact (Request.stepAsks host programs _ r).2

theorem modesCourse : Table.Course (fun moment => (catalogAt host programs attached rs moment).modes)
    (modeDeeds host rs) where
  start := rfl
  step moment := by
    rw [catalogNext, modeDeeds]
    cases rs[moment]? with
    | none => rfl
    | some r => exact Request.modesNext (r.effect host _)

theorem contentTypesCourse : Table.Course (fun moment => (catalogAt host programs attached rs moment).contentTypes)
    (contentTypeDeeds host programs attached rs) where
  start := rfl
  step moment := by
    rw [catalogNext, contentTypeDeeds]
    cases rs[moment]? with
    | none => rfl
    | some r => exact Request.contentTypesNext (r.effect host _)

theorem foreignModeIdle {e : Entry ModeRef} (about : r.modeName? = some name) (found : c.modes.get? name = some e)
    (foreign : r.owner ≠ e.owner) : Request.leaves c (r.ask host c) = c := by
  refine Request.disallowedIdle (r.effect host c) (fun deed asks => ?_) fun deed asks => ?_
  · obtain ⟨own,named,_⟩ := Request.modeDeedNamed c asks
    cases named.symm.trans about
    exact Table.foreignRefused found fun same => foreign (own.trans same.symm)
  · obtain ⟨_,_,noName,_⟩ := Request.contentTypeDeedNamed host asks
    cases noName.symm.trans about

theorem foreignContentTypeIdle {e : Entry Text} (about : r.contentTypeName? = some name)
    (found : c.contentTypes.get? name = some e) (foreign : r.owner ≠ e.owner) :
    Request.leaves c (r.ask host c) = c := by
  refine Request.disallowedIdle (r.effect host c) (fun deed asks => ?_) fun deed asks => ?_
  · obtain ⟨_,_,noName,_⟩ := Request.modeDeedNamed c asks
    cases noName.symm.trans about
  · obtain ⟨own,named,_⟩ := Request.contentTypeDeedNamed host asks
    cases named.symm.trans about
    exact Table.foreignRefused found fun same => foreign (own.trans same.symm)

theorem modeForNamed {spec : Text} (filled : spec ≠ []) : c.modeFor (.text spec) =
    .ok (((c.modes.get? spec).map (·.item)).or
      ((c.contentTypes.get? spec).bind fun e => (c.modes.get? e.item).map (·.item))) := by
  have truthy : Value.isTruthy (.text spec) = true := by
    cases spec with
    | nil => exact absurd rfl filled
    | cons _ _ => rfl
  rw [Catalog.modeFor, if_pos truthy, Catalog.lookupText, Catalog.find?]
  cases c.modes.get? spec <;> rfl

theorem contentsByTenancies (host : Host) (programs : Text → List Op) (attached : Bool) (rs : List Request) :
    let c := (ending host programs (.start attached) (rs.map Request.op)).catalog
    let modes := modeDeeds host rs
    let contentTypes := contentTypeDeeds host programs attached rs
    let before := catalogAt host programs attached rs
    let modesBefore moment := (before moment).modes
    let contentTypesBefore moment := (before moment).contentTypes
    (∀ owner name mode, c.modes.get? name = some ⟨name,mode,owner⟩ ↔ ∃ first,
      Table.Tenancy modesBefore modes owner name first rs.length ∧
        Table.Latest modes owner name first rs.length mode) ∧
    (∀ owner type name, c.contentTypes.get? type = some ⟨type,name,owner⟩ ↔ ∃ first,
      Table.Tenancy contentTypesBefore contentTypes owner type first rs.length ∧
        Table.Latest contentTypes owner type first rs.length name) ∧
    (∀ owner name first moment r, Table.Tenancy modesBefore modes owner name first moment →
      rs[moment]? = some r → r.modeName? = some name → r.owner ≠ owner → before (moment + 1) = before moment) ∧
    (∀ owner type first moment r, Table.Tenancy contentTypesBefore contentTypes owner type first moment →
      rs[moment]? = some r → r.contentTypeName? = some type → r.owner ≠ owner →
        before (moment + 1) = before moment) ∧
    ∀ spec, spec ≠ [] → c.modeFor (.text spec) = .ok (((c.modes.get? spec).map (·.item)).or
      ((c.contentTypes.get? spec).bind fun e => (c.modes.get? e.item).map (·.item))) := by
  intro c modes contentTypes before modesBefore contentTypesBefore
  have whole : before rs.length = c := by
    show catalogAt host programs attached rs rs.length = c
    rw [catalogAt, List.take_length]
  refine ⟨fun owner name mode => ?_,fun owner type name => ?_,?_,?_,fun spec filled => modeForNamed filled⟩
  · rw [← whole]
    exact Table.foundTenant modesCourse
  · rw [← whole]
    exact Table.foundTenant contentTypesCourse
  · intro owner name first moment r tenancy asked about foreign
    obtain ⟨mode,found⟩ := Table.tenantHolds modesCourse tenancy
    show catalogAt host programs attached rs (moment + 1) = _
    rw [catalogNext, asked]
    exact foreignModeIdle about found foreign
  · intro owner type first moment r tenancy asked about foreign
    obtain ⟨name,found⟩ := Table.tenantHolds contentTypesCourse tenancy
    show catalogAt host programs attached rs (moment + 1) = _
    rw [catalogNext, asked]
    exact foreignContentTypeIdle about found foreign

theorem contentsByTenanciesRetaken :
    let host : Host := ⟨fun _ => Mode.lexer,.standard⟩
    let name := "m".toList
    let guest : Owner := .guest "g".toList
    let rs : List Request := [⟨guest,.insertMode (.text name) []⟩,⟨.host,.insertMode (.text name) []⟩,
      ⟨guest,.eraseMode (.text name)⟩,⟨.host,.insertMode (.text name) []⟩]
    let before := catalogAt host (fun _ => []) true rs
    before 2 = before 1 ∧ ∃ first,
      Table.Tenancy (fun moment => (before moment).modes) (modeDeeds host rs) .host name first rs.length ∧
        Table.Latest (modeDeeds host rs) .host name first rs.length (.host []) := by
  intro host name guest rs before
  obtain ⟨modes,_,others,_⟩ := contentsByTenancies host (fun _ => []) true rs
  have tenancy : Table.Tenancy (fun moment => (before moment).modes) (modeDeeds host rs) guest name 0 1 :=
    ⟨Nat.one_pos,⟨_,rfl⟩,rfl,fun later after within => by omega⟩
  refine ⟨others guest name 0 1 _ tenancy rfl rfl (by decide),(modes .host name (.host [])).mp ?_⟩
  decide +kernel

end Session
end LittleMan
