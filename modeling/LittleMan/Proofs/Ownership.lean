import LittleMan.Catalog

/-! What the operations of a catalog do to its tables, name by name. An owner is granted the names that
nobody else holds, and only what it holds is taken back; every other entry stays as it was. -/
namespace LittleMan
namespace Table
variable {α : Type} {table other : Table α} {owner : Owner} {item : α} {name : Text} {e : Entry α}

def free (table : Table α) (owner : Owner) (name : Text) : Bool :=
  (table.get? name).all fun e => e.owner = owner

def held (table : Table α) (owner : Owner) (name : Text) : Bool :=
  (table.get? name).any fun e => e.owner = owner

def granted (table : Table α) (owner : Owner) (item : α) (names : List Text) (name : Text) : Option (Entry α) :=
  if name ∈ names ∧ table.free owner name = true then some ⟨name,item,owner⟩ else table.get? name

def revoked (table : Table α) (owner : Owner) (names : List Text) (name : Text) : Option (Entry α) :=
  if name ∈ names ∧ table.held owner name = true then none else table.get? name

theorem freeMissing (owner : Owner) (missing : table.get? name = none) : table.free owner name = true := by
  rw [free, missing, Option.all_none]

theorem freeFound (owner : Owner) (found : table.get? name = some e) :
    table.free owner name = decide (e.owner = owner) := by
  rw [free, found, Option.all_some]

theorem heldMissing (owner : Owner) (missing : table.get? name = none) : table.held owner name = false := by
  rw [held, missing, Option.any_none]

theorem heldFound (owner : Owner) (found : table.get? name = some e) :
    table.held owner name = decide (e.owner = owner) := by
  rw [held, found, Option.any_some]

theorem heldIff : table.held owner name = true ↔ ∃ e, table.get? name = some e ∧ e.owner = owner := by
  rw [held]
  cases table.get? name with
  | none => simp
  | some e => simp

theorem grantedNone : table.granted owner item [] = table.get? := by
  funext name
  simp only [granted, List.not_mem_nil, false_and, if_false]

theorem revokedNone : table.revoked owner [] = table.get? := by
  funext name
  simp only [revoked, List.not_mem_nil, false_and, if_false]

theorem grantedOther {names : List Text} (unasked : name ∉ names) :
    table.granted owner item names name = table.get? name :=
  if_neg fun taken => unasked taken.1

theorem revokedOther {names : List Text} (unasked : name ∉ names) :
    table.revoked owner names name = table.get? name :=
  if_neg fun taken => unasked taken.1

theorem grantedAlike (same : other.get? name = table.get? name) (owner : Owner) (item : α) (names : List Text) :
    other.granted owner item names name = table.granted owner item names name := by
  rw [granted, granted, free, free, same]

theorem revokedAlike (same : other.get? name = table.get? name) (owner : Owner) (names : List Text) :
    other.revoked owner names name = table.revoked owner names name := by
  rw [revoked, revoked, held, held, same]

theorem freeGranted {names : List Text} (after : other.get? = table.granted owner item names) (name : Text) :
    other.free owner name = table.free owner name := by
  rw [free, after, granted]
  split
  · rename_i taken
    rw [taken.2]
    simp only [Option.all_some, decide_true]
  · rfl

theorem grantedStep {first : Text} {names : List Text} (after : other.get? = table.granted owner item [first]) :
    other.granted owner item names = table.granted owner item (first :: names) := by
  funext name
  rw [granted, freeGranted after, after, granted, granted]
  cases table.free owner name with
  | false => simp only [Bool.false_eq_true, and_false, if_false]
  | true => by_cases later : name ∈ names <;> simp [later]

theorem heldGranted {names : List Text} (after : other.get? = table.granted owner item names)
    (held : other.held owner name = true) : table.held owner name = true ∨ name ∈ names := by
  obtain ⟨e,there,own⟩ := heldIff.mp held
  rw [after, granted] at there
  split at there
  · rename_i taken
    exact .inr taken.1
  · exact .inl (heldIff.mpr ⟨e,there,own⟩)

theorem heldRevoked {names : List Text} (after : other.get? = table.revoked owner names) (name : Text) :
    other.held owner name = (table.held owner name && name ∉ names) := by
  rw [held, after, revoked]
  split
  · rename_i taken
    simp [taken.1]
  · rename_i kept
    rw [not_and'] at kept
    cases own : table.held owner name with
    | false => simpa [held] using own
    | true => simpa [kept own, held] using own

theorem revokedStep {first : Text} {names : List Text} (after : other.get? = table.revoked owner [first]) :
    other.revoked owner names = table.revoked owner (first :: names) := by
  funext name
  rw [revoked, heldRevoked after, after, revoked, revoked]
  by_cases here : name = first <;> by_cases own : table.held owner name = true <;> simp [here, own]

theorem grantedPut (free : table.free owner name = true) :
    (put ⟨name,item,owner⟩ table).get? = table.granted owner item [name] := by
  funext other
  rw [getPut, granted]
  by_cases same : name = other
  · subst same
    simp only [List.mem_singleton, free, and_self, if_true]
  · rw [if_neg same, if_neg]
    exact fun asked => same (List.mem_singleton.mp asked.1).symm

theorem grantedThere (there : table.get? name = some ⟨name,item,owner⟩) :
    table.get? = table.granted owner item [name] := by
  funext other
  rw [granted]
  split
  · rename_i asked
    rw [List.mem_singleton.mp asked.1, there]
  · rfl

theorem grantedForeign (refused : table.free owner name = false) :
    table.get? = table.granted owner item [name] := by
  funext other
  rw [granted, if_neg]
  intro asked
  rw [List.mem_singleton.mp asked.1, refused] at asked
  exact Bool.false_ne_true asked.2

theorem revokedRemove (own : table.held owner name = true) :
    (table.remove name).get? = table.revoked owner [name] := by
  funext other
  rw [getRemove, revoked]
  by_cases same : name = other
  · subst same
    simp only [List.mem_singleton, own, and_self, if_true]
  · rw [if_neg same, if_neg]
    exact fun asked => same (List.mem_singleton.mp asked.1).symm

theorem revokedForeign (refused : table.held owner name = false) :
    table.get? = table.revoked owner [name] := by
  funext other
  rw [revoked, if_neg]
  intro asked
  rw [List.mem_singleton.mp asked.1, refused] at asked
  exact Bool.false_ne_true asked.2

def SameFor (owner : Owner) (table other : Table α) : Prop :=
  ∀ name e, e.owner = owner → (other.get? name = some e ↔ table.get? name = some e)

theorem sameForRefl (owner : Owner) (table : Table α) : SameFor owner table table := fun _ _ _ => Iff.rfl

theorem sameForTrans {third : Table α} (first : SameFor owner table other) (second : SameFor owner other third) :
    SameFor owner table third :=
  fun name e own => (second name e own).trans (first name e own)

theorem grantedSameFor {another : Owner} {names : List Text} (differs : owner ≠ another)
    (after : other.get? = table.granted another item names) : SameFor owner table other := by
  intro name e own
  rw [after, granted]
  split
  · rename_i taken
    constructor
    · intro same
      cases Option.some.inj same
      exact absurd own.symm differs
    · intro there
      have theirs := of_decide_eq_true ((freeFound another there).symm.trans taken.2)
      exact absurd (own.symm.trans theirs) differs
  · rfl

theorem revokedSameFor {another : Owner} {names : List Text} (differs : owner ≠ another)
    (after : other.get? = table.revoked another names) : SameFor owner table other := by
  intro name e own
  rw [after, revoked]
  split
  · rename_i taken
    constructor
    · nofun
    · intro there
      have theirs := of_decide_eq_true ((heldFound another there).symm.trans taken.2)
      exact absurd (own.symm.trans theirs) differs
  · rfl

theorem sameUnheld (others : ∀ another, another ≠ owner → SameFor another table other)
    (before : ∀ name, table.held owner name = false) (after : ∀ name, other.held owner name = false) :
    other.get? = table.get? := by
  have absent {t : Table α} {name : Text} {e : Entry α} (unheld : ∀ name, t.held owner name = false)
      (own : e.owner = owner) : t.get? name ≠ some e := by
    intro found
    cases (unheld name).symm.trans (heldIff.mpr ⟨e,found,own⟩)
  funext name
  refine Option.ext fun e => ?_
  by_cases own : e.owner = owner
  · exact ⟨fun found => absurd found (absent after own),fun found => absurd found (absent before own)⟩
  · exact others e.owner own name e rfl

end Table

namespace Catalog
variable {c : Catalog} {modes : ModeRef → Mode} {mode : ModeRef} {name : Text}

theorem okBind {ε α β : Type} (a : α) (f : α → Except ε β) : (Except.ok a >>= f) = f a := rfl

theorem lookupText {α : Type} (name : Text) (find : Text → Option α) :
    lookup (.text name) find = .ok (find name) := rfl

theorem validFilled (filled : name ≠ []) : validName (.text name) = .ok name := by
  obtain ⟨first,more,rfl⟩ := List.exists_cons_of_ne_nil filled
  rfl

theorem insertModeGrants (c : Catalog) (owner : Owner) (filled : name ≠ []) (whole : (modes mode).lacks? = none) :
    ∃ d, c.insertMode modes (.text name) mode owner = .ok d ∧ d.answer = c.modes.free owner name ∧
      (d.answer = false → d.catalog = c) ∧ d.catalog.contentTypes = c.contentTypes ∧
      d.catalog.modes.get? = c.modes.granted owner mode [name] := by
  rw [insertMode, validFilled filled, okBind, whole]
  cases found : c.modes.get? name with
  | none =>
    have free := Table.freeMissing owner found
    exact ⟨⟨true,{c with modes := c.modes.put ⟨name,mode,owner⟩},_⟩,rfl,
      free.symm,nofun,rfl,Table.grantedPut free⟩
  | some e =>
    have free := Table.freeFound owner found
    by_cases own : e.owner = owner
    · rw [decide_eq_true own] at free
      by_cases same : e.item = mode
      · have entry : e = ⟨name,mode,owner⟩ := by
          rw [← Table.getNamed found, ← same, ← own]
        exact ⟨⟨true,c,[]⟩,by simp [own, same]; rfl,free.symm,nofun,rfl,Table.grantedThere (entry ▸ found)⟩
      · exact ⟨⟨true,{c with modes := c.modes.put ⟨name,mode,owner⟩},_⟩,by simp [own, same]; rfl,
          free.symm,nofun,rfl,Table.grantedPut free⟩
    · rw [decide_eq_false own] at free
      exact ⟨⟨false,c,_⟩,by simp [own]; rfl,free.symm,fun _ => rfl,rfl,Table.grantedForeign free⟩

theorem insertContentTypeGrants {target : Text} {e : Entry ModeRef} (owner : Owner) (filled : name ≠ [])
    (there : c.modes.get? target = some e) :
    ∃ d, c.insertContentType (.text name) (.text target) owner = .ok d ∧
      d.answer = c.contentTypes.free owner name ∧ (d.answer = false → d.catalog = c) ∧ d.catalog.modes = c.modes ∧
      d.catalog.contentTypes.get? = c.contentTypes.granted owner target [name] := by
  rw [insertContentType, validFilled filled, okBind, lookupText, there, okBind]
  have named := Table.getNamed there
  cases found : c.contentTypes.get? name with
  | none =>
    have free := Table.freeMissing owner found
    exact ⟨⟨true,{c with contentTypes := c.contentTypes.put ⟨name,target,owner⟩},[]⟩,
      by simp only [named]; rfl,free.symm,nofun,rfl,Table.grantedPut free⟩
  | some e =>
    have free := Table.freeFound owner found
    by_cases own : e.owner = owner
    · rw [decide_eq_true own] at free
      exact ⟨⟨true,{c with contentTypes := c.contentTypes.put ⟨name,target,owner⟩},[]⟩,
        by simp [named, own]; rfl,free.symm,nofun,rfl,Table.grantedPut free⟩
    · rw [decide_eq_false own] at free
      exact ⟨⟨false,c,_⟩,by simp [own]; rfl,free.symm,fun _ => rfl,rfl,Table.grantedForeign free⟩

theorem insertContentTypeUnknown {target : Text} (owner : Owner) (filled : name ≠ [])
    (missing : c.modes.get? target = none) :
    c.insertContentType (.text name) (.text target) owner =
      .error (.registration (.text name) (.unknownMode (.text target))) := by
  rw [insertContentType, validFilled filled, okBind, lookupText, missing, okBind]
  rfl

theorem eraseModeRevokes (c : Catalog) (name : Text) (owner : Owner) :
    ∃ d, c.eraseMode (.text name) owner = .ok d ∧ d.answer = c.modes.held owner name ∧
      (d.answer = false → d.catalog = c) ∧ d.catalog.contentTypes = c.contentTypes ∧
      d.catalog.modes.get? = c.modes.revoked owner [name] := by
  rw [eraseMode, lookupText, okBind]
  cases found : c.modes.get? name with
  | none =>
    have held := Table.heldMissing owner found
    exact ⟨⟨false,c,[]⟩,rfl,held.symm,fun _ => rfl,rfl,Table.revokedForeign held⟩
  | some e =>
    have held := Table.heldFound owner found
    by_cases own : e.owner = owner
    · rw [decide_eq_true own] at held
      exact ⟨⟨true,{c with modes := c.modes.remove name},_⟩,
        by simp [own, Table.getNamed found]; rfl,held.symm,nofun,rfl,Table.revokedRemove held⟩
    · rw [decide_eq_false own] at held
      exact ⟨⟨false,c,[]⟩,by simp [own]; rfl,held.symm,fun _ => rfl,rfl,Table.revokedForeign held⟩

theorem eraseContentTypeRevokes (c : Catalog) (name : Text) (owner : Owner) :
    ∃ d, c.eraseContentType (.text name) owner = .ok d ∧ d.answer = c.contentTypes.held owner name ∧
      (d.answer = false → d.catalog = c) ∧ d.catalog.modes = c.modes ∧
      d.catalog.contentTypes.get? = c.contentTypes.revoked owner [name] := by
  rw [eraseContentType, lookupText, okBind]
  cases found : c.contentTypes.get? name with
  | none =>
    have held := Table.heldMissing owner found
    exact ⟨⟨false,c,[]⟩,rfl,held.symm,fun _ => rfl,rfl,Table.revokedForeign held⟩
  | some e =>
    have held := Table.heldFound owner found
    by_cases own : e.owner = owner
    · rw [decide_eq_true own] at held
      exact ⟨⟨true,{c with contentTypes := c.contentTypes.remove name},[]⟩,
        by simp [own, Table.getNamed found]; rfl,held.symm,nofun,rfl,Table.revokedRemove held⟩
    · rw [decide_eq_false own] at held
      exact ⟨⟨false,c,[]⟩,by simp [own]; rfl,held.symm,fun _ => rfl,rfl,Table.revokedForeign held⟩

variable {owner : Owner} {given target : Value} {d : Change}

theorem validNameText {name : Text} (valid : validName given = .ok name) : given = .text name ∧ name ≠ [] := by
  match given, valid with
  | .text (first :: more), rfl => exact ⟨rfl,List.cons_ne_nil first more⟩

theorem bindDone {ε α β : Type} {x : Except ε α} {f : α → Except ε β} {b : β} (done : (x >>= f) = .ok b) :
    ∃ a, x = .ok a ∧ f a = .ok b := by
  cases x with
  | error e => cases done
  | ok a => exact ⟨a,rfl,done⟩

theorem lookupKey {α : Type} {find : Text → Option α} {found : Option α} (looked : lookup given find = .ok found) :
    found = none ∨ ∃ name, given = .text name ∧ find name = found := by
  obtain ⟨_,_,answered⟩ := bindDone looked
  cases given with
  | text name => exact .inr ⟨name,rfl,Except.ok.inj answered⟩
  | _ => exact .inl (Except.ok.inj answered).symm

theorem insertModeDone (done : c.insertMode modes given mode owner = .ok d) :
    ∃ name, given = .text name ∧ d.answer = c.modes.free owner name ∧ (d.answer = false → d.catalog = c) ∧
      d.catalog.contentTypes = c.contentTypes ∧ d.catalog.modes.get? = c.modes.granted owner mode [name] := by
  obtain ⟨name,valid,rest⟩ := bindDone done
  obtain ⟨rfl,filled⟩ := validNameText valid
  cases whole : (modes mode).lacks? with
  | some member =>
    rw [whole] at rest
    cases rest
  | none =>
    obtain ⟨_,same,granted⟩ := insertModeGrants c owner filled whole
    cases Except.ok.inj (done.symm.trans same)
    exact ⟨name,rfl,granted⟩

theorem insertContentTypeDone (done : c.insertContentType given target owner = .ok d) :
    ∃ name first, given = .text name ∧ target = .text first ∧ d.answer = c.contentTypes.free owner name ∧
      (d.answer = false → d.catalog = c) ∧ d.catalog.modes = c.modes ∧
      d.catalog.contentTypes.get? = c.contentTypes.granted owner first [name] := by
  obtain ⟨name,valid,rest⟩ := bindDone done
  obtain ⟨rfl,filled⟩ := validNameText valid
  obtain ⟨found,looked,rest⟩ := bindDone rest
  cases found with
  | none => cases rest
  | some e =>
    rcases lookupKey looked with missing | ⟨first,rfl,there⟩
    · cases missing
    · obtain ⟨_,same,granted⟩ := insertContentTypeGrants owner filled there
      cases Except.ok.inj (done.symm.trans same)
      exact ⟨name,first,rfl,rfl,granted⟩

theorem eraseModeDone (done : c.eraseMode given owner = .ok d) :
    ∃ names, d.catalog.contentTypes = c.contentTypes ∧ d.catalog.modes.get? = c.modes.revoked owner names := by
  obtain ⟨found,looked,rest⟩ := bindDone done
  rcases lookupKey looked with rfl | ⟨name,rfl,_⟩
  · cases Except.ok.inj rest
    exact ⟨[],rfl,Table.revokedNone.symm⟩
  · obtain ⟨_,same,_,_,revoked⟩ := eraseModeRevokes c name owner
    cases Except.ok.inj (done.symm.trans same)
    exact ⟨[name],revoked⟩

theorem eraseContentTypeDone (done : c.eraseContentType given owner = .ok d) :
    ∃ names, d.catalog.modes = c.modes ∧ d.catalog.contentTypes.get? = c.contentTypes.revoked owner names := by
  obtain ⟨found,looked,rest⟩ := bindDone done
  rcases lookupKey looked with rfl | ⟨name,rfl,_⟩
  · cases Except.ok.inj rest
    exact ⟨[],rfl,Table.revokedNone.symm⟩
  · obtain ⟨_,same,_,_,revoked⟩ := eraseContentTypeRevokes c name owner
    cases Except.ok.inj (done.symm.trans same)
    exact ⟨[name],revoked⟩

end Catalog
end LittleMan
