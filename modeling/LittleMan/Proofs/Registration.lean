import LittleMan.Proofs.Passing

/-! The catalog and the lists of the extensions say the same: who an entry belongs to lists it, and a content
type stands for a name of the same owner. Loading and unloading keep it so, and change what a mode stands for
only under the names of the extension. -/
namespace LittleMan

structure Extension.Sound (host : Host) (x : Extension) : Prop where
  lexer : host.mode x.lexer = Mode.lexer
  asks : ∃ names type, x.Asks names type
  modes : ∀ name ∈ x.heldModes, .text name ∈ x.aliases
  contentTypes : ∀ name ∈ x.heldContentTypes, x.contentType = .text name
  idle : x.loaded = false → x.heldModes = [] ∧ x.heldContentTypes = []

namespace Extension.Sound
variable {host : Host} {x : Extension}

theorem texts (sound : x.Sound host) : ∀ name ∈ x.names, ∃ t, name = .text t := by
  obtain ⟨names,type,asks⟩ := sound.asks
  intro name inside
  rw [Extension.names, asks.aliases, asks.contentType, List.mem_append, List.mem_map, List.mem_singleton] at inside
  rcases inside with ⟨t,_,rfl⟩ | rfl
  · exact ⟨t,rfl⟩
  · exact ⟨type,rfl⟩

theorem asksBeside {y : Extension} (sound : x.Sound host) (aliases : y.aliases = x.aliases)
    (contentType : y.contentType = x.contentType) : ∃ names type, y.Asks names type := by
  obtain ⟨names,type,asks⟩ := sound.asks
  exact ⟨names,type,aliases.trans asks.aliases,asks.filled,contentType.trans asks.contentType,asks.typeFilled⟩

theorem unloaded (sound : x.Sound host) : (Session.unloaded x).Sound host :=
  ⟨sound.lexer,sound.asksBeside rfl rfl,fun _ none => absurd none List.not_mem_nil,
    fun _ none => absurd none List.not_mem_nil,fun _ => ⟨rfl,rfl⟩⟩

theorem loadedWith {modes types : List Text} (sound : x.Sound host)
    (asked : ∀ name ∈ modes, .text name ∈ x.aliases) (typed : ∀ name ∈ types, x.contentType = .text name) :
    (Session.loadedWith modes types x).Sound host := by
  refine ⟨sound.lexer,sound.asksBeside rfl rfl,fun name inside => ?_,fun name inside => ?_,fun idle => ?_⟩
  · exact (List.mem_append.mp inside).elim (sound.modes name) (asked name)
  · exact (List.mem_append.mp inside).elim (sound.contentTypes name) (typed name)
  · contradiction

end Extension.Sound

theorem Catalog.answerKept {c d : Catalog} {mode : Value}
    (modes : ∀ name, mode = .text name → d.modes.get? name = c.modes.get? name)
    (types : ∀ name, mode = .text name → d.contentTypes.get? name = c.contentTypes.get? name)
    (targets : ∀ name e, mode = .text name → c.contentTypes.get? name = some e →
      (d.modes.get? e.item).isSome = (c.modes.get? e.item).isSome) :
    (d.answer? mode).isSome = (c.answer? mode).isSome := by
  match mode with
  | .text (first :: more) =>
    rw [answer?, answer?, find?, find?, modes _ rfl, types _ rfl]
    cases c.modes.get? (first :: more) with
    | some e => rfl
    | none =>
      cases pointed : c.contentTypes.get? (first :: more) with
      | none => rfl
      | some e =>
        simpa only [Option.bind_some, Option.isSome_map] using targets _ e rfl pointed
  | .text [] | .null | .bool _ | .int _ | .real _ | .list _ | .object _ => rfl

namespace Session
variable {host : Host} {s t : Session} {x : Extension} {id name : Text}

structure Registered (host : Host) (s : Session) : Prop where
  extensions : ∀ id x, s.extension? id = some x → x.Sound host
  modes : ∀ name e, s.catalog.modes.get? name = some e → host.mode e.item = Mode.lexer ∧
    ∃ id x, s.extension? id = some x ∧ e.owner = .extension id ∧ name ∈ x.heldModes
  contentTypes : ∀ name e, s.catalog.contentTypes.get? name = some e →
    ∃ id x, s.extension? id = some x ∧ e.owner = .extension id ∧ name ∈ x.heldContentTypes ∧
      ∃ f, s.catalog.modes.get? e.item = some f ∧ f.owner = e.owner

theorem Registered.beside (registered : Registered host s) (catalog : t.catalog = s.catalog)
    (extensions : t.extensions = s.extensions) : Registered host t := by
  have found : t.extension? = s.extension? := by
    funext id
    rw [extension?, extensions, extension?]
  refine ⟨fun id x here => ?_,fun name e there => ?_,fun name e there => ?_⟩
  · exact registered.extensions id x (found ▸ here)
  · rw [found]
    exact registered.modes name e (catalog ▸ there)
  · rw [found, catalog]
    exact registered.contentTypes name e (catalog ▸ there)

theorem Registered.lexing (registered : Registered host s) : s.catalog.Lexing host :=
  fun name e found => (registered.modes name e found).1

def Relisted (id : Text) (change : Extension → Extension) (s t : Session) : Prop :=
  ∀ other, t.extension? other = (s.extension? other).map fun x => if other = id then change x else x

theorem Relisted.old {change : Extension → Extension} {other : Text} {y : Extension}
    (relisted : Relisted id change s t) (differs : other ≠ id) (found : s.extension? other = some y) :
    t.extension? other = some y := by
  rw [relisted, found, Option.map_some, if_neg differs]

theorem Relisted.new {change : Extension → Extension} (relisted : Relisted id change s t)
    (found : s.extension? id = some x) : t.extension? id = some (change x) := by
  rw [relisted, found, Option.map_some, if_pos rfl]

theorem Relisted.keeps {change : Extension → Extension} {other : Text} {y : Extension} {P : Extension → Prop}
    (relisted : Relisted id change s t) (kept : ∀ x, P x → P (change x)) (found : s.extension? other = some y)
    (holds : P y) : ∃ z, t.extension? other = some z ∧ P z := by
  refine ⟨_,(relisted other).trans (congrArg _ found),?_⟩
  by_cases here : other = id
  · simpa only [if_pos here] using kept y holds
  · simpa only [if_neg here] using holds

theorem Relisted.sound {change : Extension → Extension} (relisted : Relisted id change s t)
    (registered : Registered host s) (changed : ∀ x, s.extension? id = some x → (change x).Sound host)
    (other : Text) (y : Extension) (found : t.extension? other = some y) : y.Sound host := by
  rw [relisted] at found
  obtain ⟨x,before,same⟩ := Option.map_eq_some_iff.mp found
  by_cases here : other = id
  · subst here
    rw [← same, if_pos rfl]
    exact changed x before
  · rw [← same, if_neg here]
    exact registered.extensions other x before

theorem typedMember {held : List Text} {type : Text} (inside : name ∈ typed held type) :
    name = type ∧ held.headD [] ∈ held := by
  cases held with
  | nil => exact absurd inside List.not_mem_nil
  | cons first more => exact ⟨List.mem_singleton.mp inside,List.mem_cons_self⟩

theorem loadRegistered {names held : List Text} {type : Text} (registered : Registered host s)
    (found : s.extension? x.id = some x) (asks : x.Asks names type)
    (granted : x.Granted names held type s.catalog t.catalog)
    (relisted : Relisted x.id
      (loadedWith held ((typed held type).filter (s.catalog.contentTypes.free (.extension x.id)))) s t) :
    Registered host t := by
  obtain ⟨free,modes,contentTypes⟩ := granted
  have own := relisted.new found
  have sound := registered.extensions x.id x found
  refine ⟨relisted.sound registered ?_,fun name e there => ?_,fun name e there => ?_⟩
  · intro y same
    cases Option.some.inj (same.symm.trans found)
    refine sound.loadedWith (fun name inside => ?_) (fun name inside => ?_)
    · rw [free, List.mem_filter] at inside
      rw [asks.aliases]
      exact List.mem_map_of_mem inside.1
    · rw [asks.contentType, (typedMember (List.mem_filter.mp inside).1).1]
  · rw [modes, Table.granted] at there
    split at there
    · rename_i taken
      cases Option.some.inj there
      refine ⟨sound.lexer,x.id,_,own,rfl,List.mem_append_right _ ?_⟩
      rw [free]
      exact List.mem_filter.mpr taken
    · obtain ⟨lexer,other,y,before,owner,lists⟩ := registered.modes name e there
      obtain ⟨z,after,lists⟩ := relisted.keeps (P := fun z => name ∈ z.heldModes)
        (fun _ => List.mem_append_left _) before lists
      exact ⟨lexer,other,z,after,owner,lists⟩
  · rw [contentTypes, Table.granted] at there
    split at there
    · rename_i taken
      cases Option.some.inj there
      have first := (typedMember taken.1).2
      refine ⟨x.id,_,own,rfl,List.mem_append_right _ (List.mem_filter.mpr taken),
        ⟨held.headD [],x.lexer,.extension x.id⟩,?_,rfl⟩
      rw [modes, Table.granted, if_pos]
      rw [free, List.mem_filter] at first
      exact free ▸ first
    · obtain ⟨other,y,before,owner,lists,f,target,same⟩ := registered.contentTypes name e there
      obtain ⟨z,after,lists⟩ := relisted.keeps (P := fun z => name ∈ z.heldContentTypes)
        (fun _ => List.mem_append_left _) before lists
      refine ⟨other,z,after,owner,lists,?_⟩
      rw [modes, Table.granted]
      split
      · -- The name that the content type stands for was granted anew, to the owner it had.
        rename_i taken
        have mine : f.owner = .extension x.id := of_decide_eq_true (Table.freeFound _ target ▸ taken.2)
        exact ⟨_,rfl,mine.symm.trans same⟩
      · exact ⟨f,target,same⟩

theorem loadAnswers {names held : List Text} {type : Text} {c : Catalog} {mode : Value}
    (registered : Registered host s) (asks : x.Asks names type) (granted : x.Granted names held type s.catalog c)
    (other : mode ∉ x.names) : (c.answer? mode).isSome = (s.catalog.answer? mode).isSome := by
  obtain ⟨_,modes,contentTypes⟩ := granted
  rw [Extension.names, asks.aliases, asks.contentType, List.mem_append, List.mem_singleton, not_or] at other
  refine Catalog.answerKept (fun name same => ?_) (fun name same => ?_) (fun name e same pointed => ?_)
  · rw [modes, Table.granted, if_neg]
    exact fun taken => other.1 (same ▸ List.mem_map_of_mem taken.1)
  · rw [contentTypes, Table.granted, if_neg]
    exact fun taken => other.2 (same.trans (congrArg _ (typedMember taken.1).1))
  · obtain ⟨_,_,_,_,_,f,target,_⟩ := registered.contentTypes name e pointed
    rw [modes, Table.granted, target]
    split <;> rfl

theorem keptForeign {α : Type} {table : Table α} {e : Entry α} {other : Text} {y : Extension}
    (listed : Extension → List Text) (found : s.extension? id = some x) (there : table.get? name = some e)
    (before : s.extension? other = some y) (owner : e.owner = .extension other) (lists : name ∈ listed y)
    (kept : ¬ (name ∈ listed x ∧ table.held (.extension id) name = true)) : other ≠ id := by
  intro same
  subst same
  cases Option.some.inj (found.symm.trans before)
  exact kept ⟨lists,(Table.heldFound _ there).trans (decide_eq_true owner)⟩

theorem unloadRegistered (registered : Registered host s) (found : s.extension? x.id = some x)
    (revoked : x.Revoked s.catalog t.catalog) (relisted : Relisted x.id unloaded s t) : Registered host t := by
  obtain ⟨modes,contentTypes⟩ := revoked
  refine ⟨relisted.sound registered fun y same => (registered.extensions x.id y same).unloaded,
    fun name e there => ?_,fun name e there => ?_⟩
  · rw [modes, Table.revoked] at there
    split at there
    · contradiction
    · rename_i kept
      obtain ⟨lexer,other,y,before,owner,lists⟩ := registered.modes name e there
      have differs := keptForeign (·.heldModes) found there before owner lists kept
      exact ⟨lexer,other,y,relisted.old differs before,owner,lists⟩
  · rw [contentTypes, Table.revoked] at there
    split at there
    · contradiction
    · rename_i kept
      obtain ⟨other,y,before,owner,lists,f,target,same⟩ := registered.contentTypes name e there
      have differs := keptForeign (·.heldContentTypes) found there before owner lists kept
      refine ⟨other,y,relisted.old differs before,owner,lists,f,?_,same⟩
      rw [modes, Table.revoked, if_neg, target]
      intro taken
      have mine := of_decide_eq_true ((Table.heldFound _ target).symm.trans taken.2)
      rw [same, owner] at mine
      exact differs (Owner.extension.inj mine)

theorem unloadAnswers {c : Catalog} {mode : Value} (registered : Registered host s)
    (found : s.extension? x.id = some x) (revoked : x.Revoked s.catalog c) (other : mode ∉ x.names) :
    (c.answer? mode).isSome = (s.catalog.answer? mode).isSome := by
  obtain ⟨modes,contentTypes⟩ := revoked
  have sound := registered.extensions x.id x found
  rw [Extension.names, List.mem_append, List.mem_singleton, not_or] at other
  have listed : ∀ name, mode = .text name → name ∉ x.heldContentTypes :=
    fun name same inside => other.2 (same.trans (sound.contentTypes name inside).symm)
  refine Catalog.answerKept (fun name same => ?_) (fun name same => ?_) (fun name e same pointed => ?_)
  · rw [modes, Table.revoked, if_neg]
    exact fun taken => other.1 (same ▸ sound.modes name taken.1)
  · rw [contentTypes, Table.revoked, if_neg]
    exact fun taken => listed name same taken.1
  · obtain ⟨owner,y,before,owned,lists,f,target,same'⟩ := registered.contentTypes name e pointed
    rw [modes, Table.revoked, if_neg]
    intro taken
    have mine := of_decide_eq_true ((Table.heldFound _ target).symm.trans taken.2)
    rw [same', owned] at mine
    cases Owner.extension.inj mine
    cases Option.some.inj (found.symm.trans before)
    exact listed name same lists

theorem foundLater {α : Type} {key : α → Text} {items : List α} {a : α} (added : α)
    (found : items.find? (key · == id) = some a) : (items ++ [added]).find? (key · == id) = some a := by
  rw [List.find?_append, found, Option.some_or]

theorem foundEither {α : Type} {key : α → Text} {items : List α} {a added : α}
    (found : (items ++ [added]).find? (key · == id) = some a) :
    items.find? (key · == id) = some a ∨ a = added ∧ key added = id := by
  rw [List.find?_append] at found
  rcases Option.or_eq_some_iff.mp found with before | ⟨_,new⟩
  · exact .inl before
  · have same := List.mem_singleton.mp (List.mem_of_find?_eq_some new)
    subst same
    exact .inr ⟨rfl,by simpa using List.find?_some new⟩

theorem makeRegistered {y : Extension} (registered : Registered host s) (sound : y.Sound host) :
    Registered host {s with extensions := s.extensions ++ [y]} := by
  refine ⟨fun id x found => ?_,fun name e there => ?_,fun name e there => ?_⟩
  · rcases foundEither found with before | ⟨rfl,_⟩
    · exact registered.extensions id x before
    · exact sound
  · obtain ⟨lexer,id,x,found,holds⟩ := registered.modes name e there
    exact ⟨lexer,id,x,foundLater y found,holds⟩
  · obtain ⟨id,x,found,holds⟩ := registered.contentTypes name e there
    exact ⟨id,x,foundLater y found,holds⟩

end Session
end LittleMan
