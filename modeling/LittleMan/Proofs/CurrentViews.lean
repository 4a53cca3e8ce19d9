import LittleMan.Proofs.Coherence

/-! What an editor does, in whatever order, while its extensions bring the lexer: nothing fails, and once the
layout is ready every shown view has the tokens that its mode, as the catalog has it, gives its text. -/
namespace LittleMan
namespace Session
variable {host : Host} {s t : Session} (programs : Text → List Op)

structure ExtensionOptions.Lexing (host : Host) (options : ExtensionOptions) : Prop where
  lexer : ∀ m, options.lexer = some m → host.modes m = Mode.lexer
  aliases : ∀ given, options.aliases = some given → ∃ names : List Text, given = names.map .text ∧ [] ∉ names
  contentType : ∀ given, options.contentType = some given → ∃ name, given = .text name ∧ name ≠ []

theorem ExtensionOptions.Lexing.asks {options : ExtensionOptions} (lexing : options.Lexing host) (id : Text) :
    ∃ names type, (options.extension id).Asks names type := by
  obtain ⟨names,aliases,filled⟩ :
      ∃ names : List Text, options.aliases.getD (Language.aliases.map .text) = names.map .text ∧ [] ∉ names := by
    cases given : options.aliases with
    | none => exact ⟨Language.aliases,rfl,by decide⟩
    | some names => exact lexing.aliases names given
  obtain ⟨type,contentType,typeFilled⟩ :
      ∃ type, options.contentType.getD (.text Language.contentType) = .text type ∧ type ≠ [] := by
    cases given : options.contentType with
    | none => exact ⟨Language.contentType,rfl,by decide⟩
    | some type => exact lexing.contentType type given
  exact ⟨names,type,aliases,filled,contentType,typeFilled⟩

theorem ExtensionOptions.Lexing.sound {options : ExtensionOptions} (lexing : options.Lexing host) (id : Text) :
    (options.extension id).Sound host := by
  refine ⟨?_,lexing.asks id,fun _ none => absurd none List.not_mem_nil,fun _ none => absurd none List.not_mem_nil,
    fun _ => ⟨rfl,rfl⟩⟩
  show host.mode (options.lexer.elim (.own id) .host) = Mode.lexer
  cases given : options.lexer with
  | none => rfl
  | some m => exact lexing.lexer m given

def Op.Editing (host : Host) : Op → Prop
  | .makeExtension _ options => options.Lexing host
  | .load _ | .unload _ | .refresh _ | .hideView _ | .passOver _ | .becomeReady => True
  | .showView _ _ mode | .switchMode _ mode => mode.isKey = true
  | _ => False

def Op.shows? : Op → Option Text
  | .showView id _ _ => some id
  | _ => none

theorem performSettles {op : Op} (coherent : Coherent host s.pending s) (editing : op.Editing host)
    (fresh : ∀ id, op.shows? = some id → s.view? id = none) :
    Settles host op.shows? (perform host (invoke host programs) op) s := by
  cases op with
  | makeExtension id options =>
    rw [perform]
    exact (makeExtensionSettles coherent (editing.sound id)).answering fun _ => Answer.nothing
  | load id =>
    rw [perform]
    exact (loadSettles programs coherent id).answering fun _ => Answer.nothing
  | unload id =>
    rw [perform]
    exact (unloadSettles coherent id).answering fun _ => Answer.nothing
  | refresh id =>
    rw [perform]
    exact (refreshSettles coherent id).answering Answer.count
  | showView id text mode =>
    rw [perform]
    exact (showViewSettles coherent editing (fresh id rfl)).answering fun _ => Answer.nothing
  | hideView id =>
    rw [perform]
    exact (hideViewSettles coherent id).answering fun _ => Answer.nothing
  | switchMode id mode =>
    rw [perform]
    exact (switchModeSettles coherent id editing).answering fun _ => Answer.nothing
  | passOver id =>
    rw [perform]
    exact (passOverSettles coherent id).answering fun _ => Answer.nothing
  | becomeReady =>
    rw [perform]
    exact (becomeReadySettles programs coherent).answering fun _ => Answer.nothing
  | _ => exact editing.elim

theorem stepSettles {op : Op} (coherent : Coherent host s.pending s) (editing : op.Editing host)
    (fresh : ∀ id, op.shows? = some id → s.view? id = none) :
    ∃ answer t, step host programs s op = (.ok answer,t) ∧ Coherent host t.pending t ∧ NoNewBut op.shows? s t := by
  obtain ⟨answer,t,ran,now,views⟩ :=
    performSettles programs (s := {s with notices := [], calls := []}) (coherent.told [] []) editing fresh
  exact ⟨answer,t,by rw [step, ran],now,views⟩

theorem runCoherent {ops : List Op} (coherent : Coherent host s.pending s) (editing : ∀ op ∈ ops, op.Editing host)
    (fresh : ∀ id ∈ ops.filterMap Op.shows?, s.view? id = none) (once : (ops.filterMap Op.shows?).Nodup)
    {outcome : Except Failure Answer} (reached : (outcome,t) ∈ run host programs s ops) :
    (∃ answer, outcome = .ok answer) ∧ Coherent host t.pending t := by
  induction ops generalizing s with
  | nil => exact absurd reached List.not_mem_nil
  | cons op more ih =>
    have first : ∀ id, op.shows? = some id → id ∉ more.filterMap Op.shows? ∧ s.view? id = none := by
      intro id shows
      rw [List.filterMap_cons_some shows] at fresh once
      exact ⟨(List.nodup_cons.mp once).1,fresh id List.mem_cons_self⟩
    have others : (more.filterMap Op.shows?).Sublist ((op :: more).filterMap Op.shows?) :=
      (List.sublist_cons_self op more).filterMap Op.shows?
    obtain ⟨answer,u,ran,now,views⟩ := stepSettles programs coherent (editing op List.mem_cons_self)
      fun id shows => (first id shows).2
    rw [run, ran] at reached
    rcases List.mem_cons.mp reached with here | later
    · cases here
      exact ⟨⟨answer,rfl⟩,now⟩
    · refine ih now (fun op inside => editing op (List.mem_cons_of_mem _ inside)) (fun id inside => ?_)
        (once.sublist others) later
      exact views id (fun shows => (first id shows).1 inside) (fresh id (others.subset inside))

theorem viewsCurrent (host : Host) (programs : Text → List Op) {ops : List Op}
    (editing : ∀ op ∈ ops, op.Editing host) (once : (ops.filterMap Op.shows?).Nodup)
    {outcome : Except Failure Answer} {s : Session} (reached : (outcome,s) ∈ run host programs (.start true) ops) :
    (∃ answer, outcome = .ok answer) ∧
      (s.ready = true → ∀ id ∈ s.shown, ∃ v, s.view? id = some v ∧ v.Current host s.catalog) := by
  obtain ⟨succeeds,coherent⟩ := runCoherent programs (Coherent.start host) editing (fun _ _ => rfl) once reached
  refine ⟨succeeds,fun ready id shown => ?_⟩
  obtain ⟨v,found⟩ := Option.isSome_iff_exists.mp (coherent.shown id shown)
  -- With the layout ready nothing waits, so no refresh is due that could excuse a view.
  refine ⟨v,found,(coherent.current id shown v found).resolve_right ?_⟩
  rintro ⟨_,_,due,_⟩
  rw [coherent.waiting ready] at due
  exact List.not_mem_nil due

theorem viewsCurrentOnceReady :
    let host : Host := ⟨fun _ => Mode.lexer,.standard⟩
    let ops : List Op := [.makeExtension "lmc".toList ⟨none,none,none⟩,
      .showView "main".toList "lda x".toList (.text Language.contentType),.load "lmc".toList,.becomeReady]
    ∃ reached ∈ run host (fun _ => []) (.start true) ops,
      reached.2.ready = true ∧ reached.2.shown = ["main".toList] ∧
      ∃ v, reached.2.view? "main".toList = some v ∧ v.tokens.length = 2 ∧ v.Current host reached.2.catalog := by
  intro host ops
  have plain : ExtensionOptions.Lexing host ⟨none,none,none⟩ := ⟨nofun,nofun,nofun⟩
  have editing : ∀ op ∈ ops, op.Editing host := by
    intro op inside
    simp only [ops, List.mem_cons, List.not_mem_nil, or_false] at inside
    rcases inside with rfl | rfl | rfl | rfl
    · exact plain
    · rfl
    · trivial
    · trivial
  have once : (ops.filterMap Op.shows?).Nodup := by decide +kernel
  have ended : ((run host (fun _ => []) (.start true) ops).getLast?.map fun r =>
      (r.2.ready,r.2.shown,(r.2.view? "main".toList).map (·.tokens.length))) =
        some (true,["main".toList],some 2) := by decide +kernel
  obtain ⟨reached,last,facts⟩ := Option.map_eq_some_iff.mp ended
  obtain ⟨ready,shown,tokens⟩ : reached.2.ready = true ∧ reached.2.shown = ["main".toList] ∧
      (reached.2.view? "main".toList).map (·.tokens.length) = some 2 := by
    simpa only [Prod.mk.injEq] using facts
  have inside := List.mem_of_getLast? last
  obtain ⟨v,found,current⟩ := (viewsCurrent host (fun _ => []) editing once inside).2 ready "main".toList
    (shown ▸ List.mem_cons_self)
  rw [found] at tokens
  exact ⟨reached,inside,ready,shown,v,found,Option.some.inj tokens,current⟩

end Session
end LittleMan
