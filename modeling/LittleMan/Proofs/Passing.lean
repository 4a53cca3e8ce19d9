import LittleMan.Proofs.Drivers
import LittleMan.Proofs.Installing

/-! Passing over views. Where the catalog has the lexer and nothing else, no pass fails: a view gets the
tokens of its text or none, and the views that a refresh does not pass over stay as they are. -/
namespace LittleMan

def View.Current (host : Host) (c : Catalog) (v : View) : Prop :=
  ∃ found, c.modeFor v.mode = .ok found ∧
    match found with
    | none => v.tokens = []
    | some m => (host.mode m).run host.tab v.text = .ok v.tokens

def Extension.names (x : Extension) : List Value := x.aliases ++ [x.contentType]

namespace Catalog
variable {host : Host} {c : Catalog} {mode : Value}

def Lexing (host : Host) (c : Catalog) : Prop :=
  ∀ name e, c.modes.get? name = some e → host.mode e.item = Mode.lexer

def answer? (c : Catalog) : Value → Option ModeRef
  | .text (first :: more) => c.find? (first :: more)
  | _ => none

theorem modeForKey (key : mode.isKey = true) : c.modeFor mode = .ok (c.answer? mode) := by
  cases mode with
  | text t => cases t <;> rfl
  | list items => contradiction
  | object fields => contradiction
  | _ =>
    rw [modeFor]
    split <;> rfl

theorem findLexes {spec : Text} {m : ModeRef} (lexing : c.Lexing host) (found : c.find? spec = some m) :
    host.mode m = Mode.lexer := by
  rw [find?] at found
  cases named : c.modes.get? spec with
  | some e =>
    rw [named] at found
    cases Option.some.inj found
    exact lexing spec e named
  | none =>
    rw [named] at found
    obtain ⟨target,_,pointed⟩ := Option.bind_eq_some_iff.mp found
    obtain ⟨e,there,item⟩ := Option.map_eq_some_iff.mp pointed
    rw [← item]
    exact lexing target.item e there

theorem answerLexes {m : ModeRef} (lexing : c.Lexing host) (found : c.answer? mode = some m) :
    host.mode m = Mode.lexer := by
  match mode, found with
  | .text (_ :: _), found => exact findLexes lexing found

def tokensFor (c : Catalog) (mode : Value) (text : Text) : List Token :=
  if (c.answer? mode).isSome then (Lexeme.drawingLines Rule.table 1 (Text.lines text) .clear).tokens else []

theorem tokensInLexing (lexing : c.Lexing host) (key : mode.isKey = true) (text : Text) :
    Session.tokensIn host c mode text = .ok (c.tokensFor mode text) := by
  rw [Session.tokensIn, modeForKey key, okBind, tokensFor]
  cases found : c.answer? mode with
  | none => rfl
  | some m =>
    have lexer := answerLexes lexing found
    show (host.mode m).run host.tab text = _
    rw [lexer, Mode.runLexer]
    rfl

theorem currentLexing {v : View} (lexing : c.Lexing host) (key : v.mode.isKey = true) :
    v.Current host c ↔ v.tokens = c.tokensFor v.mode v.text := by
  rw [View.Current, modeForKey key, tokensFor]
  cases found : c.answer? v.mode with
  | none => simp
  | some m =>
    have lexer := answerLexes lexing found
    have ran : (host.mode m).run host.tab v.text = _ := lexer ▸ Mode.runLexer host.tab v.text
    simp [ran, eq_comm]

end Catalog

namespace Session
variable {host : Host} {c : Catalog} {s t u : Session} {id : Text} {mode : Value}

theorem viewChanged {change : View → View} (kept : ∀ v, (change v).id = v.id) (id other : Text) :
    (s.withView id change).view? other = (s.view? other).map fun v => if other = id then change v else v :=
  findChanged kept s.views id other

def Keyed (s : Session) : Prop := ∀ id v, s.view? id = some v → v.mode.isKey = true

def repassed (tokens : List Token) (v : View) : View := {v with tokens := tokens, passes := v.passes + 1}

structure PassedOver (host : Host) (c : Catalog) (id : Text) (s t : Session) : Prop where
  there : ∀ other, (t.view? other).isSome = (s.view? other).isSome
  others : ∀ other, other ≠ id → t.view? other = s.view? other
  current : ∀ v, t.view? id = some v → v.mode.isKey = true ∧ v.Current host c

theorem passOverRuns (lexing : s.catalog.Lexing host) (key : ∀ v, s.view? id = some v → v.mode.isKey = true) :
    ∃ vs, passOver host id s = .ok () {s with views := vs} ∧
      PassedOver host s.catalog id s {s with views := vs} := by
  cases found : s.view? id with
  | none =>
    refine ⟨s.views,?_,fun _ => rfl,fun _ _ => rfl,fun v here => ?_⟩
    · rw [passOver, bindRuns getRuns, found]
      rfl
    · exact absurd (here.symm.trans found) nofun
  | some v =>
    have key := key v found
    let tokens := s.catalog.tokensFor v.mode v.text
    have kept : ∀ w, (repassed tokens w).id = w.id := fun _ => rfl
    have looked := fun other => viewChanged (s := s) kept id other
    refine ⟨(s.withView id (repassed tokens)).views,?_,fun other => ?_,fun other differs => ?_,fun w here => ?_⟩
    · rw [passOver, bindRuns getRuns, found]
      exact bindRuns (askRuns (Catalog.tokensInLexing lexing key v.text))
    · exact (congrArg Option.isSome (looked other)).trans Option.isSome_map
    · refine (looked other).trans ?_
      simp only [if_neg differs, Option.map_id']
    · have same := here.symm.trans (looked id)
      rw [found, Option.map_some, if_pos rfl] at same
      cases Option.some.inj same
      exact ⟨key,(Catalog.currentLexing (v := repassed tokens v) lexing key).mpr rfl⟩

theorem switchModeRuns (lexing : s.catalog.Lexing host) (id : Text) (key : mode.isKey = true) :
    ∃ vs, switchMode host id mode s = .ok () {s with views := vs} ∧
      PassedOver host s.catalog id s {s with views := vs} := by
  have kept : ∀ v : View, ({v with mode := mode} : View).id = v.id := fun _ => rfl
  have looked := fun other => viewChanged (s := s) kept id other
  have keys : ∀ v, (s.withView id fun v => {v with mode := mode}).view? id = some v → v.mode.isKey = true := by
    intro v here
    rw [looked] at here
    obtain ⟨w,_,same⟩ := Option.map_eq_some_iff.mp here
    rw [← same, if_pos rfl]
    exact key
  obtain ⟨vs,ran,passed⟩ := passOverRuns (s := s.withView id fun v => {v with mode := mode}) lexing keys
  refine ⟨vs,(bindRuns (modifyRuns _)).trans ran,?_,?_,passed.current⟩
  · intro other
    refine (passed.there other).trans ?_
    rw [looked, Option.isSome_map]
  · intro other differs
    refine (passed.others other differs).trans ?_
    rw [looked]
    simp only [if_neg differs, Option.map_id']

structure Renewed (host : Host) (c : Catalog) (s t : Session) : Prop where
  there : ∀ id, (t.view? id).isSome = (s.view? id).isSome
  views : ∀ id v, t.view? id = some v → s.view? id = some v ∨ v.mode.isKey = true ∧ v.Current host c

theorem Renewed.refl (host : Host) (c : Catalog) (s : Session) : Renewed host c s s :=
  ⟨fun _ => rfl,fun _ _ here => .inl here⟩

theorem Renewed.trans (first : Renewed host c s t) (second : Renewed host c t u) : Renewed host c s u :=
  ⟨fun id => (second.there id).trans (first.there id),fun id v here =>
    (second.views id v here).elim (first.views id v) .inr⟩

theorem PassedOver.renewed (passed : PassedOver host c id s t) : Renewed host c s t := by
  refine ⟨passed.there,fun other v here => ?_⟩
  by_cases same : other = id
  · subst same
    exact .inr (passed.current v here)
  · exact .inl ((passed.others other same).symm.trans here)

theorem Renewed.keyed (renewed : Renewed host c s t) (keyed : Keyed s) : Keyed t :=
  fun id v here => (renewed.views id v here).elim (keyed id v) And.left

theorem sameName {names : List Value} (texts : ∀ name ∈ names, ∃ t, name = .text t) (mode : Value) :
    names.any mode.same = true ↔ mode ∈ names := by
  rw [List.any_eq_true]
  constructor
  · rintro ⟨name,inside,same⟩
    obtain ⟨t,rfl⟩ := texts name inside
    have equal : mode = .text t := by
      cases mode <;> simp_all [Value.same, Value.asInt?]
    exact equal ▸ inside
  · intro inside
    obtain ⟨t,rfl⟩ := texts mode inside
    exact ⟨.text t,inside,by simp [Value.same]⟩

theorem refreshOneRuns {names : List Value} (texts : ∀ name ∈ names, ∃ t, name = .text t) (id : Text)
    (more : List Text) (count : Nat) (lexing : s.catalog.Lexing host) (keyed : Keyed s) :
    ∃ vs n, refreshThose host names (id :: more) count s =
        refreshThose host names more n {s with views := vs} ∧
      Renewed host s.catalog s {s with views := vs} ∧
      ∀ v, ({s with views := vs} : Session).view? id = some v → v.mode ∈ names → v.Current host s.catalog := by
  cases found : s.view? id with
  | none =>
    refine ⟨s.views,count,?_,Renewed.refl host s.catalog s,fun v here => absurd (here.symm.trans found) nofun⟩
    rw [refreshThose, bindRuns getRuns, found]
  | some v =>
    have key := keyed id v found
    have asked : ask (fun _ => v.mode.requireKey) s = .ok () s := askRuns (if_pos key)
    have ran : refreshThose host names (id :: more) count s = (if names.any v.mode.same then do
        switchMode host id v.mode
        refreshThose host names more (count + 1)
      else refreshThose host names more count) s := by
      rw [refreshThose, bindRuns getRuns, found]
      exact bindRuns asked
    rw [ran]
    by_cases named : v.mode ∈ names
    · obtain ⟨vs,switched,passed⟩ := switchModeRuns lexing id key
      refine ⟨vs,count + 1,?_,passed.renewed,fun v here _ => (passed.current v here).2⟩
      rw [if_pos ((sameName texts v.mode).mpr named), bindRuns switched]
    · refine ⟨s.views,count,?_,Renewed.refl host s.catalog s,fun w here is => ?_⟩
      · rw [if_neg fun any => named ((sameName texts v.mode).mp any)]
      · cases Option.some.inj (here.symm.trans found)
        exact absurd is named

theorem refreshThoseRuns {names : List Value} (texts : ∀ name ∈ names, ∃ t, name = .text t) (ids : List Text)
    (count : Nat) (s : Session) (lexing : s.catalog.Lexing host) (keyed : Keyed s) :
    ∃ vs n, refreshThose host names ids count s = .ok n {s with views := vs} ∧
      Renewed host s.catalog s {s with views := vs} ∧
      ∀ id ∈ ids, ∀ v, ({s with views := vs} : Session).view? id = some v → v.mode ∈ names →
        v.Current host s.catalog := by
  induction ids generalizing s count with
  | nil => exact ⟨s.views,count,rfl,Renewed.refl host s.catalog s,fun _ none => absurd none List.not_mem_nil⟩
  | cons id more ih =>
    obtain ⟨vs,n,ran,renewed,current⟩ := refreshOneRuns texts id more count lexing keyed
    obtain ⟨ws,m,ranMore,renewedMore,currentMore⟩ := ih n {s with views := vs} lexing (renewed.keyed keyed)
    refine ⟨ws,m,ran.trans ranMore,renewed.trans renewedMore,fun other inside v here named => ?_⟩
    rcases List.mem_cons.mp inside with rfl | later
    · exact (renewedMore.views other v here).elim (fun before => current v before named) And.right
    · exact currentMore other later v here named

theorem requireAll {names : List Value} (texts : ∀ name ∈ names, ∃ t, name = .text t) :
    names.forM Value.requireKey = .ok () := by
  induction names with
  | nil => rfl
  | cons name more ih =>
    obtain ⟨t,rfl⟩ := texts name List.mem_cons_self
    exact ih fun name inside => texts name (List.mem_cons_of_mem _ inside)

theorem refreshShownRuns (id : Text) (lexing : s.catalog.Lexing host) (keyed : Keyed s)
    (texts : ∀ x, s.extension? id = some x → ∀ name ∈ x.names, ∃ t, name = .text t) :
    ∃ vs ns n, refreshShown host id s = .ok n {s with views := vs, notices := ns} ∧
      Renewed host s.catalog s {s with views := vs, notices := ns} ∧
      ∀ x, s.extension? id = some x → ∀ shown ∈ s.shown, ∀ v,
        ({s with views := vs} : Session).view? shown = some v → v.mode ∈ x.names →
        v.Current host s.catalog := by
  cases found : s.extension? id with
  | none =>
    refine ⟨s.views,s.notices,0,?_,Renewed.refl host s.catalog s,fun x none => by contradiction⟩
    rw [refreshShown, bindRuns getRuns, found]
    rfl
  | some x =>
    have texts := texts x found
    have asked : ask (fun _ => extensionNames x) s = .ok x.names s := by
      refine askRuns ?_
      rw [Extension.names] at texts ⊢
      rw [extensionNames, requireAll texts]
      rfl
    obtain ⟨vs,n,ran,renewed,current⟩ := refreshThoseRuns texts s.shown 0 s lexing keyed
    refine ⟨vs,s.notices ++ [.refreshed n],n,?_,renewed.trans ⟨fun _ => rfl,fun _ _ here => .inl here⟩,?_⟩
    · rw [refreshShown, bindRuns getRuns, found]
      refine (bindRuns asked).trans ((bindRuns getRuns).trans ((bindRuns ran).trans ?_))
      rfl
    · rintro y same
      cases Option.some.inj same
      exact current

end Session
end LittleMan
