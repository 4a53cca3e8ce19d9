import LittleMan.Mode.Stock
import LittleMan.Proofs.Effects
import LittleMan.Proofs.Passing

/-! Passes that fail. A mode may come to a stop on a text after some of its lines; the tokens up to there are lost and
the view keeps those it had. A refresh of several views ends there, with the views before it passed over. -/
namespace LittleMan.Session
variable {α β : Type} {host : Host} {s t : Session} {id : Text} {v : View} {mode : Value} {tokens : List Token}
  {e : Failure} {kind : Text} {names : List Value} {c : Catalog}

theorem bindStops {a : Action α} {f : α → Action β} (failed : (a >>= f) s = .error e t) :
    a s = .error e t ∨ ∃ x u, a s = .ok x u ∧ f x u = .error e t := by
  cases ran : a s with
  | error other u =>
    rw [bindFails ran] at failed
    cases failed
    exact .inl rfl
  | ok x u =>
    rw [bindRuns ran] at failed
    exact .inr ⟨x,u,rfl,failed⟩

theorem askStops {question : Catalog → Except Failure α} (failed : ask question s = .error e t) :
    question s.catalog = .error e ∧ t = s := by
  cases answered : question s.catalog with
  | ok answer => cases (askRuns answered).symm.trans failed
  | error other =>
    cases (askFails answered).symm.trans failed
    exact ⟨rfl,rfl⟩

theorem passOverDone (found : s.view? id = some v) (ran : tokensIn host s.catalog v.mode v.text = .ok tokens) :
    passOver host id s = .ok () (s.withView id (repassed tokens)) := by
  rw [passOver, bindRuns getRuns, found]
  exact bindRuns (askRuns ran)

theorem passOverFails (found : s.view? id = some v) (failed : tokensIn host s.catalog v.mode v.text = .error e) :
    passOver host id s = .error e s := by
  rw [passOver, bindRuns getRuns, found]
  exact bindFails (askFails failed)

theorem passOverStops : passOver host id s = .error e t ↔
    t = s ∧ ∃ v, s.view? id = some v ∧ tokensIn host s.catalog v.mode v.text = .error e := by
  constructor
  · intro failed
    cases found : s.view? id with
    | none =>
      rw [passOver, bindRuns getRuns, found] at failed
      cases failed
    | some v =>
      cases ran : tokensIn host s.catalog v.mode v.text with
      | ok tokens => cases (passOverDone found ran).symm.trans failed
      | error other =>
        cases (passOverFails found ran).symm.trans failed
        exact ⟨rfl,v,rfl,ran⟩
  · rintro ⟨rfl,v,found,failed⟩
    exact passOverFails found failed

def remoded (mode : Value) (v : View) : View := {v with mode := mode}

theorem remodedFound (found : s.view? id = some v) : (s.withView id (remoded mode)).view? id = some (remoded mode v) := by
  have kept : ∀ w, (remoded mode w).id = w.id := fun _ => rfl
  rw [viewChanged kept, found, Option.map_some, if_pos rfl]

theorem switchModeDone (found : s.view? id = some v) (ran : tokensIn host s.catalog mode v.text = .ok tokens) :
    switchMode host id mode s = .ok () ((s.withView id (remoded mode)).withView id (repassed tokens)) :=
  (bindRuns (modifyRuns _)).trans (passOverDone (remodedFound found) ran)

theorem switchModeStops : switchMode host id mode s = .error e t ↔
    t = s.withView id (remoded mode) ∧ ∃ v, s.view? id = some v ∧ tokensIn host s.catalog mode v.text = .error e := by
  have passed : switchMode host id mode s = passOver host id (s.withView id (remoded mode)) :=
    bindRuns (modifyRuns _)
  have kept : ∀ w, (remoded mode w).id = w.id := fun _ => rfl
  rw [passed, passOverStops, viewChanged kept]
  refine and_congr_right fun _ => ⟨?_,?_⟩
  · rintro ⟨w,found,failed⟩
    obtain ⟨v,there,rfl⟩ := Option.map_eq_some_iff.mp found
    rw [if_pos rfl] at failed
    exact ⟨v,there,failed⟩
  · rintro ⟨v,found,failed⟩
    rw [found]
    exact ⟨remoded mode v,congrArg some (if_pos rfl),failed⟩

theorem makeViewStops (id : Text) {text : Text} : makeView host id text mode s = .error e t ↔
    t = s ∧ tokensIn host s.catalog mode text = .error e := by
  constructor
  · intro failed
    rcases bindStops failed with asked | ⟨_,_,_,added⟩
    · exact (askStops asked).symm
    · cases added
  · rintro ⟨rfl,failed⟩
    exact bindFails (askFails failed)

theorem failuresLeaveViews (host : Host) (s t : Session) (id text : Text) (mode : Value) (e : Failure) :
    (showView host id text mode s = .error e t ↔
      t = s ∧ if s.attached then tokensIn host s.catalog mode text = .error e else e = .noCatalog) ∧
    (passOver host id s = .error e t ↔
      t = s ∧ ∃ v, s.view? id = some v ∧ tokensIn host s.catalog v.mode v.text = .error e) ∧
    (switchMode host id mode s = .error e t ↔
      t = s.withView id (fun v => {v with mode := mode}) ∧
        ∃ v, s.view? id = some v ∧ tokensIn host s.catalog mode v.text = .error e) := by
  refine ⟨?_,passOverStops,switchModeStops⟩
  cases attached : s.attached with
  | false =>
    have refused : showView host id text mode s = .error .noCatalog s := by
      rw [showView, bindRuns getRuns, if_neg (Bool.eq_false_iff.mp attached)]
      rfl
    rw [refused]
    constructor
    · intro failed
      cases failed
      exact ⟨rfl,rfl⟩
    · rintro ⟨rfl,rfl⟩
      rfl
  | true =>
    have shows : showView host id text mode s = (do
        makeView host id text mode
        modify fun s : Session => {s with shown := s.shown ++ [id]}) s := by
      rw [showView, bindRuns getRuns, if_pos attached]
    rw [shows, if_pos rfl, ← makeViewStops id]
    constructor
    · intro failed
      rcases bindStops failed with made | ⟨_,_,_,added⟩
      · exact made
      · cases added
    · exact bindFails

theorem stalledModeStays :
    let lexer := "lmc".toList
    let stuck := "stuck".toList
    let main := "main".toList
    let host : Host := ⟨fun id => if id = stuck then Stock.stalled.mode else Mode.lexer,.standard⟩
    let ops : List Op := [.insertMode (.text lexer) lexer .host,.insertMode (.text stuck) stuck .host,
      .showView main "HLT".toList (.text lexer),.switchMode main (.text stuck)]
    let stalls : Except Failure Answer → Option Text
      | .error (.stalled kind) => some kind
      | _ => none
    ((run host (fun _ => []) (.start true) ops).drop 2).map (fun r => (stalls r.1,
        (r.2.view? main).map fun v => (v.mode.plain,v.tokens.map (·.tag),v.passes))) =
      [(none,some (lexer,[.keyword],1)),(some Stock.stalled.kind,some (stuck,[.keyword],1))] := by
  decide +kernel

structure PassedUpTo (host : Host) (c : Catalog) (names : List Value) (before : List Text) (s t : Session) : Prop where
  passed : ∀ id ∈ before, ∀ v, s.view? id = some v → names.any v.mode.same = true →
    ∃ tokens, tokensIn host c v.mode v.text = .ok tokens ∧ t.view? id = some (repassed tokens v)
  others : ∀ id, (∀ v, s.view? id = some v → id ∈ before → names.any v.mode.same = false) → t.view? id = s.view? id

theorem remodedSame (found : s.view? id = some v) (other : Text) :
    (s.withView id (remoded v.mode)).view? other = s.view? other := by
  have kept : ∀ w, (remoded v.mode w).id = w.id := fun _ => rfl
  rw [viewChanged kept]
  by_cases same : other = id
  · subst same
    rw [found, Option.map_some, if_pos rfl]
    rfl
  · simp only [if_neg same, Option.map_id']

theorem repassedViews (found : s.view? id = some v) (tokens : List Token) (other : Text) :
    ((s.withView id (remoded v.mode)).withView id (repassed tokens)).view? other =
      if other = id then some (repassed tokens v) else s.view? other := by
  have kept : ∀ w, (repassed tokens w).id = w.id := fun _ => rfl
  rw [viewChanged kept, remodedSame found]
  by_cases same : other = id
  · subst same
    rw [found, Option.map_some, if_pos rfl, if_pos rfl]
  · simp only [if_neg same, Option.map_id']

section PassedUpTo
variable {before : List Text}

theorem PassedUpTo.nothing (same : ∀ id, t.view? id = s.view? id) : PassedUpTo host c names [] s t :=
  ⟨fun _ none => absurd none List.not_mem_nil,fun id _ => same id⟩

theorem PassedUpTo.spared (unmeant : ∀ v, s.view? id = some v → names.any v.mode.same = false)
    (later : PassedUpTo host c names before s t) : PassedUpTo host c names (id :: before) s t := by
  refine ⟨fun other inside v found named => ?_,fun other spared => later.others other fun v found inside =>
    spared v found (List.mem_cons_of_mem _ inside)⟩
  rcases List.mem_cons.mp inside with rfl | behind
  · cases (unmeant v found).symm.trans named
  · exact later.passed other behind v found named

theorem PassedUpTo.further {u : Session} (found : s.view? id = some v) (named : names.any v.mode.same = true)
    (ran : tokensIn host c v.mode v.text = .ok tokens) (absent : id ∉ before)
    (views : ∀ other, u.view? other = if other = id then some (repassed tokens v) else s.view? other)
    (later : PassedUpTo host c names before u t) : PassedUpTo host c names (id :: before) s t := by
  have elsewhere {other : Text} (differs : other ≠ id) : u.view? other = s.view? other :=
    (views other).trans (if_neg differs)
  refine ⟨fun other inside w there meant => ?_,fun other spared => ?_⟩
  · rcases List.mem_cons.mp inside with rfl | behind
    · cases Option.some.inj (found.symm.trans there)
      have once := later.others other fun _ _ inside => absurd inside absent
      exact ⟨tokens,ran,once.trans ((views other).trans (if_pos rfl))⟩
    · have differs : other ≠ id := fun same => absent (same ▸ behind)
      exact later.passed other behind w ((elsewhere differs).trans there) meant
  · have differs : other ≠ id := by
      rintro rfl
      cases (spared v found List.mem_cons_self).symm.trans named
    refine (later.others other fun w there inside => ?_).trans (elsewhere differs)
    exact spared w ((elsewhere differs).symm.trans there) (List.mem_cons_of_mem _ inside)

end PassedUpTo

theorem requireStops (failed : mode.requireKey = .error e) : e = .notKey mode.kind := by
  rw [Value.requireKey] at failed
  split at failed
  · cases failed
  · exact (Except.error.inj failed).symm

theorem refreshThoseFound {more : List Text} (found : s.view? id = some v) (count : Nat) :
    refreshThose host names (id :: more) count s = (do
      ask fun _ => v.mode.requireKey
      if names.any v.mode.same then
        switchMode host id v.mode
        refreshThose host names more (count + 1)
      else refreshThose host names more count) s := by
  rw [refreshThose, bindRuns getRuns, found]

theorem refreshThoseMissing {more : List Text} (missing : s.view? id = none) (count : Nat) :
    refreshThose host names (id :: more) count s = refreshThose host names more count s := by
  rw [refreshThose, bindRuns getRuns, missing]

theorem refreshThoseStops {ids : List Text} {count : Nat} (single : ids.Nodup)
    (failed : refreshThose host names ids count s = .error (.stalled kind) t) :
    ∃ before id after v, ids = before ++ id :: after ∧ s.view? id = some v ∧ names.any v.mode.same = true ∧
      tokensIn host s.catalog v.mode v.text = .error (.stalled kind) ∧ PassedUpTo host s.catalog names before s t := by
  induction ids generalizing s count with
  | nil => cases failed
  | cons id more ih =>
    obtain ⟨apart,single⟩ := List.nodup_cons.mp single
    -- A view that the refresh is not for, or that is none, goes to those before the stop.
    have beyond {count : Nat} (unmeant : ∀ v, s.view? id = some v → names.any v.mode.same = false)
        (failed : refreshThose host names more count s = .error (.stalled kind) t) :
        ∃ before other after v, id :: more = before ++ other :: after ∧ s.view? other = some v ∧
          names.any v.mode.same = true ∧ tokensIn host s.catalog v.mode v.text = .error (.stalled kind) ∧
          PassedUpTo host s.catalog names before s t := by
      obtain ⟨before,other,after,v,parts,there,named,stalls,upTo⟩ := ih single failed
      exact ⟨id :: before,other,after,v,congrArg (id :: ·) parts,there,named,stalls,upTo.spared unmeant⟩
    cases found : s.view? id with
    | none =>
      rw [refreshThoseMissing found] at failed
      exact beyond (fun v there => by cases found.symm.trans there) failed
    | some v =>
      rw [refreshThoseFound found] at failed
      cases key : v.mode.requireKey with
      | error e =>
        rw [bindFails (askFails key)] at failed
        cases failed
        cases requireStops key
      | ok _ =>
        rw [bindRuns (askRuns key)] at failed
        split at failed
        · rename_i named
          cases ran : tokensIn host s.catalog v.mode v.text with
          | error e =>
            rw [bindFails (switchModeStops.mpr ⟨rfl,v,found,ran⟩)] at failed
            cases failed
            exact ⟨[],id,more,v,rfl,found,named,ran,.nothing (remodedSame found)⟩
          | ok tokens =>
            rw [bindRuns (switchModeDone found ran)] at failed
            obtain ⟨before,other,after,w,parts,there,meant,stalls,upTo⟩ := ih single failed
            have views := repassedViews found tokens
            rw [parts, List.mem_append, List.mem_cons, not_or, not_or] at apart
            rw [views, if_neg (Ne.symm apart.2.1)] at there
            exact ⟨id :: before,other,after,w,congrArg (id :: ·) parts,there,meant,stalls,
              .further found named ran apart.1 views upTo⟩
        · rename_i unmeant
          exact beyond (fun w there => by
            cases Option.some.inj (found.symm.trans there)
            exact Bool.eq_false_iff.mpr unmeant) failed

theorem extensionNamesCases (x : Extension) :
    extensionNames x = .ok x.names ∨ ∃ kind, extensionNames x = .error (.notKey kind) := by
  have each (names : List Value) :
      names.forM Value.requireKey = .ok () ∨ ∃ kind, names.forM Value.requireKey = .error (.notKey kind) := by
    induction names with
    | nil => exact .inl rfl
    | cons name more ih =>
      have step : (name :: more).forM Value.requireKey =
          name.requireKey >>= fun _ => more.forM Value.requireKey := rfl
      cases key : name.requireKey with
      | error e =>
        rw [step, key, requireStops key]
        exact .inr ⟨name.kind,rfl⟩
      | ok _ =>
        rw [step, key]
        exact ih
  rcases each x.names with keys | ⟨kind,failed⟩
  · left
    rw [Extension.names] at keys
    rw [extensionNames, keys]
    rfl
  · right
    rw [Extension.names] at failed
    rw [extensionNames, failed]
    exact ⟨kind,rfl⟩

theorem refreshShownStops {x : Extension} (found : s.extension? id = some x) (single : s.shown.Nodup)
    (failed : refreshShown host id s = .error (.stalled kind) t) :
    ∃ before stopped after v, s.shown = before ++ stopped :: after ∧ s.view? stopped = some v ∧
      x.names.any v.mode.same = true ∧ tokensIn host s.catalog v.mode v.text = .error (.stalled kind) ∧
      PassedUpTo host s.catalog x.names before s t := by
  have opened : refreshShown host id s = (do
      let names ← ask fun _ => extensionNames x
      let count ← refreshThose host names (← get).shown 0
      tell (.refreshed count)
      return count) s := by rw [refreshShown, bindRuns getRuns, found]
  rw [opened] at failed
  rcases extensionNamesCases x with keys | ⟨_,unkeyed⟩
  · rw [bindRuns (askRuns keys), bindRuns getRuns] at failed
    rcases bindStops failed with stopped | ⟨_,_,_,told⟩
    · exact refreshThoseStops single stopped
    · cases told
  · rw [bindFails (askFails unkeyed)] at failed
    cases failed

end LittleMan.Session
