import LittleMan.Settings.Scopes

/-! Scopes around the blocks of a program. What a block raises leaves the blocks around it, and with them the scopes
that they open, until it is caught. However a scope is left, and whatever was activated in it, the settings that were
active before it are active again, the very ones and not others with equal values. -/
namespace LittleMan.Scopes

def Op.level : Op → Bool
  | .enter _ | .leave | .fail _ => false
  | _ => true

inductive Raised where
  | failure (e : Failure)
  | words (words : Text)
  | unknown (name : Text)
  deriving Repr

def Raised.message : Raised → Text
  | .failure e => e.message
  | .words given => given
  | .unknown name => name

inductive Block where
  | op (op : Op) (level : op.level = true)
  | raise (words : Text)
  | scope (name : Text) (body : List Block)
  | guarded (body : List Block)

def leaving : Option Raised → Op
  | none => .leave
  | some raised => .fail raised.message

def swallowed : Except Failure Answer → Bool
  | .ok (.bool b) => b
  | _ => false

mutual

def perform (s : Scopes) : Block → Option Raised × Scopes
  | .op op _ =>
    match step s op with
    | (.error e,t) => (some (.failure e),t)
    | (.ok _,t) => (none,t)
  | .raise words => (some (.words words),s)
  | .scope name body =>
    match s.get? name with
    | none => (some (.unknown name),s)
    | some _ =>
      let inside := performAll (step s (.enter name)).2 body
      let outside := step inside.2 (leaving inside.1)
      (if swallowed outside.1 then none else inside.1,outside.2)
  | .guarded body => (none,(performAll s body).2)

def performAll (s : Scopes) : List Block → Option Raised × Scopes
  | [] => (none,s)
  | b :: more =>
    let first := perform s b
    match first.1 with
    | none => performAll first.2 more
    | some raised => (some raised,first.2)

end

variable {s : Scopes} {name : Text} {h : Handle}

theorem levelSaved {op : Op} (level : op.level = true) (s : Scopes) : (step s op).2.saved = s.saved := by
  cases op with
  | make name fields ignoreUnknown =>
    rw [step]
    split <;> rfl
  | activate name =>
    rw [step]
    cases s.get? name <;> rfl
  | enter name => contradiction
  | leave => contradiction
  | fail words => contradiction
  | _ => rfl

theorem enterSaves (found : s.get? name = some h) :
    (step s (.enter name)).2 = {s with active := h, saved := s.active :: s.saved} := by
  rw [step, found]
  rfl

theorem leavingRestores (raised : Option Raised) (t : Scopes) : step t (leaving raised) = (.ok (.bool false),t.restore) := by
  cases raised <;> rfl

theorem scopePerforms (found : s.get? name = some h) (body : List Block) :
    let inside := performAll (step s (.enter name)).2 body
    perform s (.scope name body) = (inside.1,inside.2.restore) := by
  intro inside
  have left := leavingRestores inside.1 inside.2
  rw [perform, found]
  show (if swallowed (step inside.2 (leaving inside.1)).1 then none else inside.1,_) = _
  rw [left]
  rfl

theorem restoreSaved {t : Scopes} {active : Handle} {saved : List Handle} (inside : t.saved = active :: saved) :
    t.restore.active = active ∧ t.restore.saved = saved := by
  rw [restore, inside]
  exact ⟨rfl,rfl⟩

mutual

theorem performSaved : ∀ (b : Block) (s : Scopes), (perform s b).2.saved = s.saved
  | .op op level, s => by
    have kept := levelSaved level s
    rw [perform]
    split
    · rename_i done
      rwa [done] at kept
    · rename_i done
      rwa [done] at kept
  | .raise words, s => by rw [perform]
  | .scope name body, s => by
    cases found : s.get? name with
    | none => rw [perform, found]
    | some h =>
      -- What the scope puts aside lies on top again when its body has come to its end, or to a failure.
      have inside := performAllSaved body (step s (.enter name)).2
      have opened := congrArg Scopes.saved (enterSaves found)
      rw [scopePerforms found]
      exact (restoreSaved (inside.trans opened)).2
  | .guarded body, s => by
    rw [perform]
    exact performAllSaved body s

theorem performAllSaved : ∀ (bs : List Block) (s : Scopes), (performAll s bs).2.saved = s.saved
  | [], s => by rw [performAll]
  | b :: more, s => by
    have first := performSaved b s
    rw [performAll]
    split
    · exact (performAllSaved more (perform s b).2).trans first
    · exact first

end

theorem runAppend (ops more : List Op) (s : Scopes) : (run s (ops ++ more)).2 = (run (run s ops).2 more).2 := by
  induction ops generalizing s with
  | nil => rw [List.nil_append, run]
  | cons op ops ih => rw [List.cons_append, run, ih, run]

theorem runOne (op : Op) (s : Scopes) : (run s [op]).2 = (step s op).2 := by rw [run, run]

mutual

theorem performRuns : ∀ (b : Block) (s : Scopes), ∃ ops, (perform s b).2 = (run s ops).2
  | .op op _, s => by
    refine ⟨[op],?_⟩
    rw [runOne, perform]
    split
    · rename_i done
      rw [done]
    · rename_i done
      rw [done]
  | .raise words, s => ⟨[],by rw [perform, run]⟩
  | .scope name body, s => by
    cases found : s.get? name with
    | none => exact ⟨[],by rw [perform, found, run]⟩
    | some h =>
      obtain ⟨ops,ran⟩ := performAllRuns body (step s (.enter name)).2
      refine ⟨.enter name :: ops ++ [.leave],?_⟩
      rw [scopePerforms found, List.cons_append, run, runAppend, ← ran, runOne]
      rfl
  | .guarded body, s => by
    rw [perform]
    exact performAllRuns body s

theorem performAllRuns : ∀ (bs : List Block) (s : Scopes), ∃ ops, (performAll s bs).2 = (run s ops).2
  | [], s => ⟨[],by rw [performAll, run]⟩
  | b :: more, s => by
    obtain ⟨ops,ran⟩ := performRuns b s
    rw [performAll]
    split
    · obtain ⟨others,later⟩ := performAllRuns more (perform s b).2
      exact ⟨ops ++ others,by rw [later, ran, runAppend]⟩
    · exact ⟨ops,ran⟩

end

theorem scopeGivesBack (found : s.get? name = some h) (body : List Block) :
    let inside := performAll (step s (.enter name)).2 body
    let after := perform s (.scope name body)
    (step s (.enter name)).2.active = h ∧ after.1 = inside.1 ∧
      after.2.active = s.active ∧ after.2.saved = s.saved ∧
      (∃ ops, inside.2 = (run s (.enter name :: ops)).2 ∧
        after.2 = (run s (.enter name :: ops ++ [leaving inside.1])).2) ∧
      ∀ (t : Scopes) (ops : List Op), (step t (.thread ops)).2.active = t.active ∧
        (step t (.thread ops)).2.saved = t.saved := by
  intro inside after
  have opened := enterSaves found
  have whole : after = (inside.1,inside.2.restore) := scopePerforms found body
  have kept : inside.2.saved = s.active :: s.saved :=
    (performAllSaved body (step s (.enter name)).2).trans (congrArg Scopes.saved opened)
  obtain ⟨active,saved⟩ := restoreSaved kept
  obtain ⟨ops,ran⟩ := performAllRuns body (step s (.enter name)).2
  rw [whole]
  refine ⟨congrArg Scopes.active opened,rfl,active,saved,⟨ops,?_,?_⟩,fun t ops => ⟨rfl,rfl⟩⟩
  · rw [run]
    exact ran
  · rw [List.cons_append, run, runAppend, runOne, leavingRestores, ← ran]

theorem scopeGivesBackRaised :
    let inner := "a".toList
    let outer := "b".toList
    let s := (run start [.make inner [("tab_size".toList,.int 2)] false,.make outer [] true,.activate inner]).2
    let body : List Block := [.scope inner [.op .reset rfl,
      .guarded [.op (.make outer [("tab_size".toList,.int 0)] true) rfl,.raise []],
      .op (.thread [.enter outer,.fail [],.leave,.activate outer]) rfl,.raise "stop".toList],.op .reset rfl]
    let after := perform s (.scope outer body)
    after.1.map Raised.message = some "stop".toList ∧ after.2.active = s.active ∧ s.active.serial = 1 := by
  intro inner outer s body after
  have made : (s.get? outer).isSome = true := by decide +kernel
  obtain ⟨h,found⟩ := Option.isSome_iff_exists.mp made
  obtain ⟨_,_,active,_⟩ := scopeGivesBack found body
  exact ⟨by decide +kernel,active,by decide +kernel⟩

end LittleMan.Scopes
