import LittleMan.Markup.Program

/-! Which settings are active. Every settings value that is made gets a serial number of its own,
which tells it from equal ones. Entering a scope puts the active settings aside and leaving it, in
whatever way, brings them back. A thread starts with standard settings and no open scope, and the
caller finds its own settings unchanged afterwards; names of settings are shared. -/
namespace LittleMan

structure Handle where
  serial : Nat
  settings : Settings
  deriving Repr

structure Scopes where
  named : List (Text × Handle)
  fresh : Nat
  active : Handle
  saved : List Handle

namespace Scopes

def standard : Handle := ⟨0,.standard⟩

def start : Scopes := ⟨[],1,standard,[]⟩

inductive Op where
  | make (name : Text) (fields : Settings.Fields) (ignoreUnknown : Bool)
  | activate (name : Text)
  | reset
  | enter (name : Text)
  | leave
  /-- Leaves the innermost scope by a failure inside it, which goes on outside. -/
  | fail (words : Text)
  | same (a b : Text)
  | isActive (name : Text)
  | display (name : Text)
  | assign (name field : Text)
  | indentation (line : Text)
  | highlight (code : Text)
  | thread (ops : List Op)
  deriving Repr, Inhabited

inductive Answer where
  | nothing
  | bool (b : Bool)
  | column (n : Int)
  | text (t : Text)
  | settings (s : Settings)
  | steps (reports : List (Except Failure Answer × Settings))

abbrev Report := Except Failure Answer × Settings

def get? (s : Scopes) (name : Text) : Option Handle := (s.named.find? (·.1 == name)).map (·.2)

def bind (s : Scopes) (name : Text) (settings : Settings) : Scopes :=
  {s with
    named := (name,⟨s.fresh,settings⟩) :: s.named.filter (·.1 != name)
    fresh := s.fresh + 1}

def restore (s : Scopes) : Scopes :=
  match s.saved with
  | [] => s
  | h :: more => {s with active := h, saved := more}

def ask (s : Scopes) (name : Text) (answer : Handle → Answer) : Except Failure Answer :=
  .ok ((s.get? name).elim .nothing answer)

mutual

def step (s : Scopes) : Op → Except Failure Answer × Scopes
  | .make name fields ignoreUnknown =>
    match if ignoreUnknown then Settings.ofKnownFields fields else Settings.ofFields fields with
    | .error e => (.error e,s)
    | .ok made => (.ok (.settings made),s.bind name made)
  | .activate name =>
    (.ok .nothing,(s.get? name).elim s fun h => {s with active := h})
  | .reset => (.ok .nothing,{s with active := standard})
  | .enter name =>
    (.ok .nothing,(s.get? name).elim s fun h => {s with active := h, saved := s.active :: s.saved})
  | .leave => (.ok (.bool false),s.restore)
  | .fail _ => (.ok (.bool false),s.restore)
  | .same a b =>
    (s.ask a fun x => ((s.get? b).elim .nothing fun y => .bool (x.settings.same y.settings)),s)
  | .isActive name => (s.ask name fun h => .bool (h.serial == s.active.serial),s)
  | .display name => (s.ask name fun h => .text h.settings.display,s)
  | .assign _ field => (.error (Settings.assignFailure field),s)
  | .indentation line =>
    (.ok (.column (Cursor.ofLine s.active.settings.tab line).indentation),s)
  | .highlight code => ((Markup.program s.active.settings ⟨[],false⟩ code).map .text,s)
  | .thread ops =>
    let inner := run {s with active := standard, saved := []} ops
    (.ok (.steps inner.1),{s with named := inner.2.named, fresh := inner.2.fresh})

def run (s : Scopes) : List Op → List Report × Scopes
  | [] => ([],s)
  | op :: more =>
    let first := step s op
    let others := run first.2 more
    ((first.1,first.2.active.settings) :: others.1,others.2)

end

end Scopes
end LittleMan
