import LittleMan.Proofs.Watching

/-! The order in which things happen to callbacks. Until the layout is announced they are registered and dropped;
then those that wait are called in turn, and any other one that is registered is called at once. What is dropped
from then on makes no difference. -/
namespace LittleMan.Session

/- How far it has come: callbacks wait, or they are called, with these left to call, or one is about to be called
because it has been registered late. -/
inductive Stage where
  | waiting (callbacks : List Callback)
  | calling (batch : List Callback)
  | answering (callback : Callback) (batch : List Callback)

namespace Stage
variable {stage next last : Stage} {event : Event} {events more : List Event} {c : Callback}
  {callbacks batch rest : List Callback}

def after : Stage → Event → Option Stage
  | .waiting callbacks, .registered c => some (.waiting (if c ∈ callbacks then callbacks else callbacks ++ [c]))
  | .waiting callbacks, .dropped c => some (.waiting (callbacks.erase c))
  | .waiting callbacks, .announced => some (.calling callbacks)
  | .calling batch, .registered c => some (.answering c batch)
  | .calling batch, .dropped _ => some (.calling batch)
  | .calling (first :: batch), .invoked c => if c = first then some (.calling batch) else none
  | .answering callback batch, .invoked c => if c = callback then some (.calling batch) else none
  | _, _ => none

def course (stage : Stage) : List Event → Option Stage
  | [] => some stage
  | event :: more => (stage.after event).bind fun next => next.course more

theorem courseStep (goes : stage.after event = some next) (more : List Event) :
    stage.course (event :: more) = next.course more := by
  rw [course, goes, Option.bind_some]

theorem courseAppend (stage : Stage) (events more : List Event) :
    stage.course (events ++ more) = (stage.course events).bind fun next => next.course more := by
  induction events generalizing stage with
  | nil => rfl
  | cons event others ih =>
    rw [List.cons_append, course, course]
    cases stage.after event with
    | none => rfl
    | some next => exact ih next

theorem courseSplits (runs : stage.course (events ++ more) = some last) :
    ∃ next, stage.course events = some next ∧ next.course more = some last :=
  Option.bind_eq_some_iff.mp ((courseAppend stage events more).symm.trans runs)

theorem courseOpens (runs : stage.course (event :: more) = some last) :
    ∃ next, stage.after event = some next ∧ next.course more = some last :=
  Option.bind_eq_some_iff.mp runs

def due : Stage → List Callback
  | .waiting callbacks => callbacks
  | .calling batch => batch
  | .answering callback batch => callback :: batch

theorem afterUndue (goes : stage.after event = some next) (undue : c ∉ stage.due) (other : event ≠ .registered c) :
    event ≠ .invoked c ∧ c ∉ next.due := by
  unfold after at goes
  split at goes
  case h_1 callbacks d =>
    cases Option.some.inj goes
    have differs : c ≠ d := fun same => other (same ▸ rfl)
    refine ⟨nofun,?_⟩
    show c ∉ (if d ∈ callbacks then callbacks else callbacks ++ [d])
    split
    · exact undue
    · rw [List.mem_append, List.mem_singleton]
      exact fun inside => inside.elim undue differs
  case h_2 callbacks d =>
    cases Option.some.inj goes
    exact ⟨nofun,fun inside => undue (List.mem_of_mem_erase inside)⟩
  case h_3 callbacks =>
    cases Option.some.inj goes
    exact ⟨nofun,undue⟩
  case h_4 batch d =>
    cases Option.some.inj goes
    have differs : c ≠ d := fun same => other (same ▸ rfl)
    exact ⟨nofun,fun inside => (List.mem_cons.mp inside).elim differs undue⟩
  case h_5 batch d =>
    cases Option.some.inj goes
    exact ⟨nofun,undue⟩
  case h_6 first batch d =>
    split at goes
    · rename_i same
      subst same
      cases Option.some.inj goes
      exact ⟨fun this => undue (Event.invoked.inj this ▸ List.mem_cons_self),
        fun inside => undue (List.mem_cons_of_mem _ inside)⟩
    · contradiction
  case h_7 callback batch d =>
    split at goes
    · rename_i same
      subst same
      cases Option.some.inj goes
      exact ⟨fun this => undue (Event.invoked.inj this ▸ List.mem_cons_self),
        fun inside => undue (List.mem_cons_of_mem _ inside)⟩
    · contradiction
  case h_8 => contradiction

theorem courseUndue (runs : stage.course events = some last) (undue : c ∉ stage.due)
    (unregistered : .registered c ∉ events) : .invoked c ∉ events ∧ c ∉ last.due := by
  induction events generalizing stage with
  | nil =>
    cases Option.some.inj runs
    exact ⟨List.not_mem_nil,undue⟩
  | cons event more ih =>
    obtain ⟨next,goes,runs⟩ := courseOpens runs
    rw [List.mem_cons, not_or] at unregistered
    obtain ⟨differs,undue⟩ := afterUndue goes undue (Ne.symm unregistered.1)
    obtain ⟨uninvoked,undue⟩ := ih runs undue unregistered.2
    exact ⟨fun inside => (List.mem_cons.mp inside).elim (fun same => differs same.symm) uninvoked,undue⟩

def announced : Stage → Bool
  | .waiting _ => false
  | .calling _ | .answering _ _ => true

def queue : Stage → List Callback
  | .waiting callbacks => callbacks
  | .calling batch => batch
  | .answering _ batch => batch

theorem afterCalls (goes : stage.after event = some next) (began : stage.announced = true) :
    next.announced = true ∧ next.queue <:+ stage.queue ∧
      ∀ c, [event].count (.invoked c) + next.due.count c = [event].count (.registered c) + stage.due.count c := by
  unfold after at goes
  split at goes
  case h_1 | h_2 | h_3 => contradiction
  case h_4 batch d =>
    cases Option.some.inj goes
    refine ⟨rfl,List.suffix_rfl,fun c => ?_⟩
    simp only [due, List.count_cons, List.count_nil, beq_iff_eq, Event.registered.injEq, reduceCtorEq, if_false]
    omega
  case h_5 batch d =>
    cases Option.some.inj goes
    exact ⟨rfl,List.suffix_rfl,fun c => rfl⟩
  case h_6 first batch d =>
    split at goes
    · rename_i same
      cases Option.some.inj goes
      refine ⟨rfl,List.suffix_cons first batch,fun c => ?_⟩
      simp only [due, List.count_cons, List.count_nil, beq_iff_eq, Event.invoked.injEq, reduceCtorEq, if_false, same]
      omega
    · contradiction
  case h_7 callback batch d =>
    split at goes
    · rename_i same
      cases Option.some.inj goes
      refine ⟨rfl,List.suffix_rfl,fun c => ?_⟩
      simp only [due, List.count_cons, List.count_nil, beq_iff_eq, Event.invoked.injEq, reduceCtorEq, if_false, same]
      omega
    · contradiction
  case h_8 => contradiction

theorem courseCounts (runs : stage.course events = some last) (began : stage.announced = true) :
    last.announced = true ∧ last.queue <:+ stage.queue ∧
      ∀ c, events.count (.invoked c) + last.due.count c = events.count (.registered c) + stage.due.count c := by
  induction events generalizing stage with
  | nil =>
    cases Option.some.inj runs
    exact ⟨began,List.suffix_rfl,fun c => rfl⟩
  | cons event more ih =>
    obtain ⟨next,goes,runs⟩ := courseOpens runs
    obtain ⟨going,suffix,counts⟩ := afterCalls goes began
    obtain ⟨ends,suffixes,more⟩ := ih runs going
    refine ⟨ends,suffixes.trans suffix,fun c => ?_⟩
    have now := counts c
    have later := more c
    rw [← List.singleton_append, List.count_append, List.count_append]
    omega

theorem courseCalls (runs : (calling batch).course events = some (.calling rest)) :
    ∃ called, batch = called ++ rest ∧
      ∀ c, events.count (.invoked c) = events.count (.registered c) + called.count c := by
  obtain ⟨_,⟨called,whole⟩,counts⟩ := courseCounts runs rfl
  refine ⟨called,whole.symm,fun c => ?_⟩
  have these := counts c
  have both : batch.count c = called.count c + rest.count c := by
    rw [← List.count_append]
    exact congrArg (List.count c) whole.symm
  simp only [due] at these
  omega

theorem courseStays (runs : (calling batch).course events = some (.calling batch)) (c : Callback) :
    events.count (.invoked c) = events.count (.registered c) :=
  Nat.add_right_cancel ((courseCounts runs rfl).2.2 c)

theorem courseAnnounced (runs : (waiting callbacks).course events = some (.calling rest)) :
    ∃ early late waited, events = early ++ .announced :: late ∧
      (waiting callbacks).course early = some (.waiting waited) ∧
      (calling waited).course late = some (.calling rest) := by
  induction events generalizing callbacks with
  | nil => cases runs
  | cons event more ih =>
    obtain ⟨next,goes,runs⟩ := courseOpens runs
    match event, goes with
    | .announced, rfl => exact ⟨[],more,callbacks,rfl,rfl,runs⟩
    | .registered c, rfl =>
      obtain ⟨early,late,waited,rfl,before,after⟩ := ih runs
      exact ⟨.registered c :: early,late,waited,rfl,before,after⟩
    | .dropped c, rfl =>
      obtain ⟨early,late,waited,rfl,before,after⟩ := ih runs
      exact ⟨.dropped c :: early,late,waited,rfl,before,after⟩

theorem courseWaits (runs : (waiting callbacks).course events = some (.waiting rest)) (once : callbacks.Nodup) :
    rest.Nodup ∧ ∀ c ∈ rest, c ∈ callbacks ∧ .dropped c ∉ events ∨
      ∃ first later, events = first ++ .registered c :: later ∧ .dropped c ∉ later := by
  induction events generalizing callbacks with
  | nil =>
    cases runs
    exact ⟨once,fun c inside => .inl ⟨inside,List.not_mem_nil⟩⟩
  | cons event more ih =>
    obtain ⟨next,goes,runs⟩ := courseOpens runs
    match event, goes with
    | .announced, rfl => cases (courseCounts runs rfl).1
    | .registered d, rfl =>
      have onceMore : (if d ∈ callbacks then callbacks else callbacks ++ [d]).Nodup := by
        split
        · exact once
        · rename_i fresh
          exact List.nodup_append.mpr ⟨once,List.pairwise_singleton _ d,fun a inside b same =>
            fun equal => fresh (List.mem_singleton.mp same ▸ equal ▸ inside)⟩
      obtain ⟨onceAtLast,waits⟩ := ih runs onceMore
      refine ⟨onceAtLast,fun c inside => ?_⟩
      rcases waits c inside with ⟨before,kept⟩ | ⟨first,later,rfl,kept⟩
      · by_cases same : c = d
        · subst same
          exact .inr ⟨[],more,rfl,kept⟩
        · refine .inl ⟨?_,fun inside => (List.mem_cons.mp inside).elim nofun kept⟩
          split at before
          · exact before
          · exact (List.mem_append.mp before).resolve_right fun last => same (List.mem_singleton.mp last)
      · exact .inr ⟨.registered d :: first,later,rfl,kept⟩
    | .dropped d, rfl =>
      obtain ⟨onceAtLast,waits⟩ := ih runs (once.erase d)
      refine ⟨onceAtLast,fun c inside => ?_⟩
      rcases waits c inside with ⟨before,kept⟩ | ⟨first,later,rfl,kept⟩
      · obtain ⟨differs,before⟩ := once.mem_erase_iff.mp before
        exact .inl ⟨before,fun inside => (List.mem_cons.mp inside).elim (fun same => differs (Event.dropped.inj same))
          kept⟩
      · exact .inr ⟨.dropped d :: first,later,rfl,kept⟩

end Stage
end LittleMan.Session
