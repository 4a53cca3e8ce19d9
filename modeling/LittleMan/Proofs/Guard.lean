import LittleMan.Mode.Stock
import LittleMan.Proofs.Drivers

/-! The guard of a host. A mode is foreign: its calls may set the cursor to any offset, tag what they like, and keep
a state of their own. A call that does not move the cursor on is the last one, so on a line the cursor only goes
forward, and a line takes at most as many calls as it has characters. -/
namespace LittleMan

def Token.Ahead (s t : Token) : Prop := s.line < t.line ∨ s.line = t.line ∧ s.column < t.column

namespace Mode

section Line
variable {σ : Type}

def Quiet (token : σ → Cursor → Except Failure (Move σ)) : Prop :=
  ∀ state c, 0 ≤ c.pos → c.pos < c.text.length → ∃ move, token state c = .ok move

def Stays (call : Int × Move σ) : Prop := call.2.pos ≤ call.1

def Halts (calls : List (Int × Move σ)) : Prop :=
  ∃ early call, calls = early ++ [call] ∧ Stays call ∧ ∀ other ∈ early, ¬ Stays other

theorem Halts.after {first calls : List (Int × Move σ)} (halts : Halts calls)
    (onward : ∀ call ∈ first, ¬ Stays call) : Halts (first ++ calls) := by
  obtain ⟨early,call,rfl,stays,others⟩ := halts
  exact ⟨first ++ early,call,(List.append_assoc _ _ _).symm,stays,
    List.forall_mem_append.mpr ⟨onward,others⟩⟩

inductive Called (token : σ → Cursor → Except Failure (Move σ)) (tab : TabSize) (line : Text) :
    Int → σ → List (Int × Move σ) → Int → σ → Prop where
  | none (pos : Int) (state : σ) : Called token tab line pos state [] pos state
  | call {pos : Int} {state move calls stop after} (inside : pos < line.length)
      (answers : token state ⟨line,pos,pos,tab⟩ = .ok move)
      (rest : Called token tab line move.pos move.state calls stop after) :
      Called token tab line pos state ((pos,move) :: calls) stop after

inductive Guarded (kind : Text) (token : σ → Cursor → Except Failure (Move σ)) (tab : TabSize) (line : Text) :
    Int → σ → Trace σ → Prop where
  | finished {pos : Int} {state : σ} (ended : line.length ≤ pos) : Guarded kind token tab line pos state ⟨[],.ok state⟩
  | stall {pos : Int} {state move} (inside : pos < line.length)
      (answers : token state ⟨line,pos,pos,tab⟩ = .ok move) (stays : move.pos ≤ pos) :
      Guarded kind token tab line pos state ⟨[(pos,move)],.error (.stalled kind)⟩
  | call {pos : Int} {state move others} (inside : pos < line.length)
      (answers : token state ⟨line,pos,pos,tab⟩ = .ok move) (onward : pos < move.pos)
      (rest : Guarded kind token tab line move.pos move.state others) :
      Guarded kind token tab line pos state ⟨(pos,move) :: others.calls,others.outcome⟩

variable {kind : Text} {token : σ → Cursor → Except Failure (Move σ)} {tab : TabSize} {line : Text} {pos : Int}
  {state : σ} {t : Trace σ}

theorem traceGuarded (kind : Text) (quiet : Quiet token) (tab : TabSize) (line : Text) (inLine : 0 ≤ pos)
    (state : σ) :
    Guarded kind token tab line pos state (trace kind token tab line pos state) := by
  fun_induction trace kind token tab line pos state with
  | case1 pos state ended => exact .finished ended
  | case2 pos state inside e failed =>
    obtain ⟨move,answers⟩ := quiet state ⟨line,pos,pos,tab⟩ inLine (Int.not_le.mp inside)
    cases failed.symm.trans answers
  | case3 pos state inside move answers stays => exact .stall (Int.not_le.mp inside) answers stays
  | case4 pos state inside move answers onward others ih =>
    have forward : pos < move.pos := Int.not_le.mp onward
    exact .call (Int.not_le.mp inside) answers forward (ih (Int.le_trans inLine (Int.le_of_lt forward)))

theorem Guarded.bound (guarded : Guarded kind token tab line pos state t) :
    t.calls.length ≤ (line.length - pos).toNat := by
  induction guarded with
  | finished => exact Nat.zero_le _
  | stall inside =>
    rw [List.length_singleton]
    omega
  | call inside answers onward rest ih =>
    rw [List.length_cons]
    omega

theorem Guarded.inside (guarded : Guarded kind token tab line pos state t) :
    ∀ call ∈ t.calls, pos ≤ call.1 ∧ call.1 < line.length := by
  induction guarded with
  | finished => exact List.forall_mem_nil _
  | stall inside => exact List.forall_mem_singleton.mpr ⟨Int.le_refl _,inside⟩
  | call inside answers onward rest ih =>
    refine List.forall_mem_cons.mpr ⟨⟨Int.le_refl _,inside⟩,fun call later => ?_⟩
    obtain ⟨beyond,within⟩ := ih call later
    exact ⟨Int.le_trans (Int.le_of_lt onward) beyond,within⟩

theorem Guarded.rises (guarded : Guarded kind token tab line pos state t) : t.calls.Pairwise (·.1 < ·.1) := by
  induction guarded with
  | finished => exact .nil
  | stall => exact List.pairwise_singleton _ _
  | call inside answers onward rest ih =>
    exact .cons (fun call later => Int.lt_of_lt_of_le onward (rest.inside call later).1) ih

theorem Guarded.called (guarded : Guarded kind token tab line pos state t) :
    ∃ stop after, Called token tab line pos state t.calls stop after ∧
      (line.length ≤ stop ∨ ∃ call ∈ t.calls, Stays call) := by
  induction guarded with
  | finished ended => exact ⟨_,_,.none _ _,.inl ended⟩
  | stall inside answers stays =>
    exact ⟨_,_,.call inside answers (.none _ _),.inr ⟨_,List.mem_singleton_self _,stays⟩⟩
  | call inside answers onward rest ih =>
    obtain ⟨stop,after,called,ends⟩ := ih
    exact ⟨stop,after,.call inside answers called,
      ends.imp_right fun ⟨last,later,stays⟩ => ⟨last,List.mem_cons_of_mem _ later,stays⟩⟩

theorem Guarded.ends (guarded : Guarded kind token tab line pos state t) :
    (∃ after, t.outcome = .ok after) ∧ (∀ call ∈ t.calls, ¬ Stays call) ∨
      t.outcome = .error (.stalled kind) ∧ Halts t.calls := by
  induction guarded with
  | finished => exact .inl ⟨⟨_,rfl⟩,List.forall_mem_nil _⟩
  | stall inside answers stays => exact .inr ⟨rfl,[],_,rfl,stays,List.forall_mem_nil _⟩
  | @call pos _ move _ _ _ onward _ ih =>
    have moves : ¬ Stays (pos,move) := Int.not_le.mpr onward
    rcases ih with ⟨ended,goOn⟩ | ⟨stopped,halts⟩
    · exact .inl ⟨ended,List.forall_mem_cons.mpr ⟨moves,goOn⟩⟩
    · exact .inr ⟨stopped,halts.after (List.forall_mem_singleton.mpr moves)⟩

end Line

structure Visit (σ : Type) extends Trace σ where
  number : Nat
  line : Text
  before : σ

def Visit.tokens {σ : Type} (v : Visit σ) : List Token :=
  v.calls.filterMap fun call => call.2.tag.map fun tag =>
    ⟨tag,Text.trimEnd (Text.between v.line call.1 call.2.pos),v.number,call.1 + 1⟩

theorem Visit.traceTokens {σ : Type} (v : Visit σ) : v.toTrace.tokens v.number v.line = v.tokens := rfl

variable {m : Mode} {token : m.State → Cursor → Except Failure (Move m.State)} {tab : TabSize} {number : Nat}
  {line : Text} {more lines : List Text} {state : m.State}

def visits (m : Mode) (token : m.State → Cursor → Except Failure (Move m.State)) (tab : TabSize) :
    (number : Nat) → List Text → m.State → List (Visit m.State)
  | _, [], _ => []
  | number, [] :: more, state => visits m token tab (number + 1) more (m.emptyLine.elim state (· state))
  | number, line :: more, state =>
    let calls := trace m.kind token tab line 0 state
    ⟨calls,number,line,state⟩ :: match calls.outcome with
      | .error _ => []
      | .ok after => visits m token tab (number + 1) more after

theorem visitsEmpty : visits m token tab number ([] :: more) state =
    visits m token tab (number + 1) more (m.emptyLine.elim state (· state)) := by
  rw [visits]

theorem visitsFilled {t : Trace m.State} {after : m.State} (filled : line ≠ [])
    (traced : trace m.kind token tab line 0 state = t) (ended : t.outcome = .ok after) :
    visits m token tab number (line :: more) state =
      ⟨t,number,line,state⟩ :: visits m token tab (number + 1) more after := by
  rw [visits]
  · simp only [traced, ended]
  · exact filled

theorem visitsStopped {t : Trace m.State} {e : Failure} (filled : line ≠ [])
    (traced : trace m.kind token tab line 0 state = t) (stopped : t.outcome = .error e) :
    visits m token tab number (line :: more) state = [⟨t,number,line,state⟩] := by
  rw [visits]
  · simp only [traced, stopped]
  · exact filled

theorem runLinesStopped {t : Trace m.State} {e : Failure} (filled : line ≠ [])
    (called : m.token.call m.kind tokenName = .ok token) (traced : trace m.kind token tab line 0 state = t)
    (stopped : t.outcome = .error e) : runLines m tab number (line :: more) state = .error e := by
  rw [runLines]
  · simp only [called, traced, stopped]
  · exact filled

theorem visitsPlaced (quiet : Quiet token) {v : Visit m.State} (member : v ∈ visits m token tab number lines state) :
    v.line ≠ [] ∧ Guarded m.kind token tab v.line 0 v.before v.toTrace ∧
      ∃ index, v.number = number + index ∧ lines[index]? = some v.line := by
  induction lines generalizing number state with
  | nil =>
    rw [visits] at member
    contradiction
  | cons line more ih =>
    have later {before : m.State} (member : v ∈ visits m token tab (number + 1) more before) :
        v.line ≠ [] ∧ Guarded m.kind token tab v.line 0 v.before v.toTrace ∧
          ∃ index, v.number = number + index ∧ (line :: more)[index]? = some v.line := by
      obtain ⟨filled,guarded,index,place,found⟩ := ih member
      exact ⟨filled,guarded,index + 1,by omega,found⟩
    by_cases empty : line = []
    · subst empty
      rw [visitsEmpty] at member
      exact later member
    · have guarded := traceGuarded m.kind quiet tab line (Int.le_refl 0) state
      generalize traced : trace m.kind token tab line 0 state = t at guarded
      have here : line ≠ [] ∧ Guarded m.kind token tab line 0 state t ∧
          ∃ index, number = number + index ∧ (line :: more)[index]? = some line := ⟨empty,guarded,0,rfl,rfl⟩
      rcases guarded.ends with ⟨⟨after,ended⟩,_⟩ | ⟨stopped,_⟩
      · rw [visitsFilled empty traced ended] at member
        rcases List.mem_cons.mp member with rfl | next
        · exact here
        · exact later next
      · rw [visitsStopped empty traced stopped, List.mem_singleton] at member
        subst member
        exact here

theorem visitsOrdered (quiet : Quiet token) (tab : TabSize) (number : Nat) (lines : List Text) (state : m.State) :
    (visits m token tab number lines state).Pairwise (·.number < ·.number) := by
  induction lines generalizing number state with
  | nil =>
    rw [visits]
    exact .nil
  | cons line more ih =>
    by_cases empty : line = []
    · subst empty
      rw [visitsEmpty]
      exact ih _ _
    · generalize traced : trace m.kind token tab line 0 state = t
      cases ended : t.outcome with
      | error e =>
        rw [visitsStopped empty traced ended]
        exact List.pairwise_singleton _ _
      | ok after =>
        rw [visitsFilled empty traced ended]
        refine .cons (fun v later => ?_) (ih _ _)
        obtain ⟨_,_,index,place,_⟩ := visitsPlaced quiet later
        dsimp only
        omega

theorem runLinesGuarded (quiet : Quiet token) (called : m.token.call m.kind tokenName = .ok token) (tab : TabSize)
    (number : Nat) (lines : List Text) (state : m.State) :
    runLines m tab number lines state = .error (.stalled m.kind) ∧
        Halts ((visits m token tab number lines state).flatMap (·.calls)) ∨
      runLines m tab number lines state = .ok ((visits m token tab number lines state).flatMap Visit.tokens) ∧
        (∀ call ∈ (visits m token tab number lines state).flatMap (·.calls), ¬ Stays call) ∧
        (visits m token tab number lines state).map (·.line) = lines.filter (· ≠ []) := by
  induction lines generalizing number state with
  | nil =>
    rw [visits]
    exact .inr ⟨rfl,List.forall_mem_nil _,rfl⟩
  | cons line more ih =>
    by_cases empty : line = []
    · subst empty
      rw [visitsEmpty, runLinesEmpty, List.filter_cons_of_neg (by simp)]
      exact ih _ _
    · have guarded := traceGuarded m.kind quiet tab line (Int.le_refl 0) state
      generalize traced : trace m.kind token tab line 0 state = t at guarded
      rcases guarded.ends with ⟨⟨after,ended⟩,onward⟩ | ⟨stopped,halts⟩
      · obtain ⟨calls,outcome⟩ := t
        cases ended
        rw [visitsFilled empty traced rfl, runLinesFilled empty called traced,
          List.filter_cons_of_pos (by simp [empty]), List.flatMap_cons, List.flatMap_cons, List.map_cons]
        rcases ih (number + 1) after with ⟨failed,halts⟩ | ⟨ran,others,all⟩
        · rw [failed]
          exact .inl ⟨rfl,halts.after onward⟩
        · rw [ran, all, ← Visit.traceTokens]
          exact .inr ⟨rfl,List.forall_mem_append.mpr ⟨onward,others⟩,rfl⟩
      · rw [visitsStopped empty traced stopped, runLinesStopped empty called traced stopped, List.flatMap_singleton]
        exact .inl ⟨rfl,halts⟩

theorem tokenPlaced {σ : Type} {v : Visit σ} {t : Token} (member : t ∈ v.tokens) :
    ∃ call ∈ v.calls, call.2.tag = some t.tag ∧ t.line = v.number ∧ t.column = call.1 + 1 ∧
      t.value = Text.trimEnd (Text.between v.line call.1 call.2.pos) := by
  obtain ⟨⟨start,move⟩,called,found⟩ := List.mem_filterMap.mp member
  obtain ⟨tag,tagged,rfl⟩ := Option.map_eq_some_iff.mp found
  exact ⟨_,called,tagged,rfl,rfl,rfl⟩

theorem tokensAhead {v : Visit m.State} (guarded : Guarded m.kind token tab v.line 0 v.before v.toTrace) :
    v.tokens.Pairwise Token.Ahead := by
  refine List.pairwise_filterMap.mpr (guarded.rises.imp fun {call other} before s first t second => ?_)
  obtain ⟨tag,_,rfl⟩ := Option.map_eq_some_iff.mp first
  obtain ⟨last,_,rfl⟩ := Option.map_eq_some_iff.mp second
  exact .inr ⟨rfl,Int.add_lt_add_right before 1⟩

theorem everyModeEnds (m : Mode) (tab : TabSize) (text : Text) {start : m.State}
    {token : m.State → Cursor → Except Failure (Move m.State)} (starts : m.start = .function start)
    (drawn : m.token = .function token) (quiet : Quiet token) :
    let vs := m.visits token tab 1 (Text.lines text) start
    let calls := vs.flatMap (·.calls)
    let tokens := vs.flatMap Visit.tokens
    (∀ v ∈ vs, v.line ≠ [] ∧ (Text.lines text)[v.number - 1]? = some v.line ∧ v.calls.length ≤ v.line.length ∧
      ∃ stop after, Called token tab v.line 0 v.before v.calls stop after ∧
        (v.line.length ≤ stop ∨ ∃ call ∈ v.calls, Stays call)) ∧
    ((∃ call ∈ calls, Stays call) → Halts calls ∧ m.run tab text = .error (.stalled m.kind)) ∧
    ((∀ call ∈ calls, ¬ Stays call) → vs.map (·.line) = (Text.lines text).filter (· ≠ []) ∧
      m.run tab text = .ok tokens ∧ tokens.Pairwise Token.Ahead ∧
        ∀ t ∈ tokens, ∃ v ∈ vs, ∃ call ∈ v.calls, call.2.tag = some t.tag ∧ t.line = v.number ∧
          t.column = call.1 + 1 ∧ 1 ≤ t.column ∧ t.column ≤ v.line.length ∧
          t.value = Text.trimEnd (Text.between v.line call.1 call.2.pos)) := by
  intro vs calls tokens
  have called : m.token.call m.kind tokenName = .ok token := by rw [drawn]; rfl
  have runs : m.run tab text = runLines m tab 1 (Text.lines text) start := by
    rw [run, starts]
    rfl
  rw [runs]
  have placed {v : Visit m.State} (member : v ∈ vs) := visitsPlaced quiet member
  have ends := runLinesGuarded quiet called tab 1 (Text.lines text) start
  refine ⟨fun v member => ?_,fun ⟨call,there,stays⟩ => ?_,fun onward => ?_⟩
  · obtain ⟨filled,guarded,index,place,found⟩ := placed member
    have offset : v.number - 1 = index := by omega
    have bound := guarded.bound
    rw [Int.sub_zero, Int.toNat_natCast] at bound
    exact ⟨filled,offset ▸ found,bound,guarded.called⟩
  · rcases ends with ⟨failed,halts⟩ | ⟨_,onward,_⟩
    · exact ⟨halts,failed⟩
    · exact absurd stays (onward call there)
  · rcases ends with ⟨_,early,call,last,stays,_⟩ | ⟨ran,_,all⟩
    · have there : call ∈ calls := by
        rw [show calls = early ++ [call] from last]
        exact List.mem_append_right early (List.mem_singleton_self call)
      exact absurd stays (onward call there)
    · refine ⟨all,ran,?_,fun t member => ?_⟩
      · refine List.pairwise_flatMap.mpr ⟨fun v member => tokensAhead (placed member).2.1,?_⟩
        refine (visitsOrdered quiet tab 1 (Text.lines text) start).imp fun {v w} before => ?_
        intro s first t second
        obtain ⟨_,_,_,line,_⟩ := tokenPlaced first
        obtain ⟨_,_,_,later,_⟩ := tokenPlaced second
        exact .inl (by omega)
      · obtain ⟨v,visited,inside⟩ := List.mem_flatMap.mp member
        obtain ⟨_,guarded,_⟩ := placed visited
        obtain ⟨call,there,tag,line,column,value⟩ := tokenPlaced inside
        obtain ⟨least,most⟩ := guarded.inside call there
        exact ⟨v,visited,call,there,tag,line,column,by omega,by omega,value⟩

theorem goingBackEnds :
    let m := Stock.back.mode
    let token : m.State → Cursor → Except Failure (Move m.State) :=
      fun _ c => .ok ⟨some .link,if c.pos = 0 then c.pos + 1 else c.pos - 1,()⟩
    let text := ['c','\n','\n','a','b']
    let calls := (m.visits token .standard 1 (Text.lines text) ()).flatMap (·.calls)
    calls.map (fun call => (call.1,call.2.pos)) = [(0,1),(0,1),(1,0)] ∧ Halts calls ∧
      m.run .standard text = .error (.stalled m.kind) := by
  intro m token text calls
  have places : calls.map (fun call => (call.1,call.2.pos)) = [(0,1),(0,1),(1,0)] := by decide +kernel
  have quiet : Quiet token := fun _ _ _ _ => ⟨_,rfl⟩
  obtain ⟨_,stalls,_⟩ := everyModeEnds m .standard text rfl rfl quiet
  have last : (1,0) ∈ calls.map fun call => (call.1,call.2.pos) := by simp [places]
  obtain ⟨call,there,place⟩ := List.mem_map.mp last
  obtain ⟨start,stop⟩ := Prod.mk.inj place
  have stays : Stays call := by rw [Stays, start, stop]; decide
  exact ⟨places,stalls ⟨call,there,stays⟩⟩

end Mode
end LittleMan
