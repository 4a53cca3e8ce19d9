import LittleMan.Mode

/-! Driving a mode over a document: one state for all lines, empty lines told to the mode if it
wants to know, and a failure as soon as the mode leaves the cursor where it was or before. -/
namespace LittleMan.Mode

def Move.token? {σ : Type} (move : Move σ) (line : Text) (number start : Int) : Option Token :=
  move.tag.map fun tag =>
    ⟨tag,Text.trimEnd (Text.between line start move.pos),number,start + 1⟩

structure Trace (σ : Type) where
  calls : List (Int × Move σ)
  outcome : Except Failure σ

def trace {σ : Type} (kind : Text) (token : σ → Cursor → Except Failure (Move σ)) (tab : TabSize)
    (line : Text) (pos : Int) (state : σ) : Trace σ :=
  if line.length ≤ pos then ⟨[],.ok state⟩
  else
    match token state ⟨line,pos,pos,tab⟩ with
    | .error e => ⟨[],.error e⟩
    | .ok move =>
      if move.pos ≤ pos then ⟨[(pos,move)],.error (.stalled kind)⟩
      else
        let others := trace kind token tab line move.pos move.state
        ⟨(pos,move) :: others.calls,others.outcome⟩
termination_by (line.length - pos).toNat

def Trace.tokens {σ : Type} (t : Trace σ) (number : Int) (line : Text) : List Token :=
  t.calls.filterMap fun (start,move) => move.token? line number start

def runLines (m : Mode) (tab : TabSize) : (number : Nat) → List Text → m.State → Except Failure (List Token)
  | _, [], _ => .ok []
  | number, [] :: more, state =>
    runLines m tab (number + 1) more (m.emptyLine.elim state (· state))
  | number, line :: more, state =>
    match m.token.call m.kind tokenName with
    | .error e => .error e
    | .ok token =>
      let calls := trace m.kind token tab line 0 state
      match calls.outcome with
      | .error e => .error e
      | .ok state =>
        match runLines m tab (number + 1) more state with
        | .error e => .error e
        | .ok others => .ok (calls.tokens number line ++ others)

def run (m : Mode) (tab : TabSize) (text : Text) : Except Failure (List Token) :=
  match m.start.call m.kind startName with
  | .error e => .error e
  | .ok state => runLines m tab 1 (Text.lines text) state

end LittleMan.Mode
