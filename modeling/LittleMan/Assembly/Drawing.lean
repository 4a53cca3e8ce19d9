import LittleMan.Assembly.Reading

/-! Drawing tokens from a line or a document. A drawing keeps, with every token, the flags at the
moment it was drawn, so that a reader who stops early finds the lexer where it stopped. Empty lines
leave the flags alone, and the tab size is asked for at each line that is not empty. -/
namespace LittleMan

structure Drawing where
  drawn : List (Token × Flags)
  flags : Flags
  fault : Option Failure
  deriving Repr

namespace Drawing

def none (flags : Flags) : Drawing := ⟨[],flags,.none⟩

def tokens (d : Drawing) : List Token := d.drawn.map (·.1)

def andThen (d : Drawing) (next : Flags → Drawing) : Drawing :=
  match d.fault with
  | some _ => d
  | .none =>
    let e := next d.flags
    {e with drawn := d.drawn ++ e.drawn}

/-- What a reader has who takes at most `count` tokens: the drawing goes on only while another token
is asked for. -/
def upTo (count : Nat) (before : Flags) (d : Drawing) : Drawing :=
  if count ≤ d.drawn.length then
    let taken := d.drawn.take count
    ⟨taken,(taken.getLast?.map (·.2)).getD before,.none⟩
  else d

end Drawing

def Reading.token? (number : Int) (r : Reading) : Option Token :=
  match r.answer with
  | .ok (some tag) => some ⟨tag,Text.trimEnd r.cursor.current,number,r.cursor.start + 1⟩
  | _ => none

def Reading.failure? (r : Reading) : Option Failure :=
  match r.answer with
  | .error e => some e
  | .ok _ => none

def Drawing.ofReadings (number : Int) (before : Flags) (readings : List Reading) : Drawing where
  drawn := readings.filterMap fun r => (r.token? number).map (·,r.flags)
  flags := (readings.getLast?.map (·.flags)).getD before
  fault := readings.getLast?.bind (·.failure?)

def drawLineWith (table : List Rule) (tab : TabSize) (number : Int) (line : Text) (before : Flags) : Drawing :=
  .ofReadings number before ((Cursor.ofLine tab line).readingsWith table before)

def drawLine (tab : TabSize) (number : Int) (line : Text) (before : Flags) : Drawing :=
  drawLineWith Rule.table tab number line before

def drawLinesWith (table : List Rule) (tabAt : Nat → Except Failure TabSize) :
    (number : Nat) → List Text → Flags → Drawing
  | _, [], before => .none before
  | number, [] :: more, before => drawLinesWith table tabAt (number + 1) more before
  | number, line :: more, before =>
    match tabAt number with
    | .error e => ⟨[],before,some e⟩
    | .ok tab =>
      (drawLineWith table tab number line before).andThen
        (drawLinesWith table tabAt (number + 1) more)

def drawLines (tabAt : Nat → Except Failure TabSize) (number : Nat) (lines : List Text) (before : Flags) :
    Drawing :=
  drawLinesWith Rule.table tabAt number lines before

def Drawing.ofLine (tab : Except Failure TabSize) (number : Int) (line : Text) (before : Flags) : Drawing :=
  match tab with
  | .error e => ⟨[],before,some e⟩
  | .ok tab => drawLine tab number line before

def Drawing.ofText (tab : Except Failure TabSize) (text : Text) (before : Flags) : Drawing :=
  drawLines (fun _ => tab) 1 (Text.lines text) before

end LittleMan
