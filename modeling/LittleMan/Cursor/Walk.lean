import LittleMan.Assembly.Reading

/-! Walks of a cursor: any sequence of questions, moves and readings, with the flags of the lexer
and a stack of saved ones. A step that fails may already have marked the unit and cleared the
flags, so every step leaves a walk, failed or not. -/
namespace LittleMan

structure Walk where
  cursor : Cursor
  flags : Flags
  saved : List Flags

namespace Walk

inductive Step where
  | atEnd
  | atBeginning
  | column
  | indentation
  | current
  | peek
  | next
  | eatBlanks
  | toEnd
  | display
  | literal (t : Text) (consume anyCase : Bool)
  | pattern (p : Pattern) (consume : Bool)
  | setPos (offset : Int)
  | setStart (offset : Int)
  | mark
  | read
  | emptyLine
  | setFlags (flags : Flags)
  | save
  | restore
  | sameAsSaved
  | displayFlags
  deriving DecidableEq, Repr

inductive Answer where
  | nothing
  | bool (b : Bool)
  | offset (n : Int)
  | text (t : Text)
  | char (c : Option Char)
  | found (f : Option Cursor.Found)
  | tag (t : Option Tag)
  deriving DecidableEq, Repr

def start (cursor : Cursor) (flags : Flags) : Walk := ⟨cursor,flags,[]⟩

def moved {α : Type} (w : Walk) (answer : α → Answer) :
    Except Failure (α × Cursor) → Except Failure Answer × Walk
  | .error e => (.error e,w)
  | .ok (a,c) => (.ok (answer a),{w with cursor := c})

def step (w : Walk) : Step → Except Failure Answer × Walk
  | .atEnd => (.ok (.bool w.cursor.atEnd),w)
  | .atBeginning => (.ok (.bool w.cursor.atBeginning),w)
  | .column => (.ok (.offset w.cursor.column),w)
  | .indentation => (.ok (.offset w.cursor.indentation),w)
  | .current => (.ok (.text w.cursor.current),w)
  | .peek => (w.cursor.peek.map .char,w)
  | .next => w.moved .char w.cursor.next
  | .eatBlanks => w.moved .bool w.cursor.eatBlanks
  | .toEnd => (.ok .nothing,{w with cursor := w.cursor.toEnd})
  | .display => (.ok (.text w.cursor.display),w)
  | .literal t consume anyCase => w.moved .bool (.ok (w.cursor.matchLiteral t consume anyCase))
  | .pattern p consume => w.moved .found (.ok (w.cursor.matchPattern p consume))
  | .setPos n => (.ok .nothing,{w with cursor := {w.cursor with pos := n}})
  | .setStart n => (.ok .nothing,{w with cursor := {w.cursor with start := n}})
  | .mark => (.ok .nothing,{w with cursor := w.cursor.mark})
  | .read =>
    let r := w.cursor.read w.flags
    (r.answer.map .tag,{w with cursor := r.cursor, flags := r.flags})
  | .emptyLine => (.ok .nothing,w)
  | .setFlags f => (.ok .nothing,{w with flags := f})
  | .save => (.ok .nothing,{w with saved := w.flags :: w.saved})
  | .restore =>
    match w.saved with
    | [] => (.ok .nothing,w)
    | f :: more => (.ok .nothing,{w with flags := f, saved := more})
  | .sameAsSaved => (.ok (.bool (w.saved.head? == some w.flags)),w)
  | .displayFlags => (.ok (.text w.flags.display),w)

def run (w : Walk) : List Step → List (Except Failure Answer × Walk)
  | [] => []
  | s :: more => w.step s :: (w.step s).2.run more

end Walk
end LittleMan
