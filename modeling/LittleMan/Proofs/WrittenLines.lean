import Mathlib.Data.List.Chain
import LittleMan.Proofs.LineBreaks

/-! A document and the lines it was written from. Lines with a break after each, and perhaps a last one without,
can be told from the text again, break by break, if no carriage return was put where the next line begins with a
line feed of its own. Reading for lines forgets the breaks and nothing else. -/
namespace LittleMan.Text

inductive Break where
  | lf
  | crlf
  | cr
  deriving DecidableEq, Repr

def Break.text : Break → Text
  | .lf => ['\n']
  | .crlf => ['\r','\n']
  | .cr => ['\r']

def writeLines : List (Text × Break) → Text → Text
  | [], rest => rest
  | (line,b) :: more, rest => line ++ b.text ++ writeLines more rest

/- A carriage return and the line feed of an empty line after it are one break. -/
def Apart (row next : Text × Break) : Prop := row.2 = .cr → next ≠ ([],.lf)

structure Sound (rows : List (Text × Break)) (last : Text) : Prop where
  rowsUnbroken : ∀ row ∈ rows, Unbroken row.1
  lastUnbroken : Unbroken last
  apart : rows.IsChain Apart

structure Written where
  rows : List (Text × Break)
  last : Text
  sound : Sound rows last

def Written.text (w : Written) : Text := writeLines w.rows w.last

def joinFirst (t : Text) : List (Text × Break) × Text → List (Text × Break) × Text
  | ([],last) => ([],t ++ last)
  | ((line,b) :: rows,last) => ((t ++ line,b) :: rows,last)

def endFirst (b : Break) (parts : List (Text × Break) × Text) : List (Text × Break) × Text :=
  (([],b) :: parts.1,parts.2)

def breakUp : Text → List (Text × Break) × Text
  | [] => ([],[])
  | '\r' :: '\n' :: rest => endFirst .crlf (breakUp rest)
  | '\r' :: rest => endFirst .cr (breakUp rest)
  | '\n' :: rest => endFirst .lf (breakUp rest)
  | c :: rest => joinFirst [c] (breakUp rest)

section Steps
variable {c : Char} {t u : Text} {rows : List (Text × Break)} {last : Text}

theorem breakUpOrdinary (carriage : c ≠ '\r') (feed : c ≠ '\n') : breakUp (c :: t) = joinFirst [c] (breakUp t) :=
  breakUp.eq_5 c t (fun _ first _ => carriage first) carriage feed

theorem breakUpBreak (b : Break) (clear : b = .cr → t.head? ≠ some '\n') :
    breakUp (b.text ++ t) = endFirst b (breakUp t) := by
  cases b with
  | lf => exact breakUp.eq_4 t
  | crlf => exact breakUp.eq_2 t
  | cr =>
    refine breakUp.eq_3 t fun rest same => ?_
    rw [same] at clear
    exact clear rfl rfl

theorem joinTwice (parts : List (Text × Break) × Text) : joinFirst t (joinFirst u parts) = joinFirst (t ++ u) parts := by
  obtain ⟨rows,last⟩ := parts
  cases rows with
  | nil => rw [joinFirst, joinFirst, joinFirst, List.append_assoc]
  | cons row rows => rw [joinFirst, joinFirst, joinFirst, List.append_assoc]

theorem joinNothing (parts : List (Text × Break) × Text) : joinFirst [] parts = parts := by
  obtain ⟨rows,last⟩ := parts
  cases rows <;> rfl

theorem breakUpUnbroken (unbroken : Unbroken t) : breakUp (t ++ u) = joinFirst t (breakUp u) := by
  induction t with
  | nil => exact (joinNothing (breakUp u)).symm
  | cons c t ih =>
    obtain ⟨carriage,feed⟩ := unbroken c List.mem_cons_self
    rw [List.cons_append, breakUpOrdinary carriage feed, ih fun d member => unbroken d (List.mem_cons_of_mem c member),
      joinTwice]
    rfl

theorem unbrokenCons (carriage : c ≠ '\r') (feed : c ≠ '\n') (unbroken : Unbroken t) : Unbroken (c :: t) := by
  intro d member
  rcases List.mem_cons.mp member with rfl | later
  · exact ⟨carriage,feed⟩
  · exact unbroken d later

theorem unbrokenFree (unbroken : Unbroken t) (more : Text) : t ≠ [] → (t ++ more).head? ≠ some '\n' := by
  intro filled first
  rw [List.head?_append_of_ne_nil t filled] at first
  exact (unbroken '\n' (List.mem_of_mem_head? first)).2 rfl

theorem Sound.tail {row : Text × Break} (sound : Sound (row :: rows) last) : Sound rows last :=
  ⟨fun r member => sound.rowsUnbroken r (List.mem_cons_of_mem row member),sound.lastUnbroken,sound.apart.tail⟩

theorem Sound.clear {line : Text} {b : Break} (sound : Sound ((line,b) :: rows) last) :
    b = .cr → (writeLines rows last).head? ≠ some '\n' := by
  intro carriage
  cases rows with
  | nil => exact fun first => (sound.lastUnbroken '\n' (List.mem_of_mem_head? first)).2 rfl
  | cons next rows =>
    obtain ⟨line,b⟩ := next
    rw [writeLines, List.append_assoc]
    by_cases filled : line = []
    · subst filled
      cases b with
      | lf => exact absurd rfl ((List.isChain_cons_cons.mp sound.apart).1 carriage)
      | crlf | cr => simp [Break.text]
    · exact unbrokenFree (sound.rowsUnbroken (line,b) (List.mem_cons_of_mem _ List.mem_cons_self)) _ filled

theorem endSound {b : Break} (clear : b = .cr → (writeLines rows last).head? ≠ some '\n') (sound : Sound rows last) :
    Sound (([],b) :: rows) last where
  rowsUnbroken row member := by
    rcases List.mem_cons.mp member with rfl | later
    · exact fun c inside => absurd inside List.not_mem_nil
    · exact sound.rowsUnbroken row later
  lastUnbroken := sound.lastUnbroken
  apart := by
    refine List.isChain_cons.mpr ⟨?_,sound.apart⟩
    rintro next first carriage rfl
    obtain ⟨more,rfl⟩ := List.head?_eq_some_iff.mp first
    exact clear carriage rfl

theorem joinSound (carriage : c ≠ '\r') (feed : c ≠ '\n') (sound : Sound rows last) :
    Sound (joinFirst [c] (rows,last)).1 (joinFirst [c] (rows,last)).2 := by
  cases rows with
  | nil => exact ⟨nofun,unbrokenCons carriage feed sound.lastUnbroken,.nil⟩
  | cons row rows =>
    obtain ⟨line,b⟩ := row
    refine ⟨?_,sound.lastUnbroken,?_⟩
    · intro row member
      rcases List.mem_cons.mp member with rfl | later
      · exact unbrokenCons carriage feed (sound.rowsUnbroken (line,b) List.mem_cons_self)
      · exact sound.rowsUnbroken row (List.mem_cons_of_mem _ later)
    · obtain ⟨first,later⟩ := List.isChain_cons.mp sound.apart
      exact List.isChain_cons.mpr ⟨fun next member => first next member,later⟩

theorem writeJoined (parts : List (Text × Break) × Text) :
    writeLines (joinFirst t parts).1 (joinFirst t parts).2 = t ++ writeLines parts.1 parts.2 := by
  obtain ⟨rows,last⟩ := parts
  cases rows with
  | nil => rfl
  | cons row rows => simp only [joinFirst, writeLines, List.append_assoc]

end Steps

theorem writeBrokenUp (t : Text) : writeLines (breakUp t).1 (breakUp t).2 = t := by
  induction t using breakUp.induct with
  | case1 => rfl
  | case2 rest ih => exact congrArg ('\r' :: '\n' :: ·) ih
  | case3 rest single ih =>
    rw [breakUp.eq_3 rest single]
    exact congrArg ('\r' :: ·) ih
  | case4 rest ih => exact congrArg ('\n' :: ·) ih
  | case5 c rest _ carriage feed ih =>
    rw [breakUpOrdinary carriage feed, writeJoined, ih]
    rfl

theorem breakUpSound (t : Text) : Sound (breakUp t).1 (breakUp t).2 := by
  induction t using breakUp.induct with
  | case1 => exact ⟨nofun,nofun,.nil⟩
  | case2 rest ih => exact endSound nofun ih
  | case3 rest single ih =>
    have clear : (writeLines (breakUp rest).1 (breakUp rest).2).head? ≠ some '\n' := by
      rw [writeBrokenUp]
      intro first
      obtain ⟨more,same⟩ := List.head?_eq_some_iff.mp first
      exact single more same
    rw [breakUp.eq_3 rest single]
    exact endSound (fun _ => clear) ih
  | case4 rest ih => exact endSound nofun ih
  | case5 c rest _ carriage feed ih =>
    rw [breakUpOrdinary carriage feed]
    exact joinSound carriage feed ih

theorem breakUpWritten {rows : List (Text × Break)} {last : Text} (sound : Sound rows last) :
    breakUp (writeLines rows last) = (rows,last) := by
  -- Each break ends where the next line begins.
  induction rows with
  | nil =>
    have whole := breakUpUnbroken (u := []) sound.lastUnbroken
    rwa [List.append_nil, breakUp, joinFirst, List.append_nil] at whole
  | cons row rows ih =>
    obtain ⟨line,b⟩ := row
    rw [writeLines, List.append_assoc, breakUpUnbroken (sound.rowsUnbroken (line,b) List.mem_cons_self),
      breakUpBreak b sound.clear, ih sound.tail, endFirst, joinFirst, List.append_nil]

theorem linesBreakUp (t : Text) :
    lines t = (breakUp t).1.map (·.1) ++ if (breakUp t).2 = [] then [] else [(breakUp t).2] := by
  induction t using breakUp.induct with
  | case1 => rfl
  | case2 rest ih | case4 rest ih => rw [lines, ih, breakUp]; rfl
  | case3 rest single ih => rw [lines.eq_3 rest single, ih, breakUp.eq_3 rest single]; rfl
  | case5 c rest _ carriage feed ih =>
    rw [linesStep carriage feed, ih, breakUpOrdinary carriage feed]
    obtain ⟨rows,last⟩ := breakUp rest
    cases rows with
    | nil => cases last <;> rfl
    | cons row rows => rfl

theorem linesUnbroken (t : Text) : ∀ line ∈ lines t, Unbroken line := by
  intro line member
  have sound := breakUpSound t
  rw [linesBreakUp, List.mem_append] at member
  rcases member with written | last
  · obtain ⟨row,inside,rfl⟩ := List.mem_map.mp written
    exact sound.rowsUnbroken row inside
  · split at last
    · contradiction
    · rw [List.mem_singleton.mp last]
      exact sound.lastUnbroken

def rowStart (t : Text) (index : Nat) : Nat := (writeLines ((breakUp t).1.take index) []).length

theorem writeAppend (rows more : List (Text × Break)) (last : Text) :
    writeLines (rows ++ more) last = writeLines rows [] ++ writeLines more last := by
  induction rows with
  | nil => rfl
  | cons row rows ih =>
    obtain ⟨line,b⟩ := row
    rw [List.cons_append, writeLines, writeLines, ih, List.append_assoc _ _ (writeLines more last)]

theorem rowWritten {rows : List (Text × Break)} {last row : Text} {index : Nat}
    (found : (rows.map (·.1) ++ if last = [] then [] else [last])[index]? = some row) :
    row <+: writeLines (rows.drop index) last := by
  induction rows generalizing index with
  | nil =>
    have member := List.mem_of_getElem? found
    rw [List.map_nil, List.nil_append] at member
    split at member
    · contradiction
    · rw [List.mem_singleton.mp member, List.drop_nil]
      exact List.prefix_rfl
  | cons first rows ih =>
    obtain ⟨line,b⟩ := first
    cases index with
    | zero =>
      cases Option.some.inj found
      rw [List.drop_zero, writeLines, List.append_assoc]
      exact List.prefix_append _ _
    | succ index => exact ih found

theorem rowStands {t row : Text} {index : Nat} (found : (lines t)[index]? = some row) :
    row <+: t.drop (rowStart t index) := by
  have parts := writeAppend ((breakUp t).1.take index) ((breakUp t).1.drop index) (breakUp t).2
  rw [List.take_append_drop, writeBrokenUp] at parts
  have behind : t.drop (rowStart t index) = writeLines ((breakUp t).1.drop index) (breakUp t).2 := by
    rw [congrArg (List.drop _) parts, rowStart, List.drop_left]
  rw [linesBreakUp] at found
  rw [behind]
  exact rowWritten found

theorem linesOfWritten :
    (∀ w : Written, lines w.text = w.rows.map (·.1) ++ if w.last = [] then [] else [w.last]) ∧
      ∀ t : Text, ∃! w : Written, w.text = t := by
  refine ⟨fun w => ?_,fun t => ⟨⟨_,_,breakUpSound t⟩,writeBrokenUp t,fun w same => ?_⟩⟩
  · rw [Written.text, linesBreakUp, breakUpWritten w.sound]
  · obtain ⟨rows,last,sound⟩ := w
    subst same
    have parts : breakUp (writeLines rows last) = (rows,last) := breakUpWritten sound
    simp only [Written.text, parts]

example : (breakUp "a\r\r\nb\n\n;".toList) =
    ([(['a'],.cr),([],.crlf),(['b'],.lf),([],.lf)],[';']) := by decide

end LittleMan.Text
