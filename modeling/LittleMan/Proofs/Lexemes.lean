import Mathlib.Data.List.Basic
import LittleMan.Assembly.Drawing
import LittleMan.Proofs.Columns

/-! The units of a line, told from the text ahead alone. Inside a line the cursor reads exactly these
units, so what holds of their recursion holds of every drawing, whatever the tab width. -/
namespace LittleMan

theorem Verdict.widthTaken (table : List Rule) (atStart : Bool) (before : Flags) {rest : Text}
    (ahead : rest ≠ []) : (rest.take ((judge table atStart before rest).width rest)).length =
      (judge table atStart before rest).width rest := by
  rw [List.length_take]
  exact Nat.min_eq_left (widthBounds table atStart before ahead).2

theorem Verdict.widthWithin (table : List Rule) (atStart : Bool) (before : Flags) (rest : Text) :
    (judge table atStart before rest).width rest ≤ rest.length := by
  by_cases done : rest = []
  · rw [done, judgeNil]
    exact Nat.le_refl 0
  · exact (widthBounds table atStart before done).2

theorem Verdict.unitInside {table : List Rule} {atStart : Bool} {before : Flags} {line : Text} {pos : Nat}
    {verdict : Verdict} (inside : pos < line.length)
    (judged : judge table atStart before (line.drop pos) = verdict) :
    line.drop pos ≠ [] ∧ 0 < verdict.width (line.drop pos) ∧
      pos + verdict.width (line.drop pos) ≤ line.length ∧
      ((line.drop pos).take (verdict.width (line.drop pos))).length = verdict.width (line.drop pos) := by
  have ahead : line.drop pos ≠ [] := by
    rw [ne_eq, List.drop_eq_nil_iff]
    omega
  have bounds := widthBounds table atStart before ahead
  have taken := widthTaken table atStart before ahead
  rw [judged] at bounds taken
  rw [List.length_drop] at bounds
  exact ⟨ahead,bounds.1,by omega,taken⟩

structure Lexeme where
  start : Nat
  verdict : Verdict
  text : Text
  deriving DecidableEq, Repr

namespace Lexeme

def scan (table : List Rule) (head start : Nat) (rest : Text) (before : Flags) : List Lexeme :=
  if rest = [] then []
  else
    let verdict := Verdict.judge table (start == head) before rest
    let width := verdict.width rest
    ⟨start,verdict,rest.take width⟩ :: scan table head (start + width) (rest.drop width) verdict.flags
termination_by rest.length
decreasing_by
  rename_i ahead
  have bounds := Verdict.widthBounds table (start == head) before ahead
  simp only [List.length_drop]
  omega

def ofLine (table : List Rule) (line : Text) (before : Flags) : List Lexeme :=
  scan table (Text.indent line) 0 line before

def after (before : Flags) (ls : List Lexeme) : Flags :=
  (ls.getLast?.map (·.verdict.flags)).getD before

def token? (number : Int) (l : Lexeme) : Option Token :=
  l.verdict.tag?.map fun tag => ⟨tag,Text.trimEnd l.text,number,l.start + 1⟩

def reading (tab : TabSize) (line : Text) (l : Lexeme) : Reading :=
  ⟨.ok l.verdict.tag?,⟨line,l.start + l.text.length,l.start,tab⟩,l.verdict.flags⟩

theorem afterNil (before : Flags) : after before [] = before := rfl

theorem afterCons (before : Flags) (l : Lexeme) (ls : List Lexeme) :
    after before (l :: ls) = after l.verdict.flags ls := by
  cases ls <;> simp [after, List.getLast?_cons]

theorem scanNil (table : List Rule) (head start : Nat) (before : Flags) :
    scan table head start [] before = [] := by
  rw [scan, if_pos rfl]

theorem scanStep {table : List Rule} {head start : Nat} {rest : Text} {before : Flags}
    {verdict : Verdict} (ahead : rest ≠ [])
    (judged : Verdict.judge table (start == head) before rest = verdict) :
    scan table head start rest before =
      ⟨start,verdict,rest.take (verdict.width rest)⟩ ::
        scan table head (start + verdict.width rest) (rest.drop (verdict.width rest)) verdict.flags := by
  rw [scan, if_neg ahead]
  simp only [judged]

theorem scanTaken {table : List Rule} {head start : Nat} {taken more : Text} {before : Flags}
    {verdict : Verdict} (some : taken ≠ [])
    (judged : Verdict.judge table (start == head) before (taken ++ more) = verdict)
    (width : verdict.width (taken ++ more) = taken.length) :
    scan table head start (taken ++ more) before =
      ⟨start,verdict,taken⟩ :: scan table head (start + taken.length) more verdict.flags := by
  rw [scanStep (List.append_ne_nil_of_left_ne_nil some more) judged, width, List.take_left, List.drop_left]

end Lexeme

namespace Cursor
variable {table : List Rule} {c : Cursor} {pos : Nat} {before : Flags}

theorem nextInside (there : c.pos = pos) (inside : pos < c.text.length) :
    ∃ ch, c.next = .ok (ch,{c with pos := pos + 1}) := by
  cases seen : c.text.drop pos with
  | nil =>
    have empty := List.drop_eq_nil_iff.mp seen
    omega
  | cons ch more =>
    refine ⟨some ch,?_⟩
    have positive : (0 : Int) ≤ pos := Int.natCast_nonneg pos
    simp only [next, ahead, there, if_pos positive, Int.toNat_natCast, seen, Except.map]

theorem readInside (there : c.pos = pos) (inside : pos < c.text.length) {verdict : Verdict}
    (judged : Verdict.judge table (pos == Text.indent c.text) before (c.text.drop pos) = verdict) :
    c.readWith table before =
      ⟨.ok verdict.tag?,⟨c.text,(pos + verdict.width (c.text.drop pos) : Nat),pos,c.tab⟩,verdict.flags⟩ := by
  have start : c.mark.startsStatement = (pos == Text.indent c.text) :=
    Cursor.statementStart (c := c.mark) there (Nat.le_of_lt inside)
  have rest : c.mark.rest = c.text.drop pos := by simp [rest, mark, there]
  have base : c.mark.base = pos := by simp only [base, mark, there, Int.toNat_natCast]; omega
  have left : (c.text.drop pos).length = c.text.length - pos := List.length_drop
  simp only [readWith, start, rest, base, judged]
  cases verdict with
  | skipped =>
    obtain ⟨ch,moved⟩ := nextInside (c := c.mark) there inside
    have one : min 1 (c.text.drop pos).length = 1 := by omega
    rw [moved]
    simp only [Verdict.tag?, Verdict.width, Verdict.flags, one, mark, there, Int.natCast_add,
      Int.natCast_one]
  | newline => simp only [mark, there, Int.natCast_add]
  | ruled rule width => simp only [mark, there, Int.natCast_add]
  | comment => simp only [mark, there, Int.natCast_add]

theorem readEnd (there : c.pos = c.text.length) : c.readWith table before = ⟨.ok none,c.mark,.clear⟩ := by
  have rest : c.mark.rest = [] := by simp only [rest, mark, there, Int.toNat_natCast, List.drop_length]
  have stays : c.mark.next = .ok (none,c.mark) := by
    have inLine : (0 : Int) ≤ c.text.length := Int.natCast_nonneg _
    simp only [next, ahead, mark, there, if_pos inLine, Int.toNat_natCast, List.drop_length, Except.map]
  simp only [readWith, rest, Verdict.judgeNil, stays]

theorem readThere (there : c.pos = pos) (bound : pos ≤ c.text.length) {verdict : Verdict}
    (judged : Verdict.judge table (pos == Text.indent c.text) before (c.text.drop pos) = verdict) :
    c.readWith table before =
      ⟨.ok verdict.tag?,⟨c.text,(pos + verdict.width (c.text.drop pos) : Nat),pos,c.tab⟩,verdict.flags⟩ := by
  by_cases done : pos = c.text.length
  · rw [done] at there judged ⊢
    rw [List.drop_length, Verdict.judgeNil] at judged
    subst judged
    rw [readEnd there, mark, there, List.drop_length]
    rfl
  · exact readInside there (by omega) judged

theorem readingsStep {tag : Option Tag} (inside : ¬ c.atEnd = true)
    (ok : (c.readWith table before).answer = .ok tag) :
    c.readingsWith table before =
      c.readWith table before ::
        (c.readWith table before).cursor.readingsWith table (c.readWith table before).flags := by
  rw [readingsWith, if_neg inside]
  split
  · rename_i failed
    rw [ok] at failed
    contradiction
  · rfl

theorem readingsInside (there : c.pos = pos) (bound : pos ≤ c.text.length) :
    c.readingsWith table before =
      (Lexeme.scan table (Text.indent c.text) pos (c.text.drop pos) before).map
        (Lexeme.reading c.tab c.text) := by
  -- By what is left of the line: the cursor changes from call to call, and only its place matters.
  induction left : c.text.length - pos using Nat.strongRecOn generalizing c pos before with
  | ind left ih =>
    by_cases done : pos = c.text.length
    · have ended : c.atEnd = true := by simp only [atEnd, there, done, decide_eq_true_eq]; omega
      rw [readingsWith, if_pos ended, done, List.drop_length, Lexeme.scanNil, List.map_nil]
    · have inside : pos < c.text.length := by omega
      have unended : ¬ c.atEnd = true := by simp only [atEnd, there, decide_eq_true_eq]; omega
      generalize judged : Verdict.judge table (pos == Text.indent c.text) before (c.text.drop pos) = verdict
      obtain ⟨ahead,some,fits,taken⟩ := Verdict.unitInside inside judged
      have reads := readInside there inside judged
      have later := @ih (c.text.length - (pos + verdict.width (c.text.drop pos))) (by omega)
        ⟨c.text,(pos + verdict.width (c.text.drop pos) : Nat),pos,c.tab⟩ _ verdict.flags rfl fits rfl
      rw [Lexeme.scanStep ahead judged, List.map_cons, readingsStep unended (by rw [reads]), reads,
        later, List.drop_drop]
      simp only [Lexeme.reading, taken, Int.natCast_add]

end Cursor

namespace Lexeme

theorem scanJudged {table : List Rule} {head start : Nat} {rest : Text} {before : Flags} {l : Lexeme}
    (member : l ∈ scan table head start rest before) :
    ∃ (skipped : Nat) (flags : Flags), l.start = start + skipped ∧ skipped < rest.length ∧
      Verdict.judge table (l.start == head) flags (rest.drop skipped) = l.verdict ∧
      l.text = (rest.drop skipped).take (l.verdict.width (rest.drop skipped)) := by
  fun_induction scan table head start rest before with
  | case1 => simp at member
  | case2 start rest before ahead verdict width ih =>
    rcases List.mem_cons.mp member with rfl | later
    · exact ⟨0,before,rfl,List.length_pos_iff.mpr ahead,rfl,rfl⟩
    · obtain ⟨skipped,flags,place,inside,judged,text⟩ := ih later
      rw [List.length_drop] at inside
      rw [List.drop_drop] at judged text
      exact ⟨width + skipped,flags,by omega,by omega,judged,text⟩

theorem scanPlaced {table : List Rule} {head start : Nat} {rest : Text} {before : Flags} {l : Lexeme}
    (member : l ∈ scan table head start rest before) :
    ∃ skipped, l.start = start + skipped ∧ l.text = (rest.drop skipped).take l.text.length ∧
      skipped + l.text.length ≤ rest.length ∧ l.text ≠ [] := by
  obtain ⟨skipped,flags,place,inside,judged,text⟩ := scanJudged member
  obtain ⟨_,some,fits,taken⟩ := Verdict.unitInside inside judged
  rw [← text] at taken
  refine ⟨skipped,place,?_,?_,?_⟩
  · rw [taken]
    exact text
  · rw [taken]
    exact fits
  · exact List.ne_nil_of_length_pos (by rw [taken]; exact some)

def drawing (number : Int) (before : Flags) (ls : List Lexeme) : Drawing :=
  ⟨ls.filterMap fun l => (l.token? number).map (·,l.verdict.flags),after before ls,none⟩

theorem drawingTokens (number : Int) (before : Flags) (ls : List Lexeme) :
    (drawing number before ls).tokens = ls.filterMap (token? number) := by
  simp only [Drawing.tokens, drawing, List.map_filterMap, Option.map_map, Function.comp_def,
    Option.map_id_fun', id_eq]

theorem readingToken {line : Text} {tab : TabSize} {number : Int} {l : Lexeme}
    (fits : l.start + l.text.length ≤ line.length)
    (text : l.text = (line.drop l.start).take l.text.length) :
    (l.reading tab line).token? number = l.token? number := by
  have current : (l.reading tab line).cursor.current = l.text := by
    simp only [reading, Cursor.current]
    rw [← Int.natCast_add, Text.betweenAdd fits]
    exact text.symm
  simp only [Reading.token?, current, token?]
  cases judged : l.verdict.tag? <;> simp [reading, judged]

end Lexeme

theorem drawLineLexemes (table : List Rule) (tab : TabSize) (number : Int) (line : Text) (before : Flags) :
    drawLineWith table tab number line before =
      Lexeme.drawing number before (Lexeme.ofLine table line before) := by
  have readings : (Cursor.ofLine tab line).readingsWith table before =
      (Lexeme.ofLine table line before).map (Lexeme.reading tab line) :=
    Cursor.readingsInside (c := Cursor.ofLine tab line) rfl (Nat.zero_le _)
  have placed : ∀ l ∈ Lexeme.ofLine table line before,
      (l.reading tab line).token? number = l.token? number := by
    intro l member
    obtain ⟨skipped,place,text,fits,_⟩ := Lexeme.scanPlaced member
    rw [Nat.zero_add] at place
    subst place
    exact Lexeme.readingToken fits text
  rw [drawLineWith, readings]
  simp only [Drawing.ofReadings, Lexeme.drawing, List.filterMap_map, List.getLast?_map, Option.map_map]
  congr 1
  · apply List.filterMap_congr
    intro l member
    simp only [Function.comp, placed l member]
    rfl
  · cases (Lexeme.ofLine table line before).getLast? <;> rfl

namespace Lexeme

/- The drawing of consecutive lines. There is no tab size in it to ask for. -/
def drawingLines (table : List Rule) : (number : Nat) → List Text → Flags → Drawing
  | _, [], before => .none before
  | number, line :: more, before =>
    (drawing number before (ofLine table line before)).andThen (drawingLines table (number + 1) more)

theorem drawingLinesTokens (table : List Rule) (number : Nat) (line : Text) (more : List Text)
    (before : Flags) :
    (drawingLines table number (line :: more) before).tokens =
      (ofLine table line before).filterMap (token? number) ++
        (drawingLines table (number + 1) more (after before (ofLine table line before))).tokens := by
  rw [← drawingTokens number before]
  exact List.map_append

theorem drawingLinesDrawn {table : List Rule} {number : Nat} {lines : List Text} {before : Flags} {t : Token}
    (member : t ∈ (drawingLines table number lines before).tokens) :
    ∃ (index : Nat) (row : Text) (flags : Flags) (l : Lexeme), lines[index]? = some row ∧
      l ∈ ofLine table row flags ∧ l.token? (number + index : Nat) = some t := by
  induction lines generalizing number before with
  | nil => exact absurd member List.not_mem_nil
  | cons line more ih =>
    rw [drawingLinesTokens] at member
    rcases List.mem_append.mp member with here | below
    · obtain ⟨l,unit,drawn⟩ := List.mem_filterMap.mp here
      exact ⟨0,line,before,l,rfl,unit,drawn⟩
    · obtain ⟨index,row,flags,l,found,unit,drawn⟩ := ih below
      rw [Nat.add_assoc, Nat.add_comm 1] at drawn
      exact ⟨index + 1,row,flags,l,found,unit,drawn⟩

theorem drawingLinesSound (table : List Rule) (number : Nat) (lines : List Text) (before : Flags) :
    (drawingLines table number lines before).fault = none := by
  induction lines generalizing number before with
  | nil => rfl
  | cons line more ih => exact ih (number + 1) (after before (ofLine table line before))

end Lexeme

theorem drawLinesLexemes {table : List Rule} {tabAt : Nat → Except Failure TabSize}
    (given : ∀ number, ∃ tab, tabAt number = .ok tab) (number : Nat) (lines : List Text)
    (before : Flags) :
    drawLinesWith table tabAt number lines before = Lexeme.drawingLines table number lines before := by
  induction lines generalizing number before with
  | nil => rfl
  | cons line more ih =>
    have later : drawLinesWith table tabAt (number + 1) more =
        Lexeme.drawingLines table (number + 1) more := funext (ih (number + 1))
    cases line with
    | nil =>
      rw [drawLinesWith, Lexeme.drawingLines, Lexeme.ofLine, Lexeme.scanNil, later]
      rfl
    | cons c line =>
      obtain ⟨tab,asked⟩ := given number
      rw [drawLinesWith, asked, Lexeme.drawingLines, ← drawLineLexemes table tab, later]
      exact List.cons_ne_nil c line

theorem drawTextLexemes (tab : TabSize) (text : Text) (before : Flags) :
    Drawing.ofText (.ok tab) text before =
      Lexeme.drawingLines Rule.table 1 (Text.lines text) before :=
  drawLinesLexemes (fun _ => ⟨tab,rfl⟩) 1 (Text.lines text) before

theorem drawTextSound (tab : TabSize) (text : Text) (before : Flags) :
    (Drawing.ofText (.ok tab) text before).fault = none := by
  rw [drawTextLexemes]
  exact Lexeme.drawingLinesSound _ _ _ _

end LittleMan
