import LittleMan.Proofs.Lexemes
import LittleMan.Proofs.Verdicts

/-! Nothing of a text is lost. The tokens of a line are laid over it: solid values with blanks between
them, each value the very text that stands in its place. So the characters outside all tokens are
blanks, and every other character lies in one token. -/
namespace LittleMan
open Text (Blank Solid)

inductive Laid (number : Int) : Nat → Text → List Token → Prop where
  | rest {start text} (blank : Blank text) : Laid number start text []
  | token {start gap value text more} (tag : Tag) (blank : Blank gap) (solid : Solid value)
      (tail : Laid number (start + gap.length + value.length) text more) :
      Laid number start (gap ++ value ++ text) (⟨tag,value,number,(start + gap.length : Nat) + 1⟩ :: more)

def Token.Covers (t : Token) (number : Int) (offset : Nat) : Prop :=
  t.line = number ∧ t.column ≤ offset + 1 ∧ (offset : Int) + 1 < t.column + t.value.length

def Token.Before (s t : Token) : Prop :=
  s.line < t.line ∨ s.line = t.line ∧ s.column + s.value.length ≤ t.column

section Line
variable {number : Int} {start : Nat} {text : Text} {ts : List Token}

theorem laidAfterBlank {gap : Text} (blank : Blank gap) (laid : Laid number (start + gap.length) text ts) :
    Laid number start (gap ++ text) ts := by
  cases laid with
  | rest more => exact .rest (Text.blankAppend blank more)
  | @token _ inner value text more tag blanks solid tail =>
    have tail' : Laid number (start + (gap ++ inner).length + value.length) text more := by
      rw [List.length_append, ← Nat.add_assoc]
      exact tail
    have whole := Laid.token tag (Text.blankAppend blank blanks) solid tail'
    simpa only [List.append_assoc, List.length_append, Nat.add_assoc] using whole

theorem laidAfterUnit {unit : Text} (tag : Tag) (solid : Solid (Text.trimEnd unit))
    (laid : Laid number (start + unit.length) text ts) :
    Laid number start (unit ++ text) (⟨tag,Text.trimEnd unit,number,start + 1⟩ :: ts) := by
  obtain ⟨gap,cut,blank⟩ := Text.trimEndParts unit
  have length := congrArg List.length cut
  rw [List.length_append] at length
  have nothing : Blank [] := by intro c member; contradiction
  have later : Laid number (start + 0 + (Text.trimEnd unit).length) (gap ++ text) ts := by
    apply laidAfterBlank blank
    rw [Nat.add_zero, Nat.add_assoc, ← length]
    exact laid
  have whole := Laid.token tag nothing solid later
  rw [List.nil_append, ← List.append_assoc, ← cut] at whole
  exact whole

theorem laidScan (table : List Rule) (head : Nat) (before : Flags) :
    Laid number start text ((Lexeme.scan table head start text before).filterMap (Lexeme.token? number)) := by
  fun_induction Lexeme.scan table head start text before with
  | case1 => exact .rest (by intro c member; contradiction)
  | case2 start rest before ahead verdict width ih =>
    have taken : (rest.take width).length = width := Verdict.widthTaken table _ before ahead
    rw [← taken] at ih
    cases judged : verdict.tag? with
    | none =>
      have whole := laidAfterBlank (Verdict.untaggedBlank rfl judged) ih
      rw [taken, List.take_append_drop] at whole
      rw [List.filterMap_cons_none (by simp only [Lexeme.token?, judged, Option.map_none])]
      exact whole
    | some tag =>
      have whole := laidAfterUnit tag (Verdict.taggedSolid rfl judged) ih
      rw [taken, List.take_append_drop] at whole
      have drawn : Lexeme.token? number ⟨start,verdict,rest.take width⟩ =
          some ⟨tag,Text.trimEnd (rest.take width),number,start + 1⟩ := by
        simp only [Lexeme.token?, judged, Option.map_some]
      rw [List.filterMap_cons_some drawn]
      exact whole

theorem laidTokens (laid : Laid number start text ts) {t : Token} (member : t ∈ ts) :
    t.line = number ∧ Solid t.value ∧ ∃ offset : Nat, t.column = (start + offset : Nat) + 1 ∧
      (text.drop offset).take t.value.length = t.value := by
  induction laid with
  | rest => contradiction
  | @token start gap value text more tag blank solid tail ih =>
    rcases List.mem_cons.mp member with rfl | later
    · refine ⟨rfl,solid,gap.length,rfl,?_⟩
      rw [List.append_assoc, List.drop_left, List.take_left]
    · obtain ⟨line,whole,offset,column,same⟩ := ih later
      refine ⟨line,whole,gap.length + value.length + offset,?_,?_⟩
      · rw [column, Nat.add_assoc, Nat.add_assoc, Nat.add_assoc]
      · rw [← List.length_append, List.drop_length_add_append]
        exact same

theorem laidOrdered (laid : Laid number start text ts) : ts.Pairwise Token.Before := by
  induction laid with
  | rest => exact .nil
  | @token start gap value text more tag blank solid tail ih =>
    apply List.pairwise_cons.mpr
    refine ⟨?_,ih⟩
    intro t member
    obtain ⟨line,_,offset,column,_⟩ := laidTokens tail member
    refine .inr ⟨line.symm,?_⟩
    simp only [column]
    omega

theorem laidCovers (laid : Laid number start text ts) {offset : Nat} {c : Char}
    (found : text[offset]? = some c) (clear : Text.isBlank c = false) :
    ∃ t ∈ ts, t.Covers number (start + offset) := by
  induction laid generalizing offset with
  | rest blank =>
    have := blank c (List.mem_of_getElem? found)
    simp only [clear, Bool.false_eq_true] at this
  | @token start gap value text more tag blank solid tail ih =>
    rcases Nat.lt_or_ge offset gap.length with first | later
    · rw [List.append_assoc, List.getElem?_append_left first] at found
      have := blank c (List.mem_of_getElem? found)
      simp only [clear, Bool.false_eq_true] at this
    · rcases Nat.lt_or_ge offset (gap.length + value.length) with inside | after
      · refine ⟨_,List.mem_cons_self,rfl,?_,?_⟩ <;> dsimp only <;> omega
      · rw [← List.length_append] at after
        rw [List.getElem?_append_right after] at found
        obtain ⟨t,member,covers⟩ := ih found
        rw [List.length_append] at after covers
        have place : start + gap.length + value.length + (offset - (gap.length + value.length)) =
            start + offset := by omega
        rw [place] at covers
        exact ⟨t,List.mem_cons_of_mem _ member,covers⟩

end Line

inductive LaidLines : Nat → List Text → List Token → Prop where
  | nil (number) : LaidLines number [] []
  | cons {number line lines ts more} (head : Laid (number : Nat) 0 line ts)
      (tail : LaidLines (number + 1) lines more) : LaidLines number (line :: lines) (ts ++ more)

section Lines
variable {number : Nat} {lines : List Text} {ts : List Token}

theorem laidDrawing (table : List Rule) (number : Nat) (lines : List Text) (before : Flags) :
    LaidLines number lines (Lexeme.drawingLines table number lines before).tokens := by
  induction lines generalizing number before with
  | nil => exact .nil number
  | cons line more ih =>
    rw [Lexeme.drawingLinesTokens]
    exact .cons (laidScan table _ before) (ih _ _)

theorem laidLinesTokens (laid : LaidLines number lines ts) {t : Token} (member : t ∈ ts) :
    Solid t.value ∧ ∃ index offset : Nat, ∃ row, lines[index]? = some row ∧
      t.line = (number + index : Nat) ∧ t.column = offset + 1 ∧
      (row.drop offset).take t.value.length = t.value := by
  induction laid with
  | nil => contradiction
  | @cons number line lines ts more head tail ih =>
    rcases List.mem_append.mp member with first | later
    · obtain ⟨place,solid,offset,column,same⟩ := laidTokens head first
      rw [Nat.zero_add] at column
      exact ⟨solid,0,offset,line,rfl,place,column,same⟩
    · obtain ⟨solid,index,offset,row,found,place,rest⟩ := ih later
      exact ⟨solid,index + 1,offset,row,found,by omega,rest⟩

theorem laidLinesOrdered (laid : LaidLines number lines ts) : ts.Pairwise Token.Before := by
  induction laid with
  | nil => exact .nil
  | @cons number line lines ts more head tail ih =>
    apply List.pairwise_append.mpr
    refine ⟨laidOrdered head,ih,?_⟩
    intro s first t later
    have here := (laidTokens head first).1
    obtain ⟨_,index,_,_,_,below,_⟩ := laidLinesTokens tail later
    exact .inl (by omega)

theorem laidLinesCovers (laid : LaidLines number lines ts) {index offset : Nat} {row : Text} {c : Char}
    (found : lines[index]? = some row) (there : row[offset]? = some c)
    (clear : Text.isBlank c = false) : ∃ t ∈ ts, t.Covers (number + index : Nat) offset := by
  induction laid generalizing index with
  | nil => contradiction
  | @cons number first lines ts more head tail ih =>
    cases index with
    | zero =>
      cases Option.some.inj found
      obtain ⟨t,member,covers⟩ := laidCovers head there clear
      rw [Nat.zero_add] at covers
      exact ⟨t,List.mem_append_left _ member,covers⟩
    | succ index =>
      obtain ⟨t,member,covers⟩ := ih found
      refine ⟨t,List.mem_append_right _ member,?_⟩
      rw [Nat.add_assoc, Nat.add_comm 1] at covers
      exact covers

theorem coveredOnce (ordered : ts.Pairwise Token.Before) {s t : Token} (left : s ∈ ts) (right : t ∈ ts)
    {place : Int} {offset : Nat} (first : s.Covers place offset) (second : t.Covers place offset) :
    s = t := by
  have apart : ∀ {a b : Token}, a.Before b → a.Covers place offset → b.Covers place offset → False := by
    intro a b before left right
    obtain ⟨aLine,_,aEnd⟩ := left
    obtain ⟨bLine,bStart,_⟩ := right
    rcases before with above | ⟨_,ahead⟩ <;> omega
  induction ts with
  | nil => contradiction
  | cons head tail ih =>
    obtain ⟨ahead,later⟩ := List.pairwise_cons.mp ordered
    rcases List.mem_cons.mp left with rfl | leftLater <;> rcases List.mem_cons.mp right with rfl | rightLater
    · rfl
    · exact (apart (ahead t rightLater) first second).elim
    · exact (apart (ahead s leftLater) second first).elim
    · exact ih later leftLater rightLater

end Lines

theorem laidText (tab : TabSize) (text : Text) (before : Flags) :
    LaidLines 1 (Text.lines text) (Drawing.ofText (.ok tab) text before).tokens := by
  rw [drawTextLexemes]
  exact laidDrawing Rule.table 1 (Text.lines text) before

theorem tokensCoverText (tab : TabSize) (text : Text) (before : Flags) :
    let lines := Text.lines text
    let tokens := (Drawing.ofText (.ok tab) text before).tokens
    (∀ t ∈ tokens, Solid t.value ∧ ∃ index offset : Nat, ∃ row, lines[index]? = some row ∧
      t.line = index + 1 ∧ t.column = offset + 1 ∧ (row.drop offset).take t.value.length = t.value) ∧
    tokens.Pairwise Token.Before ∧
    ∀ (index offset : Nat) (row : Text) (c : Char), lines[index]? = some row → row[offset]? = some c →
      ((∀ t ∈ tokens, ¬ t.Covers (index + 1) offset) → Text.isBlank c = true) ∧
      (Text.isBlank c = false → ∃! t, t ∈ tokens ∧ t.Covers (index + 1) offset) := by
  intro lines tokens
  have laid : LaidLines 1 lines tokens := laidText tab text before
  have ordered := laidLinesOrdered laid
  refine ⟨?_,ordered,?_⟩
  · intro t member
    obtain ⟨solid,index,offset,row,found,place,rest⟩ := laidLinesTokens laid member
    exact ⟨solid,index,offset,row,found,by omega,rest⟩
  · intro index offset row c found there
    have covered : Text.isBlank c = false → ∃ t ∈ tokens, t.Covers (index + 1) offset := by
      intro clear
      obtain ⟨t,member,covers⟩ := laidLinesCovers laid found there clear
      rw [Nat.add_comm] at covers
      exact ⟨t,member,covers⟩
    constructor
    · intro uncovered
      rw [← Bool.not_eq_false]
      intro clear
      obtain ⟨t,member,covers⟩ := covered clear
      exact uncovered t member covers
    · intro clear
      obtain ⟨t,member,covers⟩ := covered clear
      exact ⟨t,⟨member,covers⟩,fun s other => coveredOnce ordered other.1 member other.2 covers⟩

theorem tokensCoverTextAfterSpace :
    ∃! t, t ∈ (Drawing.ofText (.ok .standard) "\r\nA\u00a0LDA".toList .clear).tokens ∧
      t.Covers ((1 : Nat) + 1) 2 :=
  ((tokensCoverText .standard "\r\nA\u00a0LDA".toList .clear).2.2 1 2 _ 'L' rfl rfl).2 (by decide)

end LittleMan
