import LittleMan.Proofs.Lexemes
import LittleMan.Proofs.Recognition

/-! Blanks at the end of a line. No pattern asks for a blank, except for those before a keyword, and the last unit of a
line takes the blanks after it along, whichever it is. So nothing is left over that could be read as a unit of its own
and clear the flags: a line with more blanks at its end is read as without them. -/
namespace LittleMan
open Text (Blank Ends)

variable {t gap : Text}

namespace Text

theorem blankEnds {p : Char → Bool} (dark : ∀ c, isBlank c = true → p c = false) (blank : Blank gap) : Ends p gap :=
  fun c first => dark c (blank c (List.mem_of_head? first))

theorem spanTrailing {p : Char → Bool} (dark : ∀ c, isBlank c = true → p c = false) (blank : Blank gap) (t : Text) :
    span p (t ++ gap) = span p t := by
  induction t with
  | nil => exact @spanExact p [] gap nofun (blankEnds dark blank)
  | cons c t ih =>
    rw [span, span] at ih
    rw [List.cons_append, span, span, List.takeWhile_cons, List.takeWhile_cons]
    split
    · rw [List.length_cons, List.length_cons, ih]
    · rfl

theorem indentBlank (blank : Blank t) : indent t = t.length := by
  have whole := @spanExact isBlank t [] blank nofun
  rwa [List.append_nil] at whole

theorem indentTrailing (solid : ¬ Blank t) (gap : Text) : indent (t ++ gap) = indent t := by
  induction t with
  | nil => exact absurd nofun solid
  | cons c t ih =>
    rw [indent, indent, span, span, List.cons_append, List.takeWhile_cons, List.takeWhile_cons]
    split
    · rename_i blank
      have rest : ¬ Blank t := fun rest => solid (List.forall_mem_cons.mpr ⟨blank,rest⟩)
      rw [List.length_cons, List.length_cons]
      exact congrArg (· + 1) (ih rest)
    · rfl

theorem solidDrop {n : Nat} (blank : Blank (t.take n)) (solid : ¬ Blank t) : ¬ Blank (t.drop n) := by
  intro rest
  have whole := blankAppend blank rest
  rw [List.take_append_drop] at whole
  exact solid whole

end Text

theorem Keyword.atTrailing (blank : Blank gap) (t : Text) : at? (t ++ gap) = at? t := by
  refine Option.ext fun k => ?_
  rw [atExact, atExact]
  refine ⟨spelledWithin (Text.blankEnds (fun _ => Text.blankDark) blank),fun spelled => ?_⟩
  rw [List.map_append]
  exact spelled.trans (List.prefix_append _ _)

namespace Pattern

theorem startsTrailing (blank : Blank gap) (p : Role → Bool) (t : Text) :
    startsWithRole p (t ++ gap) = startsWithRole p t := by
  rw [startsWithRole, startsWithRole, Keyword.atTrailing blank]

theorem leadsToTrailing (blank : Blank gap) (p : Role → Bool) (t : Text) : leadsTo p (t ++ gap) = leadsTo p t := by
  induction t with
  | nil =>
    have rest : Blank (gap.dropWhile Text.isAsciiBlank) :=
      fun c member => blank c ((List.dropWhile_suffix _).subset member)
    exact startsTrailing rest p []
  | cons c t ih =>
    rw [leadsTo, leadsTo] at ih
    rw [leadsTo, leadsTo, List.cons_append, List.dropWhile_cons, List.dropWhile_cons]
    split
    · exact ih
    · exact startsTrailing blank p (c :: t)

theorem labelTrailing (blank : Blank gap) (p : Role → Bool) (t : Text) :
    labelLength? (leadsTo p) (t ++ gap) = labelLength? (leadsTo p) t := by
  induction t with
  | nil =>
    refine labelLengthMissed (w := []) (Text.blankEnds (fun _ => Text.blankDark) blank) fun n positive none => ?_
    rw [List.length_nil] at none
    omega
  | cons c t ih => rw [List.cons_append, labelLength?, labelLength?, ih, leadsToTrailing blank]

theorem runTrailing {p : Char → Bool} (dark : ∀ c, Text.isBlank c = true → p c = false) (blank : Blank gap) (t : Text) :
    run? p (t ++ gap) = run? p t := by
  rw [run?, run?, Text.spanTrailing dark blank]

theorem lengthTrailing (blank : Blank gap) (ahead : t ≠ []) (p : Pattern) : p.length? (t ++ gap) = p.length? t := by
  have digit (c : Char) (blank : Text.isBlank c = true) : Text.isDigit c = false := by
    rw [Bool.eq_false_iff]
    intro digit
    cases (Text.blankDark blank).symm.trans (Text.digitWord digit)
  cases p with
  | newline => rw [length?, length?, List.head?_append_of_ne_nil _ ahead]
  | digits => exact runTrailing digit blank t
  | keyword role => rw [length?, length?, startsTrailing blank]
  | dataLabel => exact labelTrailing blank _ t
  | instructionLabel => exact labelTrailing blank _ t
  | word => exact runTrailing (fun _ => Text.blankDark) blank t
  | comment => exact runTrailing (fun c blank => by rw [blank, Bool.not_true]) blank t

end Pattern

namespace Verdict
variable {table : List Rule} {atStart : Bool} {before : Flags} {rest : Text} {verdict : Verdict}

theorem widthTrailing (judged : judge table atStart before rest = verdict) (blank : Blank gap) (solid : ¬ Blank rest) :
    verdict.width (rest ++ gap) = verdict.width rest ∧ ¬ Blank (rest.drop (verdict.width rest)) ∨
      verdict.width rest = rest.length ∧ verdict.width (rest ++ gap) = (rest ++ gap).length := by
  have some : rest ≠ [] := fun none => solid (by rw [none]; nofun)
  have single : min 1 (rest ++ gap).length = min 1 rest.length := by
    have := List.length_pos_iff.mpr some
    rw [List.length_append]
    omega
  cases verdict with
  | newline => exact .inl ⟨rfl,Text.solidDrop (untaggedBlank judged rfl) solid⟩
  | skipped => exact .inl ⟨single,Text.solidDrop (untaggedBlank judged rfl) solid⟩
  | comment => exact .inr ⟨rfl,rfl⟩
  | ruled rule n =>
    have fits := (Rule.lengthBounds (ruledJudged judged).2).2
    rw [width, width, List.drop_append_of_le_length fits]
    by_cases last : Blank (rest.drop n)
    · refine .inr ⟨?_,?_⟩
      · rw [Text.indentBlank last, List.length_drop]
        omega
      · rw [Text.indentBlank (Text.blankAppend last blank), List.length_append, List.length_append, List.length_drop]
        omega
    · refine .inl ⟨by rw [Text.indentTrailing last],?_⟩
      rw [← List.drop_drop]
      refine Text.solidDrop ?_ last
      rw [Text.indent, Text.spanTake]
      exact fun c member => List.mem_takeWhile_imp member

end Verdict

namespace Lexeme

def trimmed (l : Lexeme) : Lexeme := {l with text := Text.trimEnd l.text}

theorem scanTrailing (table : List Rule) (head start : Nat) (before : Flags) (blank : Blank gap) {rest : Text}
    (solid : ¬ Blank rest) : (scan table head start (rest ++ gap) before).map trimmed =
      (scan table head start rest before).map trimmed := by
  fun_induction scan table head start rest before with
  | case1 => exact absurd (List.forall_mem_nil _) solid
  | case2 start rest before ahead verdict width ih =>
    have judged : Verdict.judge table (start == head) before (rest ++ gap) = verdict :=
      Verdict.judgedAlike fun p _ => Pattern.lengthTrailing blank ahead p
    rw [scanStep (List.append_ne_nil_of_left_ne_nil ahead gap) judged]
    rcases Verdict.widthTrailing rfl blank solid with ⟨same,later⟩ | ⟨whole,further⟩
    · have fits := Verdict.widthWithin table (start == head) before rest
      rw [same, List.take_append_of_le_length fits, List.drop_append_of_le_length fits, List.map_cons, List.map_cons,
        ih later]
    -- The last unit is the same but for its blanks, and nothing is left to be read after it.
    · have whole : width = rest.length := whole
      have cut : trimmed ⟨start,verdict,rest ++ gap⟩ = trimmed ⟨start,verdict,rest⟩ := by
        rw [trimmed, trimmed, Text.trimEndAppend rest blank]
      rw [further, whole, List.take_length, List.drop_length, List.take_length, List.drop_length, scanNil, scanNil,
        List.map_cons, List.map_cons, cut]

theorem drawingTrimmed (number : Int) (before : Flags) (ls : List Lexeme) :
    drawing number before (ls.map trimmed) = drawing number before ls := by
  have token (l : Lexeme) : l.trimmed.token? number = l.token? number := by
    have again : Text.trimEnd (Text.trimEnd l.text) = Text.trimEnd l.text :=
      List.rdropWhile_idempotent Text.isBlank l.text
    rw [token?, token?, trimmed, again]
  simp only [drawing, List.filterMap_map, Function.comp_def, token, after, List.getLast?_map, Option.map_map]
  rfl

end Lexeme

theorem trailingBlanksIgnored (tab : TabSize) (number : Int) (before : Flags) {line : Text}
    (solid : ∃ c ∈ line, Text.isBlank c = false) (blank : Blank gap) :
    Drawing.ofLine (.ok tab) number (line ++ gap) before = Drawing.ofLine (.ok tab) number line before := by
  have filled : ¬ Blank line := by
    obtain ⟨c,member,clear⟩ := solid
    intro blank
    cases clear.symm.trans (blank c member)
  have drawn (line : Text) : Drawing.ofLine (.ok tab) number line before =
      Lexeme.drawing number before ((Lexeme.ofLine Rule.table line before).map Lexeme.trimmed) :=
    (drawLineLexemes Rule.table tab number line before).trans (Lexeme.drawingTrimmed _ _ _).symm
  rw [drawn, drawn, Lexeme.ofLine, Lexeme.ofLine, Text.indentTrailing filled]
  exact congrArg _ (Lexeme.scanTrailing Rule.table _ 0 before blank filled)

theorem trailingBlanksAfterBranch :
    let line := "\tBRA".toList
    let gap := " \u2003\n\u00a0".toList
    let drawing := Drawing.ofLine (.ok .standard) 1 (line ++ gap) .clear
    Blank gap ∧ drawing = Drawing.ofLine (.ok .standard) 1 line .clear ∧ drawing.flags = {linkable := true} := by
  intro line gap drawing
  have blank : Blank gap := List.all_eq_true.mp rfl
  have same : drawing = Drawing.ofLine (.ok .standard) 1 line .clear :=
    trailingBlanksIgnored .standard 1 .clear ⟨'B',by decide,rfl⟩ blank
  exact ⟨blank,same,by rw [same]; decide +kernel⟩

end LittleMan
