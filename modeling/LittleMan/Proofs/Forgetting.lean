import LittleMan.Proofs.Recognition
import LittleMan.Proofs.Resuming

/-! Where what was remembered is forgotten. Flags are asked for only by a word or by digits, and keywords come before
both. So a line that begins with anything but a word of its own is read in one way, whatever came before it, and so is
all that follows it. -/
namespace LittleMan
open Text (Ends)

def Text.StartsAfresh (line : Text) : Prop :=
  Ends isWord line ∨ ∃ k : Keyword, k.spelling <+: line.map foldCase

open Text (StartsAfresh)
variable {line : Text}

theorem Verdict.judgeForgets (afresh : StartsAfresh line) (atStart : Bool) (before other : Flags) :
    judge Rule.table atStart before line = judge Rule.table atStart other line := by
  rcases afresh with dark | ⟨k,spelled⟩
  · rw [judge, judge, firstRuleMissed dark, firstRuleMissed dark]
  · rw [judgeKeyword (Keyword.atExact.mpr spelled), judgeKeyword (Keyword.atExact.mpr spelled)]

theorem drawLineForgets (tab : TabSize) (number : Int) (filled : line ≠ []) (afresh : StartsAfresh line)
    (before other : Flags) :
    drawLineWith Rule.table tab number line before = drawLineWith Rule.table tab number line other := by
  have judged := Verdict.judgeForgets afresh (0 == Text.indent line) before other
  -- After the first unit the flags are its own, so its verdict is all that could differ.
  rw [drawLineLexemes, drawLineLexemes, Lexeme.ofLine, Lexeme.ofLine, Lexeme.scanStep filled judged,
    Lexeme.scanStep filled rfl, Lexeme.drawing, Lexeme.drawing, Lexeme.afterCons, Lexeme.afterCons]

theorem drawLinesForget {tabAt : Nat → Except Failure TabSize} (given : ∀ number, ∃ tab, tabAt number = .ok tab)
    {lines : List Text} (first : lines.find? (· ≠ []) = some line) (afresh : StartsAfresh line) (number : Nat)
    (before other : Flags) :
    drawLinesWith Rule.table tabAt number lines before = drawLinesWith Rule.table tabAt number lines other := by
  induction lines generalizing number with
  | nil => contradiction
  | cons head more ih =>
    cases head with
    | nil => exact ih first (number + 1)
    | cons c rest =>
      cases Option.some.inj first
      obtain ⟨tab,asked⟩ := given number
      simp only [drawLinesWith, asked]
      rw [drawLineForgets tab number (List.cons_ne_nil c rest) afresh before other]

theorem flagsForgotten (tab : TabSize) (filled : line ≠ []) (afresh : StartsAfresh line) :
    (∀ (number : Int) (before other : Flags),
      Drawing.ofLine (.ok tab) number line before = Drawing.ofLine (.ok tab) number line other) ∧
    ∀ (earlier text : Text) (before : Flags), (Text.lines text).find? (· ≠ []) = some line →
      let whole := Drawing.ofText (.ok tab) (earlier ++ '\n' :: text) before
      let fresh := Drawing.ofText (.ok tab) text .clear
      whole.tokens = (Drawing.ofText (.ok tab) earlier before).tokens ++
          fresh.tokens.map (·.below (Text.lines (earlier ++ ['\n'])).length) ∧
        whole.flags = fresh.flags := by
  refine ⟨fun number => drawLineForgets tab number filled afresh,fun earlier text before first => ?_⟩
  intro whole fresh
  have sound : (Drawing.ofText (.ok tab) earlier before).fault = none := drawTextSound tab earlier before
  have resumed : Drawing.ofText (.ok tab) text (Drawing.ofText (.ok tab) earlier before).flags = fresh :=
    drawLinesForget (fun _ => ⟨tab,rfl⟩) first afresh 1 _ .clear
  have cut : whole = _ := drawTextCut (.ok tab) earlier text before
  rw [cut, Drawing.andThen, sound]
  simp only [resumed]
  refine ⟨?_,rfl⟩
  rw [← Drawing.belowTokens]
  exact List.map_append

theorem flagsForgottenGlued :
    let line := "daTy 5".toList
    let whole := Drawing.ofText (.ok .standard) "\tBRA\n\ndaTy 5".toList .clear
    StartsAfresh line ∧
      Drawing.ofLine (.ok .standard) 1 line ⟨true,true,true⟩ = Drawing.ofLine (.ok .standard) 1 line .clear ∧
      whole.flags = (Drawing.ofText (.ok .standard) "\ndaTy 5".toList .clear).flags := by
  intro line whole
  have afresh : StartsAfresh line := .inr ⟨.dat,by decide⟩
  obtain ⟨alone,later⟩ := flagsForgotten .standard (List.cons_ne_nil _ _) afresh
  exact ⟨afresh,alone 1 ⟨true,true,true⟩ .clear,(later "\tBRA".toList "\ndaTy 5".toList .clear rfl).2⟩

example :
    let read (before : Flags) := (Drawing.ofLine (.ok .standard) 1 "DONE".toList before).tokens.map Token.tag
    read {linkable := true} = [.link] ∧ read .clear = [.comment] := by decide +kernel

end LittleMan
