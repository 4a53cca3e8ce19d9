import LittleMan.Settings
import LittleMan.Proofs.Lexemes
import LittleMan.Proofs.LineBreaks

/-! Tab sizes and the drawing of tokens. The test for the start of a statement compares columns, but
columns grow strictly, so no width changes its outcome: whatever tab size each line is read under,
the same tokens are drawn with the same flags after each of them. A tab size that is none is refused
by the first line with anything on it, and before that line is read; empty lines never ask. -/
namespace LittleMan

theorem settingsLeaveDrawing {given other : Value} {settingsAt otherAt : Nat → Settings}
    (valid : ∀ number, ∃ tab, (settingsAt number).tabFor given = .ok tab)
    (otherValid : ∀ number, ∃ tab, (otherAt number).tabFor other = .ok tab)
    (text : Text) (before : Flags) :
    drawLines (fun number => (settingsAt number).tabFor given) 1 (Text.lines text) before =
      drawLines (fun number => (otherAt number).tabFor other) 1 (Text.lines text) before := by
  rw [drawLines, drawLines, drawLinesLexemes valid, drawLinesLexemes otherValid]

theorem settingsLeaveDrawingAlternating :
    let wide : Settings := ⟨⟨.int 8,8,by decide⟩,.text [],.text []⟩
    let text := "\tLOOP LDA X\n \tCOUNT\tDAT 5".toList
    drawLines (fun number => (if number = 1 then wide else .standard).tabFor .null) 1 (Text.lines text)
        .clear =
      Drawing.ofText (Settings.standard.tabFor (.int 1)) text .clear :=
  settingsLeaveDrawing (fun number => by split <;> exact ⟨_,rfl⟩) (fun _ => ⟨_,rfl⟩) _ _

inductive Value.IsInteger : Value → Int → Prop where
  | int (n : Int) : IsInteger (.int n) n
  | bool (b : Bool) : IsInteger (.bool b) (if b then 1 else 0)

theorem Settings.tabForInteger (settings : Settings) {given : Value} {n : Int} (integer : given.IsInteger n) :
    settings.tabFor given = if positive : 0 < n then .ok ⟨given,n,positive⟩ else .error (.tabSize given) := by
  cases integer with
  | int n => rfl
  | bool b => cases b <;> rfl

theorem drawLinesRefused {table : List Rule} {tabAt : Nat → Except Failure TabSize} {e : Failure}
    (refused : ∀ number, tabAt number = .error e) (number : Nat) (lines : List Text) (before : Flags) :
    drawLinesWith table tabAt number lines before = ⟨[],before,if lines.flatten = [] then none else some e⟩ := by
  -- An empty line is passed over, and any other one is where the drawing ends.
  induction lines generalizing number with
  | nil => rfl
  | cons line more ih =>
    cases line with
    | nil => rw [drawLinesWith, ih, List.flatten_cons, List.nil_append]
    | cons c line =>
      rw [drawLinesWith, refused]
      · rfl
      · exact List.cons_ne_nil c line

theorem invalidTabRejected (settings : Settings) {given : Value} {n : Int} (integer : given.IsInteger n)
    (text : Text) (before : Flags) :
    let drawing := Drawing.ofText (settings.tabFor given) text before
    (drawing.fault = some (.tabSize given) ↔ n < 1 ∧ ∃ c ∈ text, c ≠ '\r' ∧ c ≠ '\n') ∧
      ∀ failure, drawing.fault = some failure →
        failure = .tabSize given ∧ drawing.drawn = [] ∧ drawing.flags = before := by
  intro drawing
  have asked := settings.tabForInteger integer
  by_cases positive : 0 < n
  · -- The tab size is taken, and after that nothing can fail.
    have sound : drawing.fault = none := by
      simp only [drawing, asked, dif_pos positive]
      exact drawTextSound _ text before
    rw [sound]
    exact ⟨⟨nofun,fun invalid => by omega⟩,nofun⟩
  · have refused : drawing =
        ⟨[],before,if (Text.lines text).flatten = [] then none else some (.tabSize given)⟩ := by
      simp only [drawing, asked, dif_neg positive]
      exact drawLinesRefused (fun _ => rfl) 1 (Text.lines text) before
    rw [refused]
    by_cases empty : (Text.lines text).flatten = []
    · rw [if_pos empty]
      exact ⟨⟨nofun,fun invalid => absurd empty (Text.linesFilled.mpr invalid.2)⟩,nofun⟩
    · rw [if_neg empty]
      refine ⟨⟨fun _ => ⟨by omega,Text.linesFilled.mp empty⟩,fun _ => rfl⟩,fun failure failed => ?_⟩
      exact ⟨(Option.some.inj failed).symm,rfl,rfl⟩

theorem invalidTabRejectedPastEmptyLines :
    let text := "\n\r\n\u2028\nLOOP LDA X".toList
    let before : Flags := {linkable := true}
    let drawing := Drawing.ofText (Settings.standard.tabFor (.bool false)) text before
    drawing.fault = some (.tabSize (.bool false)) ∧ drawing.drawn = [] ∧ drawing.flags = before := by
  intro text before drawing
  obtain ⟨raises,unmoved⟩ := invalidTabRejected .standard (.bool false) text before
  have raised : drawing.fault = some (.tabSize (.bool false)) := raises.mpr ⟨by decide,'L',by decide,by decide⟩
  exact ⟨raised,(unmoved _ raised).2⟩

end LittleMan
