import LittleMan.Mode.Run
import LittleMan.Markup.Program
import LittleMan.Proofs.Lexemes

/-! A host that drives the lexer and the renderer of programs go over the lines each in its own way.
Both meet the units of `Lexeme.scan` and no others, and neither is ever refused. -/
namespace LittleMan

def Lexeme.call (l : Lexeme) : Int × Mode.Move Flags :=
  (l.start,⟨l.verdict.tag?,(l.start + l.text.length : Nat),l.verdict.flags⟩)

namespace Mode

def readMove (before : Flags) (c : Cursor) : Except Failure (Move Flags) :=
  (c.read before).answer.map fun tag => ⟨tag,(c.read before).cursor.pos,(c.read before).flags⟩

theorem lexerCall : lexer.token.call lexer.kind tokenName = .ok readMove := rfl

theorem traceLexer {kind : Text} {tab : TabSize} {line : Text} {pos : Nat} {before : Flags}
    (bound : pos ≤ line.length) :
    trace kind readMove tab line pos before =
      ⟨(Lexeme.scan Rule.table (Text.indent line) pos (line.drop pos) before).map Lexeme.call,
        .ok (Lexeme.after before
          (Lexeme.scan Rule.table (Text.indent line) pos (line.drop pos) before))⟩ := by
  induction left : line.length - pos using Nat.strongRecOn generalizing pos before with
  | ind left ih =>
    by_cases done : pos = line.length
    · have ended : (line.length : Int) ≤ pos := by omega
      rw [trace, if_pos ended, done, List.drop_length, Lexeme.scanNil, List.map_nil, Lexeme.afterNil]
    · have inside : pos < line.length := by omega
      have unended : ¬ (line.length : Int) ≤ pos := by omega
      generalize judged :
        Verdict.judge Rule.table (pos == Text.indent line) before (line.drop pos) = verdict
      obtain ⟨ahead,some,fits,taken⟩ := Verdict.unitInside inside judged
      have reads : Cursor.read ⟨line,pos,pos,tab⟩ before = _ :=
        Cursor.readInside (c := ⟨line,pos,pos,tab⟩) rfl inside judged
      have forward : ¬ ((pos + verdict.width (line.drop pos) : Nat) : Int) ≤ pos := by omega
      have later := @ih (line.length - (pos + verdict.width (line.drop pos))) (by omega)
        (pos + verdict.width (line.drop pos)) verdict.flags (by omega) rfl
      rw [trace, if_neg unended, readMove, reads, Lexeme.scanStep ahead judged, Lexeme.afterCons,
        List.drop_drop]
      simp only [Except.map, if_neg forward, later, List.map_cons, Lexeme.call, taken]

theorem tokensLexer {line : Text} {number : Nat} {outcome : Except Failure Flags} (before : Flags) :
    Trace.tokens ⟨(Lexeme.ofLine Rule.table line before).map Lexeme.call,outcome⟩ number line =
      (Lexeme.ofLine Rule.table line before).filterMap (Lexeme.token? number) := by
  rw [Trace.tokens, List.filterMap_map]
  apply List.filterMap_congr
  intro l member
  obtain ⟨skipped,place,text,fits,_⟩ := Lexeme.scanPlaced member
  rw [Nat.zero_add] at place
  subst place
  have cut : Text.between line l.start (l.start + l.text.length : Nat) = l.text :=
    (Text.betweenAdd fits).trans text.symm
  simp only [Function.comp, Move.token?, Lexeme.call, Lexeme.token?, cut]

theorem runLinesEmpty (m : Mode) (tab : TabSize) (number : Nat) (more : List Text) (state : m.State) :
    runLines m tab number ([] :: more) state =
      runLines m tab (number + 1) more (m.emptyLine.elim state (· state)) := by
  rw [runLines]

theorem runLinesFilled {m : Mode} {tab : TabSize} {number : Nat} {line : Text} {more : List Text}
    {state : m.State} {token : m.State → Cursor → Except Failure (Move m.State)}
    {calls : List (Int × Move m.State)} {after : m.State} (filled : line ≠ [])
    (called : m.token.call m.kind tokenName = .ok token)
    (traced : trace m.kind token tab line 0 state = ⟨calls,.ok after⟩) :
    runLines m tab number (line :: more) state =
      (runLines m tab (number + 1) more after).map
        ((⟨calls,.ok after⟩ : Trace m.State).tokens number line ++ ·) := by
  rw [runLines]
  · simp only [called, traced]
    cases runLines m tab (number + 1) more after <;> rfl
  · exact filled

theorem runLinesLexer (tab : TabSize) (number : Nat) (lines : List Text) (before : Flags) :
    runLines lexer tab number lines before =
      .ok (Lexeme.drawingLines Rule.table number lines before).tokens := by
  induction lines generalizing number before with
  | nil => rfl
  | cons line more ih =>
    rw [Lexeme.drawingLinesTokens]
    cases line with
    | nil =>
      rw [Lexeme.ofLine, Lexeme.scanNil]
      exact (runLinesEmpty lexer tab number more before).trans (ih (number + 1) before)
    | cons c line =>
      have traced := @traceLexer lexer.kind tab (c :: line) 0 before (Nat.zero_le _)
      have driven : runLines lexer tab number ((c :: line) :: more) before = _ :=
        runLinesFilled (List.cons_ne_nil c line) lexerCall traced
      have later := ih (number + 1) (Lexeme.after before (Lexeme.ofLine Rule.table (c :: line) before))
      refine driven.trans ((congrArg (Except.map _) later).trans ?_)
      exact congrArg (fun ts => Except.ok (ts ++ _)) (tokensLexer before)

theorem runLexer (tab : TabSize) (text : Text) :
    run lexer tab text =
      .ok (Lexeme.drawingLines Rule.table 1 (Text.lines text) .clear).tokens :=
  runLinesLexer tab 1 (Text.lines text) .clear

end Mode

namespace Markup

def lexedPieces : (number : Nat) → List Text → Flags → List Piece
  | _, [], _ => []
  | number, line :: more, before =>
    let ls := Lexeme.ofLine Rule.table line before
    ⟨number,line,ls.filterMap (Lexeme.token? number)⟩ ::
      lexedPieces (number + 1) more (Lexeme.after before ls)

theorem piecesLexed (tab : TabSize) (number : Nat) (lines : List Text) (before : Flags) :
    pieces tab number lines before = .ok (lexedPieces number lines before) := by
  induction lines generalizing number before with
  | nil => rfl
  | cons line more ih =>
    rw [pieces, drawLine, drawLineLexemes, lexedPieces, Lexeme.drawingTokens]
    simp only [Lexeme.drawing, ih]

theorem programLexed (settings : Settings) (options : Options) (code : Text) :
    program settings options code = .ok (wrap settings (Text.joinWith ['\n']
      ((lexedPieces 1 (Text.lines code) .clear).map (renderPiece settings options)))) := by
  rw [program, piecesLexed]
  rfl

theorem lexedPiecesLines {α : Type} (f : Nat → Text → α) (number : Nat) (lines : List Text) (before : Flags) :
    (lexedPieces number lines before).map (fun p => f p.number p.line) =
      lines.mapIdx fun index line => f (number + index) line := by
  induction lines generalizing number before with
  | nil => rfl
  | cons line more ih =>
    rw [lexedPieces, List.map_cons, ih, List.mapIdx_cons]
    simp only [Nat.add_zero, Nat.add_assoc, Nat.add_comm 1]

theorem lexedPiecesTokens (number : Nat) (lines : List Text) (before : Flags) :
    (lexedPieces number lines before).flatMap (·.tokens) =
      (Lexeme.drawingLines Rule.table number lines before).tokens := by
  induction lines generalizing number before with
  | nil => rfl
  | cons line more ih => rw [lexedPieces, List.flatMap_cons, ih, Lexeme.drawingLinesTokens]

end Markup

theorem driversAgree (settings : Settings) (text : Text) :
    let drawing := Drawing.ofText (settings.tabFor .null) text .clear
    drawing.fault = none ∧ Mode.lexer.run settings.tab text = .ok drawing.tokens ∧
    ∃ pieces, Markup.pieces settings.tab 1 (Text.lines text) .clear = .ok pieces ∧
      pieces.map (fun p => (p.number,p.line)) = (Text.lines text).mapIdx (fun index line => (index + 1,line)) ∧
      pieces.flatMap (·.tokens) = drawing.tokens ∧
      ∀ options : Markup.Options, Markup.renderProgram settings options text =
        (Markup.requireKeys options.emphasised).map fun _ =>
          Markup.wrap settings (Text.joinWith ['\n'] (pieces.map (Markup.renderPiece settings options))) := by
  intro drawing
  have drawn : drawing = Lexeme.drawingLines Rule.table 1 (Text.lines text) .clear :=
    drawTextLexemes settings.tab text .clear
  rw [drawn]
  refine ⟨Lexeme.drawingLinesSound _ _ _ _,Mode.runLexer settings.tab text,_,
    Markup.piecesLexed settings.tab 1 (Text.lines text) .clear,?_,Markup.lexedPiecesTokens _ _ _,?_⟩
  · rw [Markup.lexedPiecesLines Prod.mk]
    simp only [Nat.add_comm]
  · intro options
    rw [Markup.renderProgram, Markup.programLexed]
    cases Markup.requireKeys options.emphasised <;> rfl

end LittleMan
