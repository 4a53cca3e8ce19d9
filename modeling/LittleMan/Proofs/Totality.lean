import LittleMan.Proofs.Drivers

/-! Reading never stops short. Every reading inside a line takes something and stays in the line, so a
line is read to its end in at most as many readings as it has characters, and whoever reads lines,
whole texts, or programs to be marked up, comes to the end without a failure. -/
namespace LittleMan

namespace Lexeme
variable {table : List Rule} {head start : Nat} {rest : Text} {before : Flags}

theorem scanBound : (scan table head start rest before).length ≤ rest.length := by
  fun_induction scan table head start rest before with
  | case1 => exact Nat.le_refl _
  | case2 start rest before ahead verdict width ih =>
    have bounds : 0 < width ∧ width ≤ rest.length := Verdict.widthBounds table _ before ahead
    rw [List.length_drop] at ih
    rw [List.length_cons]
    omega

theorem scanEnds {l : Lexeme} (last : (scan table head start rest before).getLast? = some l) :
    l.start + l.text.length = start + rest.length := by
  fun_induction scan table head start rest before with
  | case1 => contradiction
  | case2 start rest before ahead verdict width ih =>
    have bounds : 0 < width ∧ width ≤ rest.length := Verdict.widthBounds table _ before ahead
    rw [List.length_drop] at ih
    rw [List.getLast?_cons] at last
    cases later : (scan table head (start + width) (rest.drop width) verdict.flags).getLast? with
    | none =>
      have stopped : rest.drop width = [] := by
        by_contra more
        rw [List.getLast?_eq_none_iff, scanStep more rfl] at later
        contradiction
      rw [later] at last
      cases Option.some.inj last
      rw [List.drop_eq_nil_iff] at stopped
      simp only [Option.getD_none, List.length_take]
      omega
    | some deeper =>
      rw [later, Option.getD_some] at last
      cases Option.some.inj last
      have ends := ih later
      omega

end Lexeme

namespace Cursor

theorem readAdvances {c : Cursor} {before : Flags} (inLine : 0 ≤ c.pos) (inside : c.pos < c.text.length) :
    ∃ tag, (c.read before).answer = .ok tag ∧ c.pos < (c.read before).cursor.pos ∧
      (c.read before).cursor.pos ≤ c.text.length := by
  obtain ⟨pos,there⟩ := Int.eq_ofNat_of_zero_le inLine
  have short : pos < c.text.length := by omega
  generalize judged :
    Verdict.judge Rule.table (pos == Text.indent c.text) before (c.text.drop pos) = verdict
  obtain ⟨_,some,fits,_⟩ := Verdict.unitInside short judged
  have reads : c.read before = _ := readInside there short judged
  rw [reads]
  exact ⟨verdict.tag?,rfl,by dsimp only; omega,by dsimp only; omega⟩

def stop (c : Cursor) (readings : List Reading) : Cursor :=
  (readings.getLast?.map (·.cursor)).getD c

theorem readingsLine (tab : TabSize) (line : Text) (before : Flags) :
    (ofLine tab line).readings before =
      (Lexeme.ofLine Rule.table line before).map (Lexeme.reading tab line) :=
  readingsInside (c := ofLine tab line) rfl (Nat.zero_le _)

theorem readingsStop (tab : TabSize) (line : Text) (before : Flags) :
    ((ofLine tab line).stop ((ofLine tab line).readings before)).atEnd = true := by
  rw [stop, readingsLine, List.getLast?_map]
  cases last : (Lexeme.ofLine Rule.table line before).getLast? with
  | none =>
    have empty : line = [] := by
      by_contra more
      rw [List.getLast?_eq_none_iff, Lexeme.ofLine, Lexeme.scanStep more rfl] at last
      contradiction
    rw [empty]
    rfl
  | some l =>
    have ends : l.start + l.text.length = 0 + line.length := Lexeme.scanEnds last
    apply decide_eq_true
    simp only [Option.map_some, Option.getD_some, Lexeme.reading]
    omega

end Cursor

namespace Markup

theorem requireKeysMet {vs : List Value} (keys : ∀ v ∈ vs, v.isKey = true) : requireKeys vs = .ok () := by
  induction vs with
  | nil => rfl
  | cons v more ih =>
    have first := keys v List.mem_cons_self
    have others := ih fun w member => keys w (List.mem_cons_of_mem v member)
    rw [requireKeys, Value.requireKey, if_pos first, others]
    rfl

end Markup

theorem lexerAdvancesToTheEnd :
    (∀ (c : Cursor) (before : Flags), 0 ≤ c.pos → c.pos < c.text.length →
      ∃ tag, (c.read before).answer = .ok tag ∧ c.pos < (c.read before).cursor.pos ∧
        (c.read before).cursor.pos ≤ c.text.length) ∧
    (∀ (tab : TabSize) (number : Int) (line : Text) (before : Flags),
      let readings := (Cursor.ofLine tab line).readings before
      readings.length ≤ line.length ∧ (∀ r ∈ readings, ∃ tag, r.answer = .ok tag) ∧
        ((Cursor.ofLine tab line).stop readings).atEnd = true ∧
        (Drawing.ofLine (.ok tab) number line before).fault = none ∧
        Text.columns? tab.width line = some (Text.columns tab.width line)) ∧
    ∀ (settings : Settings) (text : Text) (before : Flags),
      (Drawing.ofText (settings.tabFor .null) text before).fault = none ∧
      (∃ tokens, Mode.lexer.run settings.tab text = .ok tokens) ∧
      ∀ options : Markup.Options, (∀ v ∈ options.emphasised, v.isKey = true) →
        ∃ html, Markup.renderProgram settings options text = .ok html := by
  refine ⟨fun c before => Cursor.readAdvances,?_,?_⟩
  · intro tab number line before readings
    have lexed : readings = _ := Cursor.readingsLine tab line before
    have positive := tab.positive
    refine ⟨?_,?_,Cursor.readingsStop tab line before,?_,?_⟩
    · rw [lexed, List.length_map]
      exact Lexeme.scanBound
    · intro r member
      rw [lexed] at member
      obtain ⟨l,_,same⟩ := List.mem_map.mp member
      exact ⟨l.verdict.tag?,by rw [← same]; rfl⟩
    · rw [Drawing.ofLine, drawLine, drawLineLexemes]
      rfl
    · have width : ¬ tab.width = 0 := by omega
      simp [Text.columns?, width]
  · intro settings text before
    refine ⟨?_,⟨_,Mode.runLexer settings.tab text⟩,?_⟩
    · have drawn : Drawing.ofText (settings.tabFor .null) text before = _ :=
        drawTextLexemes settings.tab text before
      rw [drawn]
      exact Lexeme.drawingLinesSound Rule.table 1 (Text.lines text) before
    · intro options keys
      rw [Markup.renderProgram, Markup.requireKeysMet keys, Markup.programLexed]
      exact ⟨_,rfl⟩

theorem lexerAdvancesOverSpace :
    let text := "\t\u2003LDA".toList
    let c : Cursor := ⟨text,1,0,.standard⟩
    let before : Flags := ⟨true,true,true⟩
    (∃ tag, (c.read before).answer = .ok tag ∧ c.pos < (c.read before).cursor.pos ∧
      (c.read before).cursor.pos ≤ c.text.length) ∧
    ∃ html, Markup.renderProgram .standard ⟨[.int 1,.text ['x']],true⟩ text = .ok html :=
  ⟨lexerAdvancesToTheEnd.1 _ _ (by decide) (by decide),
    (lexerAdvancesToTheEnd.2.2 .standard _ .clear).2.2 _ (by decide)⟩

end LittleMan
