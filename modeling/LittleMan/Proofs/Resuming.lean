import LittleMan.Proofs.Lexemes
import LittleMan.Proofs.LineBreaks

/-! Reading a document from the middle. A line feed cuts it in two, and what is read after it depends only on
the flags before it. So with the flags kept at the end of a line, the rest of a document can be read again
alone, and its tokens are those of the whole as many lines further up. -/
namespace LittleMan
namespace Text

theorem linesCarriage {c : Char} (t : Text) (single : c ≠ '\n') : lines ('\r' :: c :: t) = [] :: lines (c :: t) :=
  lines.eq_3 (c :: t) fun _ same => single (List.cons.inj same).1

theorem linesCut (first second : Text) :
    lines (first ++ '\n' :: second) = lines (first ++ ['\n']) ++ lines second := by
  induction first using lines.induct with
  | case1 => rfl
  | case2 rest ih => simp only [List.cons_append, lines, ih]
  -- A carriage return at the end of the first part makes one line break with the line feed, which is over before
  -- the second part begins.
  | case3 rest single ih =>
    cases rest with
    | nil => rfl
    | cons c rest =>
      have single : c ≠ '\n' := fun feed => single rest (feed ▸ rfl)
      simp only [List.cons_append, linesCarriage _ single] at ih ⊢
      rw [ih]
  | case4 rest ih => simp only [List.cons_append, lines, ih]
  | case5 c rest _ carriage feed _ ih | case6 c rest _ carriage feed _ _ _ ih =>
    rw [List.cons_append, linesStep carriage feed, ih, List.cons_append, linesStep carriage feed]
    cases ended : lines (rest ++ ['\n']) with
    | nil => cases (List.append_eq_nil_iff.mp (linesEmpty ended)).2
    | cons line more => rfl

theorem linesEnded (t : Text) : lines (t ++ ['\n']) = lines t ∨ lines (t ++ ['\n']) = lines t ++ [[]] := by
  induction t using lines.induct with
  | case1 => exact .inr rfl
  | case2 rest ih => simpa only [List.cons_append, lines, List.cons.injEq, true_and] using ih
  | case3 rest single ih =>
    cases rest with
    | nil => exact .inl rfl
    | cons c rest =>
      have single : c ≠ '\n' := fun feed => single rest (feed ▸ rfl)
      simpa only [List.cons_append, linesCarriage _ single, List.cons.injEq, true_and] using ih
  | case4 rest ih => simpa only [List.cons_append, lines, List.cons.injEq, true_and] using ih
  | case5 c rest _ carriage feed nothing _ =>
    cases linesEmpty nothing
    exact .inl (by rw [List.singleton_append, linesStep carriage feed, linesStep carriage feed]; rfl)
  | case6 c rest _ carriage feed line more some ih =>
    rw [List.cons_append, linesStep carriage feed, linesStep carriage feed, some]
    rw [some] at ih
    rcases ih with same | further
    · exact .inl (by rw [same])
    · exact .inr (by rw [further]; rfl)

end Text

def Token.below (above : Nat) (t : Token) : Token := {t with line := t.line + above}

namespace Drawing

def below (above : Nat) (d : Drawing) : Drawing :=
  {d with drawn := d.drawn.map fun (token,flags) => (token.below above,flags)}

theorem andThenNone (d : Drawing) : d.andThen .none = d := by
  obtain ⟨drawn,flags,fault⟩ := d
  cases fault with
  | none => simp only [andThen, none, List.append_nil]
  | some e => rfl

theorem andThenAssoc (d : Drawing) (next more : Flags → Drawing) :
    (d.andThen next).andThen more = d.andThen fun flags => (next flags).andThen more := by
  obtain ⟨drawn,flags,fault⟩ := d
  cases fault with
  | some e => rfl
  | none =>
    cases failed : (next flags).fault with
    | some e => simp only [andThen, failed]
    | none => simp only [andThen, failed, List.append_assoc]

theorem belowAndThen (above : Nat) (d : Drawing) (next : Flags → Drawing) :
    (d.andThen next).below above = (d.below above).andThen fun flags => (next flags).below above := by
  obtain ⟨drawn,flags,fault⟩ := d
  cases fault with
  | some e => rfl
  | none => simp only [andThen, below, List.map_append]

theorem belowTokens (above : Nat) (d : Drawing) : (d.below above).tokens = d.tokens.map (·.below above) := by
  simp only [tokens, below, List.map_map]
  rfl

end Drawing

theorem Reading.tokenBelow (number : Int) (above : Nat) (r : Reading) :
    r.token? (number + above) = (r.token? number).map (·.below above) := by
  rw [token?, token?]
  split <;> rfl

theorem drawLineBelow (table : List Rule) (tab : TabSize) (number : Int) (above : Nat) (line : Text) (before : Flags) :
    drawLineWith table tab (number + above) line before = (drawLineWith table tab number line before).below above := by
  simp only [drawLineWith, Drawing.ofReadings, Drawing.below, List.map_filterMap, Reading.tokenBelow, Option.map_map]
  rfl

variable {table : List Rule} {tabAt : Nat → Except Failure TabSize}

theorem drawLinesAppend (number : Nat) (first second : List Text) (before : Flags) :
    drawLinesWith table tabAt number (first ++ second) before =
      (drawLinesWith table tabAt number first before).andThen
        (drawLinesWith table tabAt (number + first.length) second) := by
  induction first generalizing number before with
  | nil => rfl
  | cons line first ih =>
    have further : number + 1 + first.length = number + (line :: first).length := by
      rw [List.length_cons]
      omega
    cases line with
    | nil =>
      rw [List.cons_append, drawLinesWith, ih, further]
      rfl
    | cons c line =>
      -- Nothing is drawn after a failure, and no other line is asked for its tab size.
      cases asked : tabAt number with
      | error e => simp only [List.cons_append, drawLinesWith, asked, Drawing.andThen]
      | ok tab =>
        have later : drawLinesWith table tabAt (number + 1) (first ++ second) = _ := funext (ih (number + 1))
        simp only [List.cons_append, drawLinesWith, asked, Drawing.andThenAssoc, later, further]

theorem drawLinesBelow (number above : Nat) (lines : List Text) (before : Flags) :
    drawLinesWith table tabAt (number + above) lines before =
      (drawLinesWith table (fun number => tabAt (number + above)) number lines before).below above := by
  induction lines generalizing number before with
  | nil => rfl
  | cons line lines ih =>
    have further : number + above + 1 = number + 1 + above := by omega
    cases line with
    | nil => rw [drawLinesWith, further, ih, drawLinesWith]
    | cons c line =>
      have later := funext (ih (number + 1))
      cases asked : tabAt (number + above) with
      | error e => simp only [drawLinesWith, asked, Drawing.below, List.map_nil]
      | ok tab =>
        simp only [drawLinesWith, asked, further, later, Drawing.belowAndThen, Int.natCast_add, drawLineBelow]

theorem drawLinesEnded (number : Nat) (text : Text) (before : Flags) :
    drawLinesWith table tabAt number (Text.lines (text ++ ['\n'])) before =
      drawLinesWith table tabAt number (Text.lines text) before := by
  rcases Text.linesEnded text with same | further
  · rw [same]
  · rw [further, drawLinesAppend]
    exact Drawing.andThenNone _

theorem drawTextCut (tab : Except Failure TabSize) (first second : Text) (before : Flags) :
    Drawing.ofText tab (first ++ '\n' :: second) before = (Drawing.ofText tab first before).andThen fun flags =>
      (Drawing.ofText tab second flags).below (Text.lines (first ++ ['\n'])).length := by
  rw [Drawing.ofText, drawLines, Text.linesCut, drawLinesAppend, drawLinesEnded]
  congr 1
  funext flags
  exact drawLinesBelow 1 _ _ flags

theorem drawingResumed (tab : TabSize) (first second : Text) (before : Flags) :
    let draw := Drawing.ofText (.ok tab)
    let above := Text.lines (first ++ ['\n'])
    let whole := draw (first ++ '\n' :: second) before
    let rest := draw second (draw first before).flags
    Text.lines (first ++ '\n' :: second) = above ++ Text.lines second ∧
      whole.tokens = (draw first before).tokens ++ rest.tokens.map (·.below above.length) ∧
      whole.drawn = (draw first before).drawn ++ (rest.below above.length).drawn ∧
      whole.flags = rest.flags ∧
      (draw first before).fault = none ∧ rest.fault = none ∧ whole.fault = none := by
  intro draw above whole rest
  have sound : (draw first before).fault = none := drawTextSound tab first before
  have cut : whole = {rest.below above.length with
      drawn := (draw first before).drawn ++ (rest.below above.length).drawn} := by
    show Drawing.ofText (.ok tab) (first ++ '\n' :: second) before = _
    rw [drawTextCut, Drawing.andThen, sound]
  refine ⟨Text.linesCut first second,?_,?_,?_,sound,drawTextSound tab second _,drawTextSound tab _ before⟩
  · rw [cut, ← Drawing.belowTokens]
    exact List.map_append
  · rw [cut]
  · rw [cut]
    rfl

end LittleMan
