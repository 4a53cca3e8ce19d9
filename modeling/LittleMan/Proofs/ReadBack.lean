import LittleMan.Proofs.Coverage
import LittleMan.Proofs.Totality

/-! Markup read back as text. A reader of rendered programs deletes the tags and then replaces the
entities; what is left is the program, line by line, with the line numbers if they were asked for.
Between tags only escaped texts stand, so no character of a program is taken for a tag or an entity. -/
namespace LittleMan

theorem Text.betweenParts (seen part more : Text) :
    between (seen ++ (part ++ more)) seen.length (seen.length + part.length : Nat) = part := by
  rw [betweenAdd (by simp only [List.length_append]; omega), List.drop_left, List.take_left]

theorem Text.joinStep (sep first second : Text) (more : List Text) :
    joinWith sep (first :: second :: more) = first ++ sep ++ joinWith sep (second :: more) := rfl

namespace Markup

/- A tag goes from an opening bracket to the next closing one, with something between them; a bracket
that begins no tag stays. -/
def withoutTags : Text → Text
  | [] => []
  | c :: rest =>
    if c = '<' ∧ rest.head? ≠ some '>' then
      match _closed : rest.dropWhile (· != '>') with
      | [] => c :: withoutTags rest
      | _ :: after => withoutTags after
    else c :: withoutTags rest
termination_by t => t.length
decreasing_by
  · exact Nat.lt_succ_self _
  · have shorter := (List.dropWhile_suffix (l := rest) (· != '>')).length_le
    rw [_closed, List.length_cons] at shorter
    exact Nat.lt_succ_of_lt shorter
  · exact Nat.lt_succ_self _

def withoutEntities : Text → Text
  | [] => []
  | '&' :: 'a' :: 'm' :: 'p' :: ';' :: rest => '&' :: withoutEntities rest
  | '&' :: 'l' :: 't' :: ';' :: rest => '<' :: withoutEntities rest
  | '&' :: 'g' :: 't' :: ';' :: rest => '>' :: withoutEntities rest
  | '&' :: 'q' :: 'u' :: 'o' :: 't' :: ';' :: rest => '"' :: withoutEntities rest
  | '&' :: '#' :: 'x' :: '2' :: '7' :: ';' :: rest => '\'' :: withoutEntities rest
  | c :: rest => c :: withoutEntities rest

section Entities

theorem entityFree {c : Char} (rest : Text) (plain : c ≠ '&') :
    withoutEntities (c :: rest) = c :: withoutEntities rest := by
  rw [withoutEntities]
  all_goals exact fun _ same _ => plain same

theorem entityRead (c : Char) (rest : Text) :
    withoutEntities (escapeChar c ++ rest) = c :: withoutEntities rest := by
  unfold escapeChar
  split_ifs with ampersand
  · subst c; rfl
  · subst c; rfl
  · subst c; rfl
  · subst c; rfl
  · subst c; rfl
  · exact entityFree rest ampersand

theorem entitiesRead (t : Text) : withoutEntities (escape t) = t := by
  induction t with
  | nil => rfl
  | cons c t ih => rw [escape, List.flatMap_cons, entityRead, ← escape, ih]

theorem escapeBrackets (t : Text) : '<' ∉ escape t ∧ '>' ∉ escape t := by
  have each (c : Char) : '<' ∉ escapeChar c ∧ '>' ∉ escapeChar c := by
    unfold escapeChar
    split_ifs with ampersand less greater
    · decide
    · decide
    · decide
    · decide
    · decide
    · exact ⟨fun opens => less (List.mem_singleton.mp opens).symm,
        fun closes => greater (List.mem_singleton.mp closes).symm⟩
  refine ⟨fun opens => ?_,fun closes => ?_⟩
  · obtain ⟨c,_,written⟩ := List.mem_flatMap.mp opens
    exact (each c).1 written
  · obtain ⟨c,_,written⟩ := List.mem_flatMap.mp closes
    exact (each c).2 written

theorem escapeAppend (t u : Text) : escape (t ++ u) = escape t ++ escape u := List.flatMap_append

theorem escapeDigits (n : Nat) : escape (Nat.toDigits 10 n) = Nat.toDigits 10 n := by
  have plain : ∀ c ∈ Nat.toDigits 10 n, escapeChar c = [c] := by
    intro c member
    have digit := Nat.isDigit_of_mem_toDigits (by decide) (by decide) member
    unfold escapeChar
    split_ifs <;> first | rfl | (subst c; contradiction)
  rw [escape, List.flatMap_congr plain, List.flatMap_singleton']

end Entities

section Tags
variable {t rest : Text}

theorem tagFree (plain : '<' ∉ t) : withoutTags (t ++ rest) = t ++ withoutTags rest := by
  induction t with
  | nil => rfl
  | cons c t ih =>
    rw [List.mem_cons, not_or] at plain
    have inText : ¬ (c = '<' ∧ (t ++ rest).head? ≠ some '>') := fun opens => plain.1 opens.1.symm
    rw [List.cons_append, withoutTags, if_neg inText, ih plain.2, List.cons_append]

theorem tagDeleted {tag : Text} (filled : tag ≠ []) (quiet : '>' ∉ tag) :
    withoutTags ('<' :: tag ++ '>' :: rest) = withoutTags rest := by
  have head : (tag ++ '>' :: rest).head? ≠ some '>' := by
    rw [List.head?_append_of_ne_nil _ filled]
    exact fun first => quiet (List.mem_of_head? first)
  have inside : ∀ c ∈ tag, (c != '>') = true := fun c member =>
    bne_iff_ne.mpr fun same => quiet (same ▸ member)
  have closed : (tag ++ '>' :: rest).dropWhile (· != '>') = '>' :: rest := by
    rw [List.dropWhile_append_of_pos inside, List.dropWhile_cons_of_neg (by decide)]
  rw [List.cons_append, withoutTags, if_pos ⟨rfl,head⟩]
  split
  · rename_i nothing
    rw [closed] at nothing
    contradiction
  · rename_i after found
    rw [closed] at found
    cases found
    rfl

end Tags

def Leaves (markup left : Text) : Prop := ∀ rest, withoutTags (markup ++ rest) = left ++ withoutTags rest

section Leaves
variable {markup other left more : Text}

theorem leavesEscaped (t : Text) : Leaves (escape t) (escape t) := fun _ => tagFree (escapeBrackets t).1

theorem leavesAppend (first : Leaves markup left) (second : Leaves other more) :
    Leaves (markup ++ other) (left ++ more) := by
  intro rest
  rw [List.append_assoc, first, second, List.append_assoc]

theorem leavesTag (tag : Text) (filled : tag ≠ []) (quiet : '>' ∉ tag) : Leaves ('<' :: tag ++ ['>']) [] := by
  intro rest
  rw [List.append_assoc]
  exact tagDeleted filled quiet

theorem leavesSpan (cls : Text) (closed : '>' ∉ cls) (inner : Leaves markup left) : Leaves (span cls markup) left := by
  have named : "<span class=\"".toList = '<' :: "span class=\"".toList := by decide
  have quoted : "\">".toList = ['"'] ++ ['>'] := by decide
  have opening : "<span class=\"".toList ++ cls ++ "\">".toList =
      '<' :: ("span class=\"".toList ++ cls ++ ['"']) ++ ['>'] := by
    refine (congrArg₂ (· ++ cls ++ ·) named quoted).trans ?_
    simp only [List.cons_append, List.append_assoc]
  have quiet : '>' ∉ "span class=\"".toList ++ cls ++ ['"'] := by
    rw [List.append_assoc, List.mem_append, List.mem_append, not_or, not_or]
    exact ⟨by decide,closed,by decide⟩
  have first := leavesTag _ (by simp) quiet
  have last : Leaves "</span>".toList [] := leavesTag "/span".toList (by decide) (by decide)
  rw [← opening] at first
  have whole := leavesAppend (leavesAppend first inner) last
  rw [List.nil_append, List.append_nil] at whole
  exact whole

theorem leavesJoined {α : Type} {f g : α → Text} {items : List α} (each : ∀ x ∈ items, Leaves (f x) (escape (g x))) :
    Leaves (Text.joinWith ['\n'] (items.map f)) (escape (Text.joinWith ['\n'] (items.map g))) := by
  induction items with
  | nil => exact fun _ => rfl
  | cons x items ih =>
    have first := each x List.mem_cons_self
    have others := ih fun y member => each y (List.mem_cons_of_mem x member)
    cases items with
    | nil => exact first
    | cons y items =>
      have feed : escape ['\n'] = ['\n'] := by decide
      have ended := leavesEscaped ['\n']
      rw [feed] at ended
      have joined := leavesAppend (leavesAppend first ended) others
      rw [List.map_cons, List.map_cons, List.map_cons, List.map_cons, Text.joinStep, Text.joinStep,
        escapeAppend, escapeAppend, feed]
      exact joined

end Leaves

theorem styleBrackets (tag : Tag) : '<' ∉ tag.style ∧ '>' ∉ tag.style := by cases tag <;> decide

theorem markFromLaid {classPrefix line text : Text} {number : Int} {start : Nat} {ts : List Token}
    {P : Text → List Token → Text → Prop} (rest : ∀ text, P text [] (escape text))
    (token : ∀ gap (t : Token) text more marked, P text more marked → P (gap ++ t.value ++ text) (t :: more)
      (escape gap ++ span (classPrefix ++ t.tag.style) (escape t.value) ++ marked))
    (seen : Text) (laid : Laid number start text ts) (parts : line = seen ++ text) (place : seen.length = start) :
    P text ts (markFrom classPrefix line start ts) := by
  -- Along the tokens of the line: what holds of the text at its end is handed on over each token and its gap.
  induction laid generalizing seen with
  | @rest start text blank =>
    have cut := Text.betweenParts seen text []
    rw [List.append_nil, ← parts, ← List.length_append, ← parts, place] at cut
    rw [markFrom, cut]
    exact rest text
  | @token start gap value text more tag blank solid tail ih =>
    have cut := Text.betweenParts seen gap (value ++ text)
    rw [← List.append_assoc gap, ← parts, place] at cut
    have column : ((start + gap.length : Nat) : Int) + 1 - 1 = (start + gap.length : Nat) := by omega
    have later := ih (seen ++ gap ++ value) (by simp only [parts, List.append_assoc])
      (by simp only [List.length_append, place])
    simp only [markFrom, column, cut]
    exact token gap ⟨tag,value,number,(start + gap.length : Nat) + 1⟩ text more _ later

theorem leavesMarks {classPrefix line text : Text} {number : Int} {start : Nat} {ts : List Token} (seen : Text)
    (closed : '>' ∉ classPrefix) (laid : Laid number start text ts) (parts : line = seen ++ text)
    (place : seen.length = start) : Leaves (markFrom classPrefix line start ts) (escape text) := by
  refine markFromLaid (P := fun text _ marked => Leaves marked (escape text)) leavesEscaped
    (fun gap t text more marked later => ?_) seen laid parts place
  have cls : '>' ∉ classPrefix ++ t.tag.style := by
    rw [List.mem_append, not_or]
    exact ⟨closed,(styleBrackets t.tag).2⟩
  rw [escapeAppend, escapeAppend]
  exact leavesAppend (leavesAppend (leavesEscaped gap) (leavesSpan _ cls (leavesEscaped t.value))) later

def shownLine (numbered : Bool) (number : Nat) (line : Text) : Text :=
  if numbered then Nat.toDigits 10 number ++ line else line

theorem leavesDecorated {options : Options} {number : Nat} {body line : Text}
    (inner : Leaves body (escape line)) :
    Leaves (decorate options number body) (escape (shownLine options.numbered number line)) := by
  have digits : Leaves (Decimal.natural number) (escape (Nat.toDigits 10 number)) := by
    have escaped := leavesEscaped (Nat.toDigits 10 number)
    rw [escapeDigits] at escaped ⊢
    exact escaped
  have numbered : Leaves (if options.numbered then span "lineno".toList (Decimal.natural number) ++ body else body)
      (escape (shownLine options.numbered number line)) := by
    unfold shownLine
    split
    · rw [escapeAppend]
      exact leavesAppend (leavesSpan "lineno".toList (by decide) digits) inner
    · exact inner
  dsimp only [decorate]
  split
  · exact leavesSpan "hll".toList (by decide) numbered
  · exact numbered

theorem lexedPiecesLaid {number : Nat} {lines : List Text} {before : Flags} {p : Piece}
    (member : p ∈ lexedPieces number lines before) : Laid (p.number : Nat) 0 p.line p.tokens := by
  induction lines generalizing number before with
  | nil => contradiction
  | cons line more ih =>
    rcases List.mem_cons.mp member with rfl | later
    · exact laidScan Rule.table _ before
    · exact ih later

theorem markupReadBack (settings : Settings) (options : Options) (code : Text)
    (keys : ∀ v ∈ options.emphasised, v.isKey = true) (closed : '>' ∉ settings.classPrefix.plain) :
    ∃ body, renderProgram settings options code =
        .ok ("<pre class=\"".toList ++ settings.wrapClass.plain ++ "\"><code>".toList ++ body ++
          "</code></pre>".toList) ∧
      withoutEntities (withoutTags body) = Text.joinWith ['\n'] ((Text.lines code).mapIdx fun index line =>
        if options.numbered then Nat.toDigits 10 (index + 1) ++ line else line) := by
  let pieces := lexedPieces 1 (Text.lines code) .clear
  have each : ∀ p ∈ pieces, Leaves (renderPiece settings options p)
      (escape (shownLine options.numbered p.number p.line)) := fun p member =>
    leavesDecorated (leavesMarks [] closed (lexedPiecesLaid member) rfl rfl)
  refine ⟨_,by rw [renderProgram, requireKeysMet keys, programLexed]; rfl,?_⟩
  have left := leavesJoined each []
  rw [List.append_nil, lexedPiecesLines, withoutTags, List.append_nil] at left
  rw [left, entitiesRead]
  simp only [shownLine, Nat.add_comm]

theorem markupReadBackEntity :
    let settings : Settings := ⟨.standard,.text "<\"".toList,.text "w>".toList⟩
    ∃ body, renderProgram settings ⟨[.int 2,.int (-1)],true⟩ "LDA <b>\n\n&lt; DAT".toList =
        .ok ("<pre class=\"".toList ++ "w>".toList ++ "\"><code>".toList ++ body ++ "</code></pre>".toList) ∧
      withoutEntities (withoutTags body) = "1LDA <b>\n2\n3&lt; DAT".toList := by
  intro settings
  obtain ⟨body,rendered,read⟩ := markupReadBack settings ⟨[.int 2,.int (-1)],true⟩
    "LDA <b>\n\n&lt; DAT".toList (by decide) (by decide)
  exact ⟨body,rendered,read.trans (by decide)⟩

end Markup
end LittleMan
