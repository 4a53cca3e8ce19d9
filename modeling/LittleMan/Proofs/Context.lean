import LittleMan.Proofs.Coverage
import LittleMan.Proofs.Recognition

/-! A token is what its neighbours say. Numbers and operands are there because of the token before, which
has set a flag that nothing has cleared since; labels are there because of the keyword after, which is
where the label was read to. So each flag is tied to the last token, over blanks and line ends, and
what a label was read up to is what the next reading begins with. -/
namespace LittleMan
open Text (Blank)

def Flags.raised (f : Flags) : Flag → Bool
  | .linkable => f.linkable
  | .operand => f.operand
  | .data => f.data

def Token.Raises (t : Token) : Flag → Prop
  | .linkable => t.tag = .keyword ∧ t.value.map Text.foldCase ∈ ["BRA".toList,"BRZ".toList,"BRP".toList]
  | .operand => t.tag = .keyword ∧ t.value.map Text.foldCase ∈
      ["STA".toList,"STO".toList,"LDA".toList,"ADD".toList,"SUB".toList]
  | .data => t.tag = .directive

/- Nothing but empty lines lies between the line of the token and a place in the first column of a
later one. -/
def Token.Feeds (s : Token) (lines : List Text) (number column : Int) : Prop :=
  s.line = number ∨ s.line < number ∧ column = 1 ∧
    ∀ index : Nat, s.line < (index : Int) + 1 → (index : Int) + 1 < number → lines[index]? = some []

def Token.Labels (t : Token) (lines : List Text) (u : Token) : Prop :=
  ∃ (index : Nat) (line gap rest : Text), lines[index]? = some line ∧ t.line = index + 1 ∧ u.line = index + 1 ∧
    t.column = Text.indent line + 1 ∧ u.column = t.column + t.value.length + gap.length ∧
    line.drop (Text.indent line) = t.value ++ gap ++ u.value ++ rest ∧ Blank gap

structure Token.InContext (lines : List Text) (prior : Option Token) (t : Token) (later : List Token) : Prop where
  number : t.tag = .number → ∃ s, prior = some s ∧ s.Raises .data ∧ s.Feeds lines t.line t.column
  link : t.tag = .link →
    (∃ s, prior = some s ∧ s.Raises .linkable ∧ s.Feeds lines t.line t.column) ∨
      ∃ u, later.head? = some u ∧ (u.tag = .keyword ∨ u.tag = .ioKeyword) ∧ t.Labels lines u
  var : t.tag = .var →
    (∃ s, prior = some s ∧ s.Raises .operand ∧ s.Feeds lines t.line t.column) ∨
      ∃ u, later.head? = some u ∧ u.tag = .directive ∧ t.Labels lines u
  comment : t.tag = .comment → ∀ u ∈ later, u.line ≠ t.line

inductive InOrder (lines : List Text) : Option Token → List Token → Option Token → Prop where
  | nil (prior) : InOrder lines prior [] prior
  | cons {prior t more last} (here : t.InContext lines prior more) (next : InOrder lines (some t) more last) :
      InOrder lines prior (t :: more) last

section Order
variable {lines : List Text} {prior mid last : Option Token} {t : Token} {ts more earlier later : List Token}

theorem contextExtended (here : t.InContext lines prior more) (below : ∀ u ∈ later, t.line < u.line) :
    t.InContext lines prior (more ++ later) where
  number := here.number
  link tagged := (here.link tagged).imp_right fun ⟨u,next,labelled⟩ =>
    ⟨u,by rw [List.head?_append, next]; rfl,labelled⟩
  var tagged := (here.var tagged).imp_right fun ⟨u,next,labelled⟩ =>
    ⟨u,by rw [List.head?_append, next]; rfl,labelled⟩
  comment tagged u member := by
    rcases List.mem_append.mp member with near | far
    · exact here.comment tagged u near
    · have := below u far
      omega

theorem inOrderAppend (first : InOrder lines prior ts mid) (second : InOrder lines mid more last)
    (below : ∀ t ∈ ts, ∀ u ∈ more, t.line < u.line) : InOrder lines prior (ts ++ more) last := by
  induction first with
  | nil => exact second
  | cons here next ih =>
    refine .cons (contextExtended here (below _ List.mem_cons_self)) (ih second ?_)
    exact fun t member => below t (List.mem_cons_of_mem _ member)

theorem inOrderAt (ordered : InOrder lines prior (earlier ++ t :: later) last) :
    t.InContext lines (earlier.getLast?.or prior) later := by
  induction earlier generalizing prior with
  | nil =>
    cases ordered with
    | cons here next => exact here
  | cons s earlier ih =>
    cases ordered with
    | cons here next =>
      have later := ih next
      rw [List.getLast?_cons]
      cases found : earlier.getLast? <;> simpa [found] using later

end Order

theorem Rule.labelOrDueCases {label : Pattern} {atStart due : Bool} {rest : Text} {n : Nat}
    (found : labelOrDue label atStart due rest = some n) :
    atStart = true ∧ label.length? rest = some n ∨ due = true ∧ Pattern.word.length? rest = some n := by
  unfold labelOrDue at found
  split at found
  · rename_i labelled
    cases Option.some.inj found
    split at labelled <;> try contradiction
    rename_i start
    exact .inl ⟨start,labelled⟩
  · split at found <;> try contradiction
    rename_i due
    exact .inr ⟨due,found⟩

theorem Pattern.keywordSpelled {role : Role} {t : Text} {n : Nat} (found : (keyword role).length? t = some n) :
    n = 3 ∧ ∃ k : Keyword, k.role = role ∧ (t.take 3).map Text.foldCase = k.spelling := by
  simp only [length?] at found
  split at found <;> try contradiction
  rename_i starts
  obtain ⟨k,same,spelled⟩ := startsWithRoleExact.mp starts
  have letters := List.prefix_iff_eq_take.mp spelled
  rw [Keyword.spellingLength, ← List.map_take] at letters
  exact ⟨(Option.some.inj found).symm,k,beq_iff_eq.mp same,letters.symm⟩

/- Blanks of any kind may follow a label, but the keyword comes after ASCII blanks only. -/
theorem Pattern.leadsToNext {p : Role → Bool} {t : Text} (follows : leadsTo p t = true) :
    ∃ k : Keyword, p k.role = true ∧ Keyword.at? (t.drop (Text.indent t)) = some k := by
  unfold leadsTo startsWithRole at follows
  split at follows <;> try contradiction
  rename_i k found
  obtain ⟨c,more,head,word,_⟩ := Keyword.atHead found
  have stops : Text.Ends Text.isBlank (t.dropWhile Text.isAsciiBlank) := by
    rw [head]
    exact Text.endsHead (Text.wordSolid word)
  have blanks : ∀ c ∈ t.takeWhile Text.isAsciiBlank, Text.isBlank c = true := fun c member =>
    Text.asciiIsBlank (List.mem_takeWhile_imp member)
  have parts : t.takeWhile Text.isAsciiBlank ++ t.dropWhile Text.isAsciiBlank = t := List.takeWhile_append_dropWhile
  have indent := Text.spanExact blanks stops
  have dropped : (t.takeWhile Text.isAsciiBlank ++ t.dropWhile Text.isAsciiBlank).drop _ = _ := List.drop_left
  rw [parts] at indent dropped
  refine ⟨k,follows,?_⟩
  rw [Text.indent, indent, dropped]
  exact found

theorem Flags.raisedOnly {sets : Option Flag} {flag : Flag} : (only sets).raised flag = true ↔ sets = some flag := by
  cases sets with
  | none => cases flag <;> decide
  | some set => cases set <;> cases flag <;> decide

theorem Role.raises {rest : Text} {n : Nat} (role : Role) (flag : Flag)
    (found : (Pattern.keyword role).length? rest = some n) (number column : Int) :
    (⟨role.rule.tag,rest.take n,number,column⟩ : Token).Raises flag ↔ role.rule.sets = some flag := by
  obtain ⟨rfl,k,rfl,spelled⟩ := Pattern.keywordSpelled found
  cases flag <;> simp only [Token.Raises, spelled] <;> cases k <;> decide

theorem Rule.raisesExact {rule : Rule} {flag : Flag} {atStart : Bool} {before : Flags} {rest : Text} {n : Nat}
    (found : rule.length? atStart before rest = some n) (number column : Int) :
    (⟨rule.tag,rest.take n,number,column⟩ : Token).Raises flag ↔ rule.sets = some flag := by
  cases rule with
  | number | var | link => cases flag <;> simp [Token.Raises, tag, sets]
  | io => exact Role.io.raises flag found number column
  | arithmetic => exact Role.arithmetic.raises flag found number column
  | branch => exact Role.branch.raises flag found number column
  | variabled => exact Role.variabled.raises flag found number column
  | other => exact Role.other.raises flag found number column
  | data => exact Role.data.raises flag found number column

/- Every flag that is set was set by the last token, and the place reached is fed by it. -/
def Remembers (lines : List Text) (prior : Option Token) (before : Flags) (number column : Int) : Prop :=
  ∀ flag, before.raised flag = true → ∃ s, prior = some s ∧ s.Raises flag ∧ s.Feeds lines number column

section Line
variable {lines : List Text} {prior : Option Token} {before : Flags} {index start : Nat} {line : Text}

theorem remembersClear (number column : Int) : Remembers lines prior .clear number column := by
  intro flag set
  cases flag <;> contradiction

theorem remembersSet {rule : Rule} {t : Token} {column : Int}
    (raises : ∀ flag, rule.sets = some flag → t.Raises flag) :
    Remembers lines (some t) (.only rule.sets) t.line column := by
  intro flag set
  have same : rule.sets = some flag := Flags.raisedOnly.mp set
  exact ⟨t,rfl,raises flag same,.inl rfl⟩

theorem remembersNext (row : lines[index]? = some line)
    (ended : Remembers lines prior before (index + 1) (line.length + 1)) :
    Remembers lines prior before (index + 1 + 1) 1 := by
  intro flag set
  obtain ⟨s,last,raises,feeds⟩ := ended flag set
  refine ⟨s,last,raises,.inr ?_⟩
  rcases feeds with here | ⟨above,column,empty⟩
  · refine ⟨by omega,rfl,?_⟩
    intro other below above
    omega
  · refine ⟨by omega,rfl,?_⟩
    intro other below next
    by_cases same : other = index
    · have nothing : line = [] := List.length_eq_zero_iff.mp (by omega)
      rw [same, row, nothing]
    · exact empty other below (by omega)

theorem scanKeyword {rest : Text} {k : Keyword} (head start : Nat) (number : Int) (before : Flags)
    (found : Keyword.at? rest = some k) : ∃ more,
      (Lexeme.scan Rule.table head start rest before).filterMap (Lexeme.token? number) =
        ⟨k.role.rule.tag,rest.take 3,number,start + 1⟩ :: more := by
  obtain ⟨c,more,ahead,_⟩ := Keyword.atHead found
  have some : rest ≠ [] := by rw [ahead]; exact List.cons_ne_nil c more
  have taken : k.role.rule.length? (start == head) before rest = .some 3 := by
    rw [Rule.roleLength, Pattern.keywordLength found, if_pos rfl]
  rw [Lexeme.scanStep some (Verdict.judgeKeyword found)]
  refine ⟨_,List.filterMap_cons_some ?_⟩
  simp only [Lexeme.token?, Verdict.tag?, Option.map_some, Verdict.width, Verdict.ruledTrimmed taken]

theorem labelContext {p : Role → Bool} {n : Nat} {label : Pattern} (tag : Tag) (before : Flags) (row : lines[index]? = some line)
    (reads : label.length? = Pattern.labelLength? (Pattern.leadsTo p)) (begins : start = Text.indent line)
    (found : label.length? (line.drop start) = some n) :
    let rest := line.drop start
    let width := n + Text.indent (rest.drop n)
    ∃ k : Keyword, p k.role = true ∧
      ∃ u more, (Lexeme.scan Rule.table (Text.indent line) (start + width) (rest.drop width) before).filterMap
          (Lexeme.token? (index + 1)) = u :: more ∧ u.tag = k.role.rule.tag ∧
        Token.Labels ⟨tag,rest.take n,index + 1,start + 1⟩ lines u := by
  intro rest width
  rw [reads] at found
  have bounds := Pattern.labelLengthBounds found
  obtain ⟨k,role,next⟩ := Pattern.leadsToNext (Pattern.labelLengthTaken found).2
  rw [List.drop_drop] at next
  obtain ⟨more,scanned⟩ := scanKeyword (Text.indent line) (start + width) (index + 1) before next
  have blank : Blank ((rest.drop n).takeWhile Text.isBlank) := fun _ member => List.mem_takeWhile_imp member
  have length : (rest.take n).length = n := by rw [List.length_take, Nat.min_eq_left bounds.2]
  have parts : rest = rest.take n ++ (rest.drop n).takeWhile Text.isBlank ++ (rest.drop width).take 3 ++
      (rest.drop width).drop 3 := by
    rw [List.append_assoc, List.take_append_drop, List.append_assoc, ← List.drop_drop, Text.indent,
      Text.spanAppend, List.take_append_drop]
  refine ⟨k,role,_,more,scanned,rfl,index,line,_,(rest.drop width).drop 3,row,rfl,rfl,?_,?_,?_,blank⟩
  · rw [begins]
  · simp only [length, width, Text.indent, Text.span]
    omega
  · rw [← begins]
    exact parts

theorem unitInContext {rule : Rule} {n : Nat} (row : lines[index]? = some line)
    (remembered : Remembers lines prior before (index + 1) (start + 1))
    (found : rule.length? (start == Text.indent line) before (line.drop start) = some n) :
    let rest := line.drop start
    let width := n + Text.indent (rest.drop n)
    Token.InContext lines prior ⟨rule.tag,rest.take n,index + 1,start + 1⟩
      ((Lexeme.scan Rule.table (Text.indent line) (start + width) (rest.drop width) (.only rule.sets)).filterMap
        (Lexeme.token? (index + 1))) where
  number tagged := by
    obtain rfl : rule = .number := by cases rule <;> first | rfl | contradiction
    rw [Rule.length?] at found
    split at found <;> try contradiction
    rename_i due
    exact remembered .data due
  link tagged := by
    obtain rfl : rule = .link := by cases rule <;> first | rfl | contradiction
    rcases Rule.labelOrDueCases found with ⟨begins,labelled⟩ | ⟨due,_⟩
    · obtain ⟨k,role,u,more,scanned,tag,labels⟩ := labelContext .link (.only Rule.link.sets) row
        rfl (beq_iff_eq.mp begins) labelled
      refine .inr ⟨u,by rw [scanned]; rfl,?_,labels⟩
      rw [tag]
      revert role
      cases k.role <;> decide
    · exact .inl (remembered .linkable due)
  var tagged := by
    obtain rfl : rule = .var := by cases rule <;> first | rfl | contradiction
    rcases Rule.labelOrDueCases found with ⟨begins,labelled⟩ | ⟨due,_⟩
    · obtain ⟨k,role,u,more,scanned,tag,labels⟩ := labelContext .var (.only Rule.var.sets) row
        rfl (beq_iff_eq.mp begins) labelled
      refine .inr ⟨u,by rw [scanned]; rfl,?_,labels⟩
      rw [tag, beq_iff_eq.mp role]
      rfl
    · exact .inl (remembered .operand due)
  comment tagged := by cases rule <;> contradiction

theorem scanInOrder (row : lines[index]? = some line) (bound : start ≤ line.length)
    (remembered : Remembers lines prior before (index + 1) (start + 1)) :
    ∃ last, InOrder lines prior ((Lexeme.scan Rule.table (Text.indent line) start (line.drop start) before).filterMap
        (Lexeme.token? (index + 1))) last ∧
      Remembers lines last (Lexeme.after before
        (Lexeme.scan Rule.table (Text.indent line) start (line.drop start) before)) (index + 1) (line.length + 1) := by
  -- On what is left of the line: what is remembered where a unit begins puts it in context, and what the unit
  -- leaves is remembered where the next one begins.
  induction left : line.length - start using Nat.strongRecOn generalizing start prior before with
  | ind left ih =>
    by_cases done : start = line.length
    · rw [done, List.drop_length, Lexeme.scanNil, Lexeme.afterNil]
      rw [done] at remembered
      exact ⟨prior,.nil prior,remembered⟩
    · have inside : start < line.length := by omega
      generalize judged :
        Verdict.judge Rule.table (start == Text.indent line) before (line.drop start) = verdict
      obtain ⟨ahead,some,fits,taken⟩ := Verdict.unitInside inside judged
      have later := fun prior before remembered =>
        @ih (line.length - (start + verdict.width (line.drop start))) (by omega) prior before _ fits remembered rfl
      rw [← List.drop_drop] at later
      rw [Lexeme.scanStep ahead judged, Lexeme.afterCons]
      cases verdict with
      | newline => exact later _ _ (remembersClear _ _)
      | skipped => exact later _ _ (remembersClear _ _)
      | comment =>
        rw [Verdict.width, List.drop_length, Lexeme.scanNil, Lexeme.afterNil]
        refine ⟨_,.cons ⟨fun is => ?_,fun is => ?_,fun is => ?_,fun _ u member => ?_⟩ (.nil _),remembersClear _ _⟩
        · contradiction
        · contradiction
        · contradiction
        · exact absurd member List.not_mem_nil
      | ruled rule n =>
        obtain ⟨_,found⟩ := Verdict.ruledJudged judged
        let t : Token := ⟨rule.tag,(line.drop start).take n,index + 1,start + 1⟩
        have drawn : Lexeme.token? (index + 1) ⟨start,.ruled rule n,(line.drop start).take
            (Verdict.width (line.drop start) (.ruled rule n))⟩ = .some t := by
          simp only [Lexeme.token?, Verdict.tag?, Option.map_some, Verdict.width, Verdict.ruledTrimmed found, t]
        obtain ⟨last,ordered,kept⟩ := later (.some t) (.only rule.sets) (remembersSet fun flag sets =>
          (Rule.raisesExact found (index + 1) (start + 1)).mpr sets)
        rw [List.filterMap_cons_some drawn]
        exact ⟨last,.cons (unitInContext row remembered found) ordered,kept⟩

end Line

theorem linesInOrder {all : List Text} {prior : Option Token} {before : Flags} (index : Nat)
    (lines : List Text) (parts : all.drop index = lines)
    (remembered : Remembers all prior before (index + 1) 1) :
    ∃ last, InOrder all prior (Lexeme.drawingLines Rule.table (index + 1) lines before).tokens last := by
  induction lines generalizing index prior before with
  | nil => exact ⟨prior,.nil prior⟩
  | cons line more ih =>
    have row : all[index]? = some line := by
      rw [← List.head?_drop, parts, List.head?_cons]
    have rest : all.drop (index + 1) = more := by
      rw [← List.tail_drop, parts, List.tail_cons]
    obtain ⟨mid,first,ended⟩ := scanInOrder row (Nat.zero_le _) remembered
    obtain ⟨last,others⟩ := ih (index + 1) rest (remembersNext row ended)
    rw [Lexeme.drawingLinesTokens]
    refine ⟨last,inOrderAppend first others ?_⟩
    intro t near u far
    have here := (laidTokens (laidScan Rule.table _ before) near).1
    obtain ⟨_,below,_,_,_,there,_⟩ := laidLinesTokens (laidDrawing Rule.table _ more _) far
    omega

theorem tokensInContext {tab : TabSize} {text : Text} {earlier later : List Token} {t : Token}
    (parts : (Drawing.ofText (.ok tab) text .clear).tokens = earlier ++ t :: later) :
    t.InContext (Text.lines text) earlier.getLast? later := by
  have fresh : Remembers (Text.lines text) none .clear ((0 : Nat) + 1) 1 := remembersClear _ _
  obtain ⟨last,ordered⟩ := linesInOrder 0 (Text.lines text) rfl fresh
  rw [← drawTextLexemes tab, parts] at ordered
  have here := inOrderAt ordered
  rw [Option.or_none] at here
  exact here

theorem tokensInContextOverEmptyLine :
    let text := "bra\n\nLOOP\n\tX dat 5".toList
    let later : List Token :=
      [⟨.var,"X".toList,4,2⟩,⟨.directive,"dat".toList,4,4⟩,⟨.number,"5".toList,4,8⟩]
    (Drawing.ofText (.ok .standard) text .clear).tokens =
        [⟨.keyword,"bra".toList,1,1⟩] ++ ⟨.link,"LOOP".toList,3,1⟩ :: later ∧
      Token.InContext (Text.lines text) (some ⟨.keyword,"bra".toList,1,1⟩) ⟨.link,"LOOP".toList,3,1⟩ later := by
  intro text later
  have parts : (Drawing.ofText (.ok .standard) text .clear).tokens =
      [⟨.keyword,"bra".toList,1,1⟩] ++ ⟨.link,"LOOP".toList,3,1⟩ :: later := by decide +kernel
  exact ⟨parts,tokensInContext parts⟩

end LittleMan
