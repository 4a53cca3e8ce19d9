import LittleMan.Proofs.Lexemes
import LittleMan.Proofs.LineBreaks
import LittleMan.Proofs.Listing
import LittleMan.Proofs.Recognition

/-! What is read from a well-formed program is what its writer meant. One lemma for each part of a
line tells how the line goes on after it, and the lines follow by induction: nothing that a line
leaves behind is taken for a word by the next. -/
namespace LittleMan

def Flags.Calm (f : Flags) : Prop := f.linkable = false ∧ f.operand = false

namespace Listing
open Text (Blank Ends)
variable {number : Int} {head start : Nat} {before : Flags} {ts : List Token}

def Reads (number : Int) (head start : Nat) (rest : Text) (before : Flags) (ts : List Token) : Prop :=
  (Lexeme.scan Rule.table head start rest before).filterMap (Lexeme.token? number) = ts ∧
    (Lexeme.after before (Lexeme.scan Rule.table head start rest before)).Calm

theorem gapBlank {t : Text} (plain : ∀ c ∈ t, c = ' ' ∨ c = '\t') : Blank t := by
  intro c member
  rcases plain c member with rfl | rfl <;> rfl

theorem gapSpaces {t : Text} (plain : ∀ c ∈ t, c = ' ' ∨ c = '\t') :
    ∀ c ∈ t, Text.isAsciiBlank c = true := by
  intro c member
  rcases plain c member with rfl | rfl <;> rfl

theorem Run.ends (gap : Run) (more : Text) : Ends Text.isWord (gap.text ++ more) := by
  apply Text.endsFilled gap.filled
  intro c member
  exact Text.blankDark (gapBlank gap.plain c member)

theorem digitEnds {t : Text} (ends : Ends Text.isWord t) : Ends Text.isDigit t := by
  intro c first
  rw [Bool.eq_false_iff]
  intro digit
  have := ends c first
  rw [Text.digitWord digit] at this
  contradiction

theorem wordStops {w more : Text} (filled : w ≠ []) (words : ∀ c ∈ w, Text.isWord c = true) :
    Ends Text.isBlank (w ++ more) := by
  apply Text.endsFilled filled
  intro c member
  exact Text.wordSolid (words c member)

theorem commentStops (comment : Option Comment) : Ends Text.isBlank (commentText comment) := by
  cases comment with
  | none => nofun
  | some comment => exact Text.endsHead comment.clear

theorem Ending.ends (e : Ending) : Ends Text.isWord e.text := by
  intro c first
  rw [Ending.text, List.head?_append, Option.or_eq_some_iff] at first
  rcases first with inside | ⟨_,later⟩
  · exact Text.blankDark (gapBlank e.gap.plain c (List.mem_of_head? inside))
  · cases written : e.comment with
    | none =>
      rw [written] at later
      contradiction
    | some comment =>
      rw [written] at later
      cases later
      exact comment.mark

theorem Spelled.found {k : Keyword} (word : Spelled k) (more : Text) :
    Keyword.at? (word.text ++ more) = some k := by
  rw [Keyword.atExact, List.map_append, word.folded]
  exact List.prefix_append _ _

theorem Spelled.length {k : Keyword} (word : Spelled k) : word.text.length = 3 := by
  rw [← List.length_map Text.foldCase, word.folded, Keyword.spellingLength]

theorem Spelled.words {k : Keyword} (word : Spelled k) : ∀ c ∈ word.text, Text.isWord c = true := by
  intro c member
  have spelled : k.spelling <+: word.text.map Text.foldCase := ⟨[],by rw [List.append_nil, word.folded]⟩
  refine (Keyword.lettersTaken spelled ?_).1
  rwa [← word.length, List.take_length]

theorem Spelled.filled {k : Keyword} (word : Spelled k) : word.text ≠ [] := by
  apply List.ne_nil_of_length_pos
  rw [word.length]
  decide

theorem readsEnd (calm : before.Calm) : Reads number head start [] before [] := by
  rw [Reads, Lexeme.scanNil]
  exact ⟨rfl,calm⟩

theorem readsStep {verdict : Verdict} {taken more : Text} (some : taken ≠ [])
    (judged : Verdict.judge Rule.table (start == head) before (taken ++ more) = verdict)
    (width : verdict.width (taken ++ more) = taken.length)
    (later : Reads number head (start + taken.length) more verdict.flags ts) :
    Reads number head start (taken ++ more) before
      ((Lexeme.token? number ⟨start,verdict,taken⟩).toList ++ ts) := by
  obtain ⟨tokens,calm⟩ := later
  rw [Reads, Lexeme.scanTaken some judged width, Lexeme.afterCons]
  refine ⟨?_,calm⟩
  rw [List.filterMap_cons, tokens]
  cases Lexeme.token? number ⟨start,verdict,taken⟩ <;> rfl

theorem readsBlank {gap more : Text} (plain : ∀ c ∈ gap, c = ' ' ∨ c = '\t') (calm : before.Calm)
    (later : ∀ flags : Flags, flags.Calm → Reads number head (start + gap.length) more flags ts) :
    Reads number head start (gap ++ more) before ts := by
  induction gap generalizing start before with
  | nil => exact later before calm
  | cons c gap ih =>
    have blank := gapBlank plain c List.mem_cons_self
    have inLine : c ≠ '\n' := by rcases plain c List.mem_cons_self with rfl | rfl <;> decide
    have tail : Reads number head (start + 1) (gap ++ more) .clear ts := by
      apply ih (fun d member => plain d (List.mem_cons_of_mem _ member)) ⟨rfl,rfl⟩
      intro flags calm
      have next := later flags calm
      rwa [List.length_cons, Nat.add_comm gap.length, ← Nat.add_assoc] at next
    have one : Verdict.skipped.width ([c] ++ (gap ++ more)) = 1 := by simp [Verdict.width]
    exact readsStep (List.cons_ne_nil c []) (Verdict.judgeBlank blank inLine) one tail

theorem scanUnit {rule : Rule} {w gap more : Text} (filled : w ≠ []) (blank : Blank gap)
    (stops : Ends Text.isBlank more)
    (judged : Verdict.judge Rule.table (start == head) before (w ++ (gap ++ more)) = .ruled rule w.length) :
    Lexeme.scan Rule.table head start (w ++ (gap ++ more)) before =
      ⟨start,.ruled rule w.length,w ++ gap⟩ ::
        Lexeme.scan Rule.table head (start + w.length + gap.length) more (.only rule.sets) := by
  have width : (Verdict.ruled rule w.length).width (w ++ gap ++ more) = (w ++ gap).length := by
    rw [Verdict.width, List.append_assoc, List.drop_left, Text.indent, Text.spanExact blank stops,
      List.length_append]
  have some : w ++ gap ≠ [] := List.append_ne_nil_of_left_ne_nil filled gap
  rw [← List.append_assoc] at judged ⊢
  rw [Lexeme.scanTaken some judged width, Nat.add_assoc, ← List.length_append]
  rfl

theorem unitToken {rule : Rule} {w gap : Text} {n : Nat} (filled : w ≠ []) (words : ∀ c ∈ w, Text.isWord c = true)
    (blank : Blank gap) :
    Lexeme.token? number ⟨start,.ruled rule n,w ++ gap⟩ = some (token rule.tag w number start) := by
  have value : Text.trimEnd (w ++ gap) = w := by
    rw [Text.trimEndAppend w blank, Text.trimEndSolid (Text.solidWord filled words)]
  simp only [Lexeme.token?, Verdict.tag?, Option.map_some, value, token]

theorem readsUnit {rule : Rule} {w gap more : Text} (filled : w ≠ []) (words : ∀ c ∈ w, Text.isWord c = true)
    (blank : Blank gap) (stops : Ends Text.isBlank more)
    (judged : Verdict.judge Rule.table (start == head) before (w ++ (gap ++ more)) = .ruled rule w.length)
    (later : Reads number head (start + w.length + gap.length) more (.only rule.sets) ts) :
    Reads number head start (w ++ (gap ++ more)) before (token rule.tag w number start :: ts) := by
  obtain ⟨tokens,calm⟩ := later
  rw [Reads, scanUnit filled blank stops judged, List.filterMap_cons, unitToken filled words blank, tokens,
    Lexeme.afterCons]
  exact ⟨rfl,calm⟩

theorem readsComment (calm : before.Calm) (comment : Option Comment) :
    Reads number head start (commentText comment) before (commentTokens number start comment) := by
  cases comment with
  | none => exact readsEnd calm
  | some comment =>
    have judged : Verdict.judge Rule.table (start == head) before (comment.text ++ []) = .comment := by
      rw [List.append_nil]
      exact Verdict.judgeComment comment.clear comment.mark
    have width : Verdict.comment.width (comment.text ++ []) = comment.text.length := by
      rw [List.append_nil]
      rfl
    have read : Reads number head start (comment.text ++ []) before _ :=
      readsStep (List.cons_ne_nil comment.first comment.more) judged width (readsEnd ⟨rfl,rfl⟩)
    rwa [List.append_nil] at read

theorem readsEnding (calm : before.Calm) (e : Ending) :
    Reads number head start e.text before (e.tokens number start) :=
  readsBlank e.gap.plain calm fun _ calm => readsComment calm e.comment

theorem readsLast {rule : Rule} {w : Text} (filled : w ≠ []) (words : ∀ c ∈ w, Text.isWord c = true)
    (e : Ending) (calm : (Flags.only rule.sets).Calm)
    (judged : Verdict.judge Rule.table (start == head) before (w ++ e.text) = .ruled rule w.length) :
    Reads number head start (w ++ e.text) before
      (token rule.tag w number start :: e.tokens number (start + w.length)) :=
  readsUnit filled words (gapBlank e.gap.plain) (commentStops e.comment) judged (readsComment calm e.comment)

def operandRule : Role → Rule
  | .branch => .link
  | _ => .var

theorem operandJudged {role : Role} (applied : role = .variabled ∨ role = .arithmetic ∨ role = .branch)
    (name : Name) {more : Text} (ends : Ends Text.isWord more) :
    Verdict.judge Rule.table false (.only role.rule.sets) (name.text ++ more) =
      .ruled (operandRule role) name.text.length := by
  have free := Keyword.atNoneWithin ends name.free
  have word : Pattern.word.length? (name.text ++ more) = some name.text.length :=
    Pattern.runWord name.filled name.word ends
  rcases applied with rfl | rfl | rfl
  · exact Verdict.judgeVar rfl free word
  · exact Verdict.judgeVar rfl free word
  · exact Verdict.judgeLink rfl free rfl word

def labelRule : Role → Rule
  | .data => .var
  | _ => .link

theorem roleData {k : Keyword} (data : k.role = .data) : k = .dat := by
  revert data
  cases k <;> decide

theorem roleInstruction {role : Role} (other : role ≠ .data) :
    role.isInstruction = true ∧ labelRule role = .link := by
  revert other
  cases role <;> decide

theorem labelUnread {k : Keyword} (name : Name) (gap : Run) {t : Text}
    (found : Keyword.at? t = some k) (other : k.role ≠ .data)
    (quiet : ¬ Keyword.dat.spelling <:+: name.text.map Text.foldCase) :
    Pattern.dataLabel.length? (name.text ++ (gap.text ++ t)) = none := by
  apply Pattern.labelLengthMissed (gap.ends t)
  intro n some within
  by_cases last : n = name.text.length
  · rw [last, List.drop_length, List.nil_append, Pattern.leadsToKeyword (gapSpaces gap.plain) found]
    exact beq_eq_false_iff_ne.mpr other
  · have inside : name.text.drop n ≠ [] := by
      rw [ne_eq, List.drop_eq_nil_iff]
      omega
    have words : ∀ c ∈ name.text.drop n, Text.isWord c = true := fun c member =>
      name.word c (List.mem_of_mem_drop member)
    -- A word character comes next, so no blank is passed over and the directive would begin here.
    rw [Pattern.leadsToSolid (wordStops inside words), Bool.eq_false_iff]
    intro starts
    obtain ⟨directive,data,spelled⟩ := startsWithRoleExact.mp starts
    have within := Keyword.spelledWithin (gap.ends t) spelled
    rw [roleData (beq_iff_eq.mp data), List.map_drop] at within
    exact quiet (within.isInfix.trans (List.drop_suffix n _).isInfix)

theorem linkJudged {k : Keyword} (name : Name) (gap : Run) {t : Text}
    (found : Keyword.at? t = some k) (other : k.role ≠ .data)
    (quiet : ¬ Keyword.dat.spelling <:+: name.text.map Text.foldCase)
    (numberless : Rule.number.length? true before (name.text ++ (gap.text ++ t)) = none) (calm : before.Calm) :
    Verdict.judge Rule.table true before (name.text ++ (gap.text ++ t)) = .ruled .link name.text.length := by
  have ends := gap.ends t
  have free := Keyword.atNoneWithin ends name.free
  have follows : Pattern.leadsTo Role.isInstruction (gap.text ++ t) = true := by
    rw [Pattern.leadsToKeyword (gapSpaces gap.plain) found, (roleInstruction other).1]
  have takes : Pattern.instructionLabel.length? (name.text ++ (gap.text ++ t)) = some name.text.length :=
    Pattern.labelLengthWord name.filled name.word ends follows
  apply Verdict.judgeLink numberless free
  · simp only [Rule.length?, Rule.labelOrDue, if_true, labelUnread name gap found other quiet, calm.2,
      Bool.false_eq_true, if_false]
  · simp only [Rule.length?, Rule.labelOrDue, if_true, takes]

theorem labelJudged {k : Keyword} (label : Label k) (gap : Run) {t : Text}
    (found : Keyword.at? t = some k) (calm : before.Calm) :
    Verdict.judge Rule.table true before (label.text ++ (gap.text ++ t)) =
      .ruled (labelRule k.role) label.text.length := by
  have numberless : Rule.number.length? true before (label.text ++ (gap.text ++ t)) = none := by
    apply Rule.numberMissed
    intro c first
    rw [List.head?_append_of_ne_nil _ label.filled] at first
    exact label.letter c first
  by_cases data : k.role = .data
  · have follows : Pattern.leadsTo (· == .data) (gap.text ++ t) = true := by
      rw [Pattern.leadsToKeyword (gapSpaces gap.plain) found, data]
      rfl
    have takes : Pattern.dataLabel.length? (label.text ++ (gap.text ++ t)) = some label.text.length :=
      Pattern.labelLengthWord label.filled label.word (gap.ends t) follows
    rw [data]
    apply Verdict.judgeVar numberless (Keyword.atNoneWithin (gap.ends t) label.free)
    simp only [Rule.length?, Rule.labelOrDue, if_true, takes]
  · have instruction : k ≠ .dat := fun same => data (by rw [same]; rfl)
    rw [(roleInstruction data).2]
    exact linkJudged label.toName gap found data (label.quiet instruction) numberless calm

theorem keywordRead {k : Keyword} (word : Spelled k) {gap : Gap} {more : Text}
    (stops : Ends Text.isBlank more)
    (later : Reads number head (start + word.text.length + gap.text.length) more
      (.only k.role.rule.sets) ts) :
    Reads number head start (word.text ++ (gap.text ++ more)) before
      (token (keywordTag k.role) word.text number start :: ts) := by
  have tag : keywordTag k.role = k.role.rule.tag := by cases k.role <;> rfl
  rw [tag]
  apply readsUnit word.filled word.words (gapBlank gap.plain) stops _ later
  rw [word.length]
  exact Verdict.judgeKeyword (word.found _)

theorem appliedRead {k : Keyword} (word : Spelled k) (gap : Run) {rule : Rule} {w : Text} (filled : w ≠ [])
    (words : ∀ c ∈ w, Text.isWord c = true) (e : Ending) (calm : (Flags.only rule.sets).Calm)
    (inside : head ≤ start)
    (judged : Verdict.judge Rule.table false (.only k.role.rule.sets) (w ++ e.text) = .ruled rule w.length) :
    Reads number head start (word.text ++ (gap.text ++ w ++ e.text)) before
      (token (keywordTag k.role) word.text number start ::
        token rule.tag w number (start + word.text.length + gap.text.length) ::
          e.tokens number (start + word.text.length + (gap.text ++ w).length)) := by
  have three := word.length
  have further : (start + word.text.length + gap.text.length == head) = false := by
    rw [beq_eq_false_iff_ne]
    omega
  rw [List.append_assoc, List.length_append, ← Nat.add_assoc]
  apply keywordRead word (wordStops filled words)
  apply readsLast filled words e calm
  rwa [further]

theorem argumentRead {k : Keyword} (word : Spelled k) {role : Role} (same : k.role = role)
    (a : Argument role) (e : Ending) (inside : head ≤ start) :
    Reads number head start (word.text ++ (a.text ++ e.text)) before
      (token (keywordTag k.role) word.text number start ::
        (a.tokens number (start + word.text.length) ++
          e.tokens number (start + word.text.length + a.text.length))) := by
  cases a with
  | bare alone =>
    have calm : (Flags.only k.role.rule.sets).Calm := by
      rw [same]
      rcases alone with rfl | rfl | rfl <;> exact ⟨rfl,rfl⟩
    exact keywordRead word (commentStops e.comment) (readsComment calm e.comment)
  | operand applied gap name =>
    have calm : (Flags.only (operandRule role).sets).Calm := by
      rcases applied with rfl | rfl | rfl <;> exact ⟨rfl,rfl⟩
    have tag : operandTag role = (operandRule role).tag := by cases role <;> rfl
    have judged := operandJudged applied name e.ends
    rw [Argument.tokens, tag]
    subst same
    exact appliedRead word gap name.filled name.word e calm inside judged
  | number gap digits =>
    have words : ∀ c ∈ digits.text, Text.isWord c = true := fun c member =>
      Text.digitWord (digits.digits c member)
    have due : (Flags.only k.role.rule.sets).data = true := by rw [same]; rfl
    have calm : (Flags.only Rule.number.sets).Calm := ⟨rfl,rfl⟩
    exact appliedRead word gap digits.filled words e calm inside
      (Verdict.judgeNumber due digits.filled digits.digits (digitEnds e.ends))

theorem statementRead (s : Statement) (e : Ending) (calm : before.Calm) :
    Reads number start start (s.text ++ e.text) before
      (s.tokens number start ++ e.tokens number (start + s.text.length)) := by
  simp only [Statement.text, Statement.tokens, List.append_assoc, List.cons_append, List.length_append,
    ← Nat.add_assoc]
  cases s.label with
  | none => exact argumentRead s.word rfl s.argument e (Nat.le_refl start)
  | some labelled =>
    obtain ⟨label,gap⟩ := labelled
    have tag : labelTag s.keyword.role = (labelRule s.keyword.role).tag := by cases s.keyword.role <;> rfl
    have here : (start == start) = true := beq_self_eq_true start
    have judged := labelJudged label gap (s.word.found (s.argument.text ++ e.text)) calm
    have further : start ≤ start + label.text.length + gap.text.length := by omega
    simp only [labelText, labelTokens, List.append_assoc, List.length_append, ← Nat.add_assoc, tag]
    apply readsUnit label.filled label.word (gapBlank gap.plain) (wordStops s.word.filled s.word.words)
    · rwa [here]
    · exact argumentRead s.word rfl s.argument e further

theorem Statement.stops (s : Statement) (more : Text) : Ends Text.isBlank (s.text ++ more) := by
  simp only [Statement.text, List.append_assoc]
  cases s.label with
  | none =>
    rw [labelText, List.nil_append]
    exact wordStops s.word.filled s.word.words
  | some labelled =>
    simp only [labelText, List.append_assoc]
    exact wordStops labelled.1.filled labelled.1.word

theorem Line.read (l : Line) (calm : before.Calm) :
    Reads number (Text.indent l.text) 0 l.text before (l.tokens number) := by
  rw [Line.text, Line.tokens]
  apply readsBlank l.indent.plain calm
  intro flags calm
  rw [Nat.zero_add]
  cases l.statement with
  | none => exact readsEnding calm l.ending
  | some s =>
    have head : Text.indent (l.indent.text ++ (s.text ++ l.ending.text)) = l.indent.text.length :=
      Text.spanExact (gapBlank l.indent.plain) (s.stops l.ending.text)
    rw [statementText, head]
    exact statementRead s l.ending calm

theorem gapUnbroken {t : Text} (plain : ∀ c ∈ t, c = ' ' ∨ c = '\t') : Text.Unbroken t := by
  intro c member
  rcases plain c member with rfl | rfl <;> decide

theorem Argument.unbroken {role : Role} (a : Argument role) : Text.Unbroken a.text := by
  cases a with
  | bare alone => nofun
  | operand applied gap name =>
    exact Text.unbrokenAppend (gapUnbroken gap.plain) (Text.unbrokenWord name.word)
  | number gap digits =>
    exact Text.unbrokenAppend (gapUnbroken gap.plain)
      (Text.unbrokenWord fun c member => Text.digitWord (digits.digits c member))

theorem Statement.unbroken (s : Statement) : Text.Unbroken s.text := by
  have applied := Text.unbrokenAppend (Text.unbrokenWord s.word.words) s.argument.unbroken
  rw [Statement.text]
  cases s.label with
  | none => exact applied
  | some labelled =>
    have label := Text.unbrokenAppend (Text.unbrokenWord labelled.1.word) (gapUnbroken labelled.2.plain)
    exact Text.unbrokenAppend label applied

theorem Line.unbroken (l : Line) : Text.Unbroken l.text := by
  have ending : Text.Unbroken l.ending.text := by
    apply Text.unbrokenAppend (gapUnbroken l.ending.gap.plain)
    cases l.ending.comment with
    | none => nofun
    | some comment => exact comment.unbroken
  apply Text.unbrokenAppend (gapUnbroken l.indent.plain)
  cases l.statement with
  | none => exact ending
  | some s => exact Text.unbrokenAppend s.unbroken ending

theorem linesRead (number : Nat) (program : List Line) (calm : before.Calm) :
    (Lexeme.drawingLines Rule.table number (Text.lines (text program)) before).tokens =
      tokens number program := by
  induction program generalizing number before with
  | nil => rfl
  | cons l program ih =>
    obtain ⟨read,later⟩ : Reads number (Text.indent l.text) 0 l.text before (l.tokens number) := l.read calm
    cases program with
    | nil =>
      rw [text, List.map_singleton, Text.joinWith, tokens, tokens, List.append_nil, ← read]
      -- A last line that is empty is none once written, and no token is meant by it.
      by_cases empty : l.text = []
      · rw [empty, Lexeme.scanNil]
        rfl
      · rw [Text.linesWhole l.unbroken empty, Lexeme.drawingLinesTokens]
        exact List.append_nil _
    | cons next program =>
      have parts : text (l :: next :: program) = l.text ++ '\n' :: text (next :: program) := by
        simp only [text, List.map_cons, Text.joinWith, List.append_assoc, List.singleton_append]
      rw [parts, Text.linesBreak l.unbroken, Lexeme.drawingLinesTokens, Lexeme.ofLine, read,
        ih (number + 1) later]
      rfl

theorem wellFormedProgramRead (tab : TabSize) (program : List Line) :
    (Drawing.ofText (.ok tab) (text program) .clear).tokens = tokens 1 program ∧
      (Drawing.ofText (.ok tab) (text program) .clear).fault = none := by
  rw [drawTextLexemes]
  exact ⟨linesRead 1 program ⟨rfl,rfl⟩,Lexeme.drawingLinesSound Rule.table 1 _ .clear⟩

theorem wellFormedProgramReadDirective :
    let source := "Dat\n\txLDA9\tlDa\txLDA9;x ".toList
    let drawing := Drawing.ofText (.ok .standard) source .clear
    ∃ program : List Line, text program = source ∧ drawing.tokens = tokens 1 program ∧ drawing.fault = none ∧
      tokens 1 program = [⟨.directive,"Dat".toList,1,1⟩,⟨.link,"xLDA9".toList,2,2⟩,⟨.keyword,"lDa".toList,2,8⟩,
        ⟨.var,"xLDA9".toList,2,12⟩,⟨.comment,";x".toList,2,17⟩] := by
  intro source drawing
  let gap : Run := ⟨⟨['\t'],by simp⟩,by simp⟩
  let name : Name := ⟨"xLDA9".toList,by simp,List.all_eq_true.mp rfl,by decide⟩
  let data : Statement := ⟨.dat,none,⟨"Dat".toList,rfl⟩,.bare (.inr (.inr rfl))⟩
  let load : Statement := ⟨.lda,some (⟨name,by simp [name, Text.isDigit],by decide⟩,gap),⟨"lDa".toList,rfl⟩,
    .operand (.inl rfl) gap name⟩
  let comment : Comment := ⟨';',"x ".toList,rfl,rfl,by simp [Text.Unbroken]⟩
  let blank : Gap := ⟨[],by simp⟩
  let program : List Line := [⟨blank,some data,blank,none⟩,⟨gap.toGap,some load,blank,some comment⟩]
  have written : text program = source := rfl
  obtain ⟨drawn,sound⟩ := wellFormedProgramRead .standard program
  rw [written] at drawn sound
  exact ⟨program,written,drawn,sound,rfl⟩

end Listing
end LittleMan
