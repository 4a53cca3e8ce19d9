import LittleMan.Proofs.ListingTokens

/-! Labels of instructions. A word before an instruction is a link to it, unless the data directive stands inside
the word: neither pattern asks where a word ends, and the one for labels of data comes first. -/
namespace LittleMan.Listing
open Text (Blank Unbroken)
variable {k : Keyword}

theorem indentRead (number : Int) (head start : Nat) {indent : Text} (blank : Blank indent)
    (unbroken : Unbroken indent) (more : Text) :
    (Lexeme.scan Rule.table head start (indent ++ more) .clear).filterMap (Lexeme.token? number) =
      (Lexeme.scan Rule.table head (start + indent.length) more .clear).filterMap (Lexeme.token? number) := by
  induction indent generalizing start with
  | nil => rfl
  | cons c indent ih =>
    have judged : Verdict.judge Rule.table (start == head) .clear ([c] ++ (indent ++ more)) = .skipped :=
      Verdict.judgeBlank (blank c List.mem_cons_self) (unbroken c List.mem_cons_self).2
    have one : Verdict.skipped.width ([c] ++ (indent ++ more)) = [c].length := by simp [Verdict.width]
    have passed := Lexeme.scanTaken (List.cons_ne_nil c []) judged one
    have later := ih (start + 1) (fun d member => blank d (List.mem_cons_of_mem c member))
      fun d member => unbroken d (List.mem_cons_of_mem c member)
    rw [List.length_cons, Nat.add_comm indent.length, ← Nat.add_assoc, ← later]
    exact (congrArg (List.filterMap (Lexeme.token? number)) passed).trans (List.filterMap_cons_none rfl)

theorem spelledRead (number : Int) (head start : Nat) (before : Flags) (word : Spelled k) (tail : Text) :
    ∃ more, (Lexeme.scan Rule.table head start (word.text ++ tail) before).filterMap (Lexeme.token? number) =
      token (keywordTag k.role) word.text number start :: more := by
  have tag : keywordTag k.role = k.role.rule.tag := by cases k.role <;> rfl
  have ahead : word.text ++ tail ≠ [] := List.append_ne_nil_of_left_ne_nil word.filled tail
  have judged : Verdict.judge Rule.table (start == head) before (word.text ++ tail) = .ruled k.role.rule 3 :=
    Verdict.judgeKeyword (word.found tail)
  have value := Verdict.ruledTrimmed (Verdict.ruledJudged judged).2
  have letters : (word.text ++ tail).take 3 = word.text := List.take_left' word.length
  rw [letters] at value
  have given : Lexeme.token? number ⟨start,.ruled k.role.rule 3,(word.text ++ tail).take _⟩ = some _ :=
    congrArg some (congrArg (token k.role.rule.tag · number start) value)
  rw [Lexeme.scanStep ahead judged, tag]
  exact ⟨_,List.filterMap_cons_some given⟩

theorem directiveInside (name : Name) (inside : Keyword.dat.spelling <:+: name.text.map Text.foldCase) (more : Text) :
    ∃ n, Pattern.dataLabel.length? (name.text ++ more) = some n := by
  obtain ⟨first,last,split⟩ := inside
  have further : first ≠ [] := by
    rintro rfl
    exact name.free .dat (Keyword.memAll .dat) ⟨last,by rw [← split, List.nil_append]⟩
  have fits : first.length < name.text.length := by
    have lengths := congrArg List.length split
    rw [List.length_append, List.length_append, List.length_map, Keyword.spellingLength] at lengths
    omega
  have spelled : Keyword.dat.spelling <+: (name.text.drop first.length ++ more).map Text.foldCase := by
    rw [List.map_append, List.map_drop, ← split, List.append_assoc, List.drop_left, List.append_assoc]
    exact List.prefix_append _ _
  have left : name.text.drop first.length ≠ [] := by
    rw [ne_eq, List.drop_eq_nil_iff]
    omega
  have follows : Pattern.leadsTo (· == .data) ((name.text ++ more).drop first.length) = true := by
    rw [List.drop_append_of_le_length (Nat.le_of_lt fits),
      Pattern.leadsToSolid (wordStops left fun c member => name.word c (List.mem_of_mem_drop member))]
    exact startsWithRoleExact.mpr ⟨.dat,rfl,spelled⟩
  have words : ∀ c ∈ (name.text ++ more).take first.length, Text.isWord c = true := by
    rw [List.take_append_of_le_length (Nat.le_of_lt fits)]
    exact fun c member => name.word c (List.mem_of_mem_take member)
  have whole : first.length ≤ (name.text ++ more).length := by
    rw [List.length_append]
    omega
  obtain ⟨n,found,_⟩ := Pattern.labelLengthGreatest (List.length_pos_iff.mpr further) whole words follows
  exact ⟨n,found⟩

theorem lineTokens (tab : TabSize) (number : Int) {indent : Text} (blank : Blank indent)
    (unbroken : Unbroken indent) (name : Name) (more : Text) :
    (Drawing.ofLine (.ok tab) number (indent ++ (name.text ++ more)) .clear).tokens =
      (Lexeme.scan Rule.table indent.length indent.length (name.text ++ more) .clear).filterMap
        (Lexeme.token? number) := by
  have drawn : Drawing.ofLine (.ok tab) number (indent ++ (name.text ++ more)) .clear = _ :=
    drawLineLexemes Rule.table tab number _ .clear
  have head : Text.indent (indent ++ (name.text ++ more)) = indent.length :=
    Text.spanExact blank (wordStops name.filled name.word)
  have read := indentRead number indent.length 0 blank unbroken (name.text ++ more)
  rw [drawn, Lexeme.drawingTokens, Lexeme.ofLine, head, read, Nat.zero_add]

theorem labelLinks (tab : TabSize) (number : Int) {indent : Text} (blank : Blank indent) (unbroken : Unbroken indent)
    (name : Name) (gap : Run) (instruction : k ≠ .dat) (word : Spelled k) (tail : Text) :
    let line := indent ++ (name.text ++ (gap.text ++ (word.text ++ tail)))
    let place := indent.length + name.text.length + gap.text.length
    (∃ more, (Drawing.ofLine (.ok tab) number line .clear).tokens =
      token .link name.text number indent.length :: token (keywordTag k.role) word.text number place :: more) ↔
        ¬ Keyword.dat.spelling <:+: name.text.map Text.foldCase := by
  intro line place
  have tokens : (Drawing.ofLine (.ok tab) number line .clear).tokens = _ := lineTokens tab number blank unbroken name _
  have here : (indent.length == indent.length) = true := beq_self_eq_true _
  have found := word.found tail
  have other : k.role ≠ .data := fun data => instruction (roleData data)
  have calm : Flags.clear.Calm := ⟨rfl,rfl⟩
  rw [tokens]
  constructor
  · rintro ⟨more,read⟩ inside
    obtain ⟨n,takes⟩ := directiveInside name inside (gap.text ++ (word.text ++ tail))
    have free := Keyword.atNoneWithin (gap.ends (word.text ++ tail)) name.free
    have judged : Verdict.judge Rule.table (indent.length == indent.length) .clear
        (name.text ++ (gap.text ++ (word.text ++ tail))) = .ruled .var n := by
      rw [here]
      refine Verdict.judgeVar rfl free ?_
      simp only [Rule.length?, Rule.labelOrDue, if_true, takes]
    rw [Lexeme.scanStep (List.append_ne_nil_of_left_ne_nil name.filled _) judged, List.filterMap_cons] at read
    cases congrArg Token.tag (List.cons.inj read).1
  · intro quiet
    have judged : Verdict.judge Rule.table (indent.length == indent.length) .clear
        (name.text ++ (gap.text ++ (word.text ++ tail))) = .ruled .link name.text.length := by
      rw [here]
      exact linkJudged name gap found other quiet rfl calm
    obtain ⟨more,read⟩ := spelledRead number indent.length place .clear word tail
    refine ⟨more,?_⟩
    rw [scanUnit name.filled (gapBlank gap.plain) (wordStops word.filled word.words) judged, List.filterMap_cons,
      unitToken name.filled name.word (gapBlank gap.plain)]
    exact congrArg (_ :: ·) read

theorem labelLinksInside :
    let name : Name := ⟨"xLDA9".toList,by simp,List.all_eq_true.mp rfl,by decide⟩
    let gap : Run := ⟨⟨['\t'],by simp⟩,by simp⟩
    let word : Spelled .brz := ⟨"bRz".toList,rfl⟩
    let line := "\u00a0\t".toList ++ (name.text ++ (gap.text ++ (word.text ++ " END".toList)))
    ∃ more, (Drawing.ofLine (.ok .standard) 1 line .clear).tokens =
      token .link name.text 1 2 :: token .keyword word.text 1 8 :: more := by
  intro name gap word line
  have blank : Blank "\u00a0\t".toList := List.all_eq_true.mp rfl
  have unbroken : Unbroken "\u00a0\t".toList := by simp [Unbroken]
  have quiet : ¬ Keyword.dat.spelling <:+: name.text.map Text.foldCase := by decide +kernel
  exact (labelLinks .standard 1 blank unbroken name gap (by decide) word " END".toList).mpr quiet

theorem updateUnlinked :
    let name : Name := ⟨"UPDATE".toList,by simp,List.all_eq_true.mp rfl,by decide⟩
    let gap : Run := ⟨⟨[' '],by simp⟩,by simp⟩
    let word : Spelled .hlt := ⟨"HLT".toList,rfl⟩
    let tokens := (Drawing.ofLine (.ok .standard) 1 (name.text ++ (gap.text ++ word.text)) .clear).tokens
    tokens = [⟨.var,"UP".toList,1,1⟩,⟨.directive,"DAT".toList,1,3⟩,⟨.comment,"E HLT".toList,1,6⟩] ∧
      ¬ ∃ more, tokens = token .link name.text 1 0 :: token .keyword word.text 1 7 :: more := by
  intro name gap word tokens
  have read : tokens =
      [⟨.var,"UP".toList,1,1⟩,⟨.directive,"DAT".toList,1,3⟩,⟨.comment,"E HLT".toList,1,6⟩] := by decide +kernel
  refine ⟨read,?_⟩
  rintro ⟨more,linked⟩
  cases congrArg Token.tag (List.cons.inj (read.symm.trans linked)).1

end LittleMan.Listing
