import LittleMan.Proofs.Context

/-! What tokens look like. A tag says what its token is spelled as, or which characters it is made of and where it had
to end: digits and words that are due go as far as they can, and a comment up to the last character that is no blank.
Where one of the fixed words stands, no token of another kind begins. -/
namespace LittleMan
open Text (Blank Ends)

def Tag.words : Tag → List Text
  | .keyword => ["STA","STO","LDA","HLT","BRA","BRZ","BRP","ADD","SUB"].map String.toList
  | .ioKeyword => ["INP","OUT","OTC"].map String.toList
  | .directive => ["DAT".toList]
  | .link | .var | .number | .comment => []

/- A token by its tag, at the head of the rest of its line. A word may end inside a longer one only if nothing comes
before it on the line, for then it may be a label. -/
structure Token.Shaped (t : Token) (rest : Text) (preceded : Prop) : Prop where
  value : t.value <+: rest
  spelled : t.tag.words ≠ [] → t.value.map Text.foldCase ∈ t.tag.words
  number : t.tag = .number → t.value ≠ [] ∧ (∀ c ∈ t.value, Text.isDigit c = true) ∧
    Ends Text.isDigit (rest.drop t.value.length)
  word : t.tag = .link ∨ t.tag = .var → t.value ≠ [] ∧ (∀ c ∈ t.value, Text.isWord c = true) ∧
    (preceded → Ends Text.isWord (rest.drop t.value.length))
  comment : t.tag = .comment → (∃ c, t.value.getLast? = some c ∧ Text.isBlank c = false) ∧
    Blank (rest.drop t.value.length)
  unspelled : t.tag.words = [] → ∀ tag : Tag, ∀ word ∈ tag.words, ¬ word <+: rest.map Text.foldCase

theorem Tag.wordKeyword {tag : Tag} {word : Text} (member : word ∈ tag.words) : ∃ k : Keyword, k.spelling = word := by
  have listed : ∀ word ∈ tag.words, word ∈ Keyword.all.map Keyword.spelling := by cases tag <;> decide
  obtain ⟨k,_,same⟩ := List.mem_map.mp (listed word member)
  exact ⟨k,same⟩

theorem Pattern.runEnds {p : Char → Bool} {t : Text} {n : Nat} (found : run? p t = some n) : Ends p (t.drop n) := by
  unfold run? at found
  split at found <;> cases found
  exact Text.spanEnds p t

section
variable {atStart : Bool} {before : Flags} {rest : Text} {n : Nat} {rule : Rule}

theorem Verdict.judgedUnspelled {verdict : Verdict} {tag : Tag} (judged : judge Rule.table atStart before rest = verdict)
    (tagged : verdict.tag? = some tag) (free : tag.words = []) (other : Tag) :
    ∀ word ∈ other.words, ¬ word <+: rest.map Text.foldCase := by
  intro word member spelled
  obtain ⟨k,rfl⟩ := Tag.wordKeyword member
  rw [judgeKeyword (Keyword.atExact.mpr spelled)] at judged
  subst judged
  cases tagged
  revert free
  cases k <;> decide

theorem Rule.spelled (found : rule.length? atStart before rest = some n) (fixed : rule.tag.words ≠ []) :
    (rest.take n).map Text.foldCase ∈ rule.tag.words := by
  have role (role : Role) (found : (Pattern.keyword role).length? rest = some n) :
      (rest.take n).map Text.foldCase ∈ role.rule.tag.words := by
    obtain ⟨rfl,k,rfl,letters⟩ := Pattern.keywordSpelled found
    rw [letters]
    cases k <;> decide
  cases rule with
  | number | var | link => contradiction
  | io => exact role .io found
  | arithmetic => exact role .arithmetic found
  | branch => exact role .branch found
  | variabled => exact role .variabled found
  | other => exact role .other found
  | data => exact role .data found

theorem Rule.numberTaken (found : Rule.number.length? atStart before rest = some n) :
    (∀ c ∈ rest.take n, Text.isDigit c = true) ∧ Ends Text.isDigit (rest.drop n) := by
  rw [length?] at found
  split at found <;> try contradiction
  exact ⟨Pattern.runTaken found,Pattern.runEnds found⟩

theorem Rule.wordEnds (found : rule.length? atStart before rest = some n) (word : rule.tag = .link ∨ rule.tag = .var)
    (within : atStart = false) : Ends Text.isWord (rest.drop n) := by
  have due {label : Pattern} {due : Bool} (found : labelOrDue label atStart due rest = some n) :
      Ends Text.isWord (rest.drop n) := by
    rcases labelOrDueCases found with ⟨start,_⟩ | ⟨_,whole⟩
    · cases within.symm.trans start
    · exact Pattern.runEnds whole
  cases rule with
  | var => exact due found
  | link => exact due found
  | _ => rcases word with same | same <;> contradiction

theorem Rule.shaped (found : rule.length? atStart before rest = some n) (number column : Int)
    (unspelled : rule.tag.words = [] → ∀ tag : Tag, ∀ word ∈ tag.words, ¬ word <+: rest.map Text.foldCase) :
    Token.Shaped ⟨rule.tag,rest.take n,number,column⟩ rest (atStart = false) := by
  have bounds := lengthBounds found
  have length : (rest.take n).length = n := by rw [List.length_take, Nat.min_eq_left bounds.2]
  have filled : rest.take n ≠ [] := List.ne_nil_of_length_pos (by rw [length]; exact bounds.1)
  refine ⟨List.take_prefix n rest,Rule.spelled found,fun tagged => ?_,fun tagged => ?_,fun tagged => ?_,unspelled⟩
  · obtain rfl : rule = .number := by cases rule <;> first | rfl | contradiction
    dsimp only
    rw [length]
    exact ⟨filled,numberTaken found⟩
  · dsimp only
    rw [length]
    exact ⟨filled,wordsTaken found,wordEnds found tagged⟩
  · cases rule <;> contradiction

theorem Token.commentShaped {value : Text} {preceded : Prop} (within : value <+: rest) (number column : Int)
    (solid : ∃ c, value.getLast? = some c ∧ Text.isBlank c = false) (after : Blank (rest.drop value.length))
    (unspelled : ∀ tag : Tag, ∀ word ∈ tag.words, ¬ word <+: rest.map Text.foldCase) :
    Token.Shaped ⟨.comment,value,number,column⟩ rest preceded :=
  ⟨within,nofun,nofun,nofun,fun _ => ⟨solid,after⟩,fun _ => unspelled⟩

theorem Verdict.shaped {verdict : Verdict} {tag : Tag} (judged : judge Rule.table atStart before rest = verdict)
    (tagged : verdict.tag? = some tag) (number column : Int) :
    Token.Shaped ⟨tag,Text.trimEnd (rest.take (verdict.width rest)),number,column⟩ rest (atStart = false) := by
  have unspelled := judgedUnspelled judged tagged
  cases verdict with
  | newline => contradiction
  | skipped => contradiction
  | ruled rule n =>
    cases tagged
    obtain ⟨_,found⟩ := ruledJudged judged
    rw [width, ruledTrimmed found]
    exact Rule.shaped found number column unspelled
  | comment =>
    have solid := taggedSolid judged tagged
    cases tagged
    rw [width, List.take_length] at solid ⊢
    obtain ⟨gap,parts,blank⟩ := Text.trimEndParts rest
    have after : rest.drop (Text.trimEnd rest).length = gap := (congrArg (List.drop _) parts).trans List.drop_left
    exact Token.commentShaped ⟨gap,parts.symm⟩ number column solid.2 (by rw [after]; exact blank) (unspelled rfl)

end

theorem Token.Shaped.weaken {t : Token} {rest : Text} {preceded other : Prop} (shaped : t.Shaped rest preceded)
    (sure : other → preceded) : t.Shaped rest other := by
  refine {shaped with word := fun tagged => ?_}
  obtain ⟨filled,words,ends⟩ := shaped.word tagged
  exact ⟨filled,words,fun before => ends (sure before)⟩

theorem Text.indentReaches {t : Text} {offset : Nat} {c : Char} (found : t[offset]? = some c)
    (clear : isBlank c = false) : indent t ≤ offset := by
  by_contra beyond
  have inside : c ∈ t.take (indent t) := by
    rw [← List.getElem?_take_of_lt (Nat.lt_of_not_le beyond)] at found
    exact List.mem_of_getElem? found
  rw [indent, spanTake] at inside
  cases clear.symm.trans (List.mem_takeWhile_imp inside)

section
variable {text : Text} {tab : TabSize} {before : Flags} {t : Token}

theorem tokenUnit (member : t ∈ (Drawing.ofText (.ok tab) text before).tokens) : ∃ (index offset : Nat) (row : Text),
    (Text.lines text)[index]? = some row ∧ t.line = index + 1 ∧ t.column = offset + 1 ∧
      t.Shaped (row.drop offset) ((offset == Text.indent row) = false) := by
  rw [drawTextLexemes] at member
  obtain ⟨index,row,flags,l,found,unit,drawn⟩ := Lexeme.drawingLinesDrawn member
  obtain ⟨skipped,_,place,_,judged,taken⟩ := Lexeme.scanJudged unit
  obtain ⟨tag,tagged,rfl⟩ := Option.map_eq_some_iff.mp drawn
  rw [Nat.zero_add] at place
  rw [← place] at judged taken
  refine ⟨index,l.start,row,found,by dsimp only; omega,rfl,?_⟩
  rw [taken]
  exact Verdict.shaped judged tagged _ _

theorem precededWithin {s : Token} (member : s ∈ (Drawing.ofText (.ok tab) text before).tokens) {index offset : Nat}
    {row : Text} (found : (Text.lines text)[index]? = some row) (line : s.line = index + 1)
    (column : s.column < offset + 1) : (offset == Text.indent row) = false := by
  obtain ⟨⟨⟨c,head,clear⟩,_⟩,other,place,row',found',line',column',value⟩ := laidLinesTokens (laidText tab text before) member
  obtain rfl : other = index := by omega
  cases Option.some.inj (found.symm.trans found')
  have first : row[place]? = some c := by
    rw [← value, List.head?_take, List.head?_drop] at head
    split at head <;> first | contradiction | exact head
  have reaches := Text.indentReaches first clear
  rw [beq_eq_false_iff_ne]
  omega

end

theorem tokensShaped (tab : TabSize) (text : Text) (before : Flags) :
    let tokens := (Drawing.ofText (.ok tab) text before).tokens
    ∀ t ∈ tokens, ∃ (index offset : Nat) (row : Text), (Text.lines text)[index]? = some row ∧
      t.line = index + 1 ∧ t.column = offset + 1 ∧
      t.Shaped (row.drop offset) (∃ s ∈ tokens, s.line = t.line ∧ s.column < t.column) := by
  intro tokens t member
  obtain ⟨index,offset,row,found,line,column,shaped⟩ := tokenUnit member
  refine ⟨index,offset,row,found,line,column,shaped.weaken ?_⟩
  rintro ⟨s,earlier,same,less⟩
  exact precededWithin earlier found (same.trans line) (column ▸ less)

theorem tokensShapedGlued :
    let tokens := (Drawing.ofText (.ok .standard) "\tADDRESS 12".toList .clear).tokens
    let t : Token := ⟨.var,"RESS".toList,1,5⟩
    t ∈ tokens ∧ t.Shaped "RESS 12".toList (∃ s ∈ tokens, s.line = 1 ∧ s.column < 5) := by
  intro tokens t
  have member : t ∈ tokens := by decide +kernel
  obtain ⟨index,offset,row,found,line,column,shaped⟩ := tokensShaped .standard _ .clear t member
  obtain rfl : index = 0 := by dsimp only [t] at line; omega
  obtain rfl : offset = 4 := by dsimp only [t] at column; omega
  cases Option.some.inj found
  exact ⟨member,shaped⟩

example : (Drawing.ofText (.ok .standard) "XDAT 3".toList .clear).tokens =
    [⟨.var,"X".toList,1,1⟩,⟨.directive,"DAT".toList,1,2⟩,⟨.number,"3".toList,1,6⟩] := by decide +kernel

end LittleMan
