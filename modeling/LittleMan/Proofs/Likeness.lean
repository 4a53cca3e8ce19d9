import Mathlib.Data.List.Forall2
import LittleMan.Proofs.Lexemes
import LittleMan.Proofs.Recognition
import LittleMan.Proofs.WrittenLines

/-! Characters that are read alike. All that is asked of a character is whether it is a blank, a word character or
a digit, which letter it is in either case, and whether it ends a line. Texts that give the same answers, character
by character, come apart into the same units. -/
namespace LittleMan

def Token.site (t : Token) : Tag × Int × Int := (t.tag,t.line,t.column)

namespace Text

structure Even (R : Char → Char → Prop) : Prop where
  blank {c d : Char} : R c d → isBlank c = isBlank d
  word {c d : Char} : R c d → isWord c = isWord d
  digit {c d : Char} : R c d → isDigit c = isDigit d
  letter {w c d : Char} : 65 ≤ w.toNat ∧ w.toNat ≤ 90 → R c d → (foldCase c == w) = (foldCase d == w)
  carriage {c d : Char} : R c d → (c = '\r' ↔ d = '\r')
  feed {c d : Char} : R c d → (c = '\n' ↔ d = '\n')

/- The blanks at the head of both are ASCII blanks only, or of neither, or no keyword comes after them. -/
def SameLead (t u : Text) : Prop :=
  (t.takeWhile isBlank).all isAsciiBlank = (u.takeWhile isBlank).all isAsciiBlank ∨
    Keyword.at? (t.dropWhile isBlank) = none

def pastWord (line : Text) : Text := (line.drop (indent line)).dropWhile isWord

end Text

open Text (Even SameLead)

variable {R : Char → Char → Prop} {t u : Text}

namespace Text
variable {p : Char → Bool}

theorem spanAlike (alike : List.Forall₂ R t u) (same : ∀ {c d}, R c d → p c = p d) : span p t = span p u := by
  induction alike with
  | nil => rfl
  | @cons c d t u related rest ih =>
    rw [span] at ih
    rw [span, span, List.takeWhile_cons, List.takeWhile_cons, same related]
    split
    · rw [List.length_cons, List.length_cons, ih]
      rfl
    · rfl

theorem pastAlike (alike : List.Forall₂ R t u) (same : ∀ {c d}, R c d → p c = p d) :
    List.Forall₂ R (t.dropWhile p) (u.dropWhile p) := by
  induction alike with
  | nil => exact .nil
  | @cons c d t u related rest ih =>
    rw [List.dropWhile_cons, List.dropWhile_cons, same related]
    split
    · exact ih
    · exact .cons related rest

theorem pastWordAlike (even : Even R) (alike : List.Forall₂ R t u) : List.Forall₂ R (pastWord t) (pastWord u) := by
  rw [pastWord, pastWord, indent, indent, ← spanAlike alike even.blank]
  exact pastAlike (List.forall₂_drop _ alike) even.word

theorem startsAlike (even : Even R) (alike : List.Forall₂ R t u) {word : Text}
    (capitals : ∀ w ∈ word, 65 ≤ w.toNat ∧ w.toNat ≤ 90) : startsFolded word t = startsFolded word u := by
  induction word generalizing t u with
  | nil => rw [startsFolded, startsFolded]
  | cons w word ih =>
    cases alike with
    | nil => rfl
    | @cons c d t u related rest =>
      rw [startsFolded, startsFolded, even.letter (capitals w List.mem_cons_self) related,
        ih rest fun v later => capitals v (List.mem_cons_of_mem w later)]

theorem trimAlike (even : Even R) (alike : List.Forall₂ R t u) : List.Forall₂ R (trimEnd t) (trimEnd u) :=
  List.forall₂_reverse_iff.mpr (pastAlike (List.forall₂_reverse_iff.mpr alike) even.blank)

theorem SameLead.within (even : Even R) (alike : List.Forall₂ R t u)
    (lead : SameLead (t.dropWhile isWord) (u.dropWhile isWord)) : SameLead t u := by
  cases alike with
  | nil => exact lead
  | @cons c d t u related rest =>
    have same := even.word related
    rw [List.dropWhile_cons, List.dropWhile_cons, ← same] at lead
    cases word : isWord c with
    | false =>
      rw [word] at lead
      exact lead
    | true =>
      rw [word] at same
      rw [SameLead, List.takeWhile_cons, List.takeWhile_cons, wordSolid word, wordSolid same.symm]
      exact .inl rfl

structure PartsAlike (R : Char → Char → Prop) (parts others : List (Text × Break) × Text) : Prop where
  rows : List.Forall₂ (fun row other => List.Forall₂ R row.1 other.1 ∧ row.2 = other.2) parts.1 others.1
  last : List.Forall₂ R parts.2 others.2

section
variable {parts others : List (Text × Break) × Text}

theorem PartsAlike.ended (alike : PartsAlike R parts others) (b : Break) :
    PartsAlike R (endFirst b parts) (endFirst b others) :=
  ⟨.cons ⟨.nil,rfl⟩ alike.rows,alike.last⟩

theorem PartsAlike.joined (alike : PartsAlike R parts others) {c d : Char} (related : R c d) :
    PartsAlike R (joinFirst [c] parts) (joinFirst [d] others) := by
  obtain ⟨_,_⟩ := parts
  obtain ⟨_,_⟩ := others
  obtain ⟨rows,last⟩ := alike
  cases rows with
  | nil => exact ⟨.nil,.cons related last⟩
  | cons first more => exact ⟨.cons ⟨.cons related first.1,first.2⟩ more,last⟩

end

theorem breakUpAlike (even : Even R) (alike : List.Forall₂ R t u) : PartsAlike R (breakUp t) (breakUp u) := by
  induction t using breakUp.induct generalizing u with
  | case1 =>
    cases alike
    exact ⟨.nil,.nil⟩
  | case2 rest ih =>
    obtain ⟨d,us,carriage,more,rfl⟩ := List.forall₂_cons_left_iff.mp alike
    obtain ⟨e,us,feed,rest,rfl⟩ := List.forall₂_cons_left_iff.mp more
    cases (even.carriage carriage).mp rfl
    cases (even.feed feed).mp rfl
    exact (ih rest).ended .crlf
  | case3 rest single ih =>
    obtain ⟨d,us,carriage,more,rfl⟩ := List.forall₂_cons_left_iff.mp alike
    cases (even.carriage carriage).mp rfl
    have alone (later : Text) (same : us = '\n' :: later) : False := by
      rw [same] at more
      obtain ⟨c,ts,feed,_,rfl⟩ := List.forall₂_cons_right_iff.mp more
      exact single ts (by rw [(even.feed feed).mpr rfl])
    rw [breakUp.eq_3 rest single, breakUp.eq_3 us alone]
    exact (ih more).ended .cr
  | case4 rest ih =>
    obtain ⟨d,us,feed,more,rfl⟩ := List.forall₂_cons_left_iff.mp alike
    cases (even.feed feed).mp rfl
    exact (ih more).ended .lf
  | case5 c rest _ carriage feed ih =>
    obtain ⟨d,us,related,more,rfl⟩ := List.forall₂_cons_left_iff.mp alike
    rw [breakUpOrdinary carriage feed, breakUpOrdinary (mt (even.carriage related).mpr carriage)
      (mt (even.feed related).mpr feed)]
    exact (ih more).joined related

theorem writtenLength {rows others : List (Text × Break)}
    (alike : List.Forall₂ (fun row other => List.Forall₂ R row.1 other.1 ∧ row.2 = other.2) rows others) :
    (writeLines rows []).length = (writeLines others []).length := by
  induction alike with
  | nil => rfl
  | cons same rest ih => simp only [writeLines, List.length_append, same.1.length_eq, same.2, ih]

theorem rowStartAlike (even : Even R) (alike : List.Forall₂ R t u) (index : Nat) : rowStart t index = rowStart u index :=
  writtenLength (List.forall₂_take index (breakUpAlike even alike).rows)

theorem linesAlike (even : Even R) (alike : List.Forall₂ R t u) :
    List.Forall₂ (List.Forall₂ R) (lines t) (lines u) := by
  obtain ⟨rows,last⟩ := breakUpAlike even alike
  rw [linesBreakUp, linesBreakUp]
  refine List.rel_append ?_ ?_
  · exact List.forall₂_map_left_iff.mpr (List.forall₂_map_right_iff.mpr (rows.imp fun _ _ same => same.1))
  · revert last
    generalize (breakUp t).2 = last
    generalize (breakUp u).2 = other
    intro last
    cases last with
    | nil => exact .nil
    | cons related rest => exact .cons (.cons related rest) .nil

end Text

theorem Keyword.atAlike (even : Even R) (alike : List.Forall₂ R t u) : at? t = at? u := by
  rw [at?, at?]
  congr 1
  funext k
  exact Text.startsAlike even alike fun _ member => spellingCapital member

theorem startsAlike (even : Even R) (alike : List.Forall₂ R t u) (p : Role → Bool) :
    startsWithRole p t = startsWithRole p u := by
  rw [startsWithRole, startsWithRole, Keyword.atAlike even alike]

namespace Pattern

theorem startsBlank {c : Char} (blank : Text.isBlank c = true) (p : Role → Bool) (t : Text) :
    startsWithRole p (c :: t) = false := by
  rw [startsWithRole]
  cases found : Keyword.at? (c :: t) with
  | none => rfl
  | some k =>
    obtain ⟨d,more,head,word,_⟩ := Keyword.atHead found
    cases head
    cases (Text.wordSolid word).symm.trans blank

theorem leadsToExact (p : Role → Bool) (t : Text) : leadsTo p t =
    ((t.takeWhile Text.isBlank).all Text.isAsciiBlank && startsWithRole p (t.dropWhile Text.isBlank)) := by
  induction t with
  | nil => rfl
  | cons c t ih =>
    cases ascii : Text.isAsciiBlank c with
    | true =>
      have blank := Text.asciiIsBlank ascii
      rw [leadsTo] at ih ⊢
      simp only [List.dropWhile_cons, List.takeWhile_cons, ascii, blank, if_true, ih, List.all_cons, Bool.true_and]
    | false =>
      have stays : leadsTo p (c :: t) = startsWithRole p (c :: t) := by
        rw [leadsTo, List.dropWhile_cons, ascii]
        rfl
      rw [stays]
      cases blank : Text.isBlank c with
      | true =>
        rw [startsBlank blank, List.takeWhile_cons, blank]
        simp only [if_true, List.all_cons, ascii, Bool.false_and]
      | false =>
        rw [List.takeWhile_cons, List.dropWhile_cons, blank]
        rfl

theorem leadsToAlike (even : Even R) (alike : List.Forall₂ R t u) (lead : SameLead t u) (p : Role → Bool) :
    leadsTo p t = leadsTo p u := by
  have starts := startsAlike even (Text.pastAlike alike even.blank) p
  rw [leadsToExact, leadsToExact]
  rcases lead with same | free
  · rw [same, starts]
  · have nothing : startsWithRole p (t.dropWhile Text.isBlank) = false := by rw [startsWithRole, free]
    rw [← starts, nothing, Bool.and_false, Bool.and_false]

theorem labelAlike (even : Even R) (alike : List.Forall₂ R t u)
    (lead : SameLead (t.dropWhile Text.isWord) (u.dropWhile Text.isWord)) (p : Role → Bool) :
    labelLength? (leadsTo p) t = labelLength? (leadsTo p) u := by
  induction alike with
  | nil => rfl
  | @cons c d t u related rest ih =>
    have same := even.word related
    rw [List.dropWhile_cons, List.dropWhile_cons, ← same] at lead
    rw [labelLength?, labelLength?, ← same]
    cases word : Text.isWord c with
    | false => rfl
    | true =>
      rw [word] at lead
      rw [ih lead, leadsToAlike even rest (.within even rest lead)]

theorem runAlike {p : Char → Bool} (alike : List.Forall₂ R t u) (same : ∀ {c d}, R c d → p c = p d) :
    run? p t = run? p u := by
  rw [run?, run?, Text.spanAlike alike same]

theorem newlineAlike (even : Even R) (alike : List.Forall₂ R t u) : newline.length? t = newline.length? u := by
  cases alike with
  | nil => rfl
  | @cons c d t u related rest =>
    simp only [length?, List.head?_cons, Option.some.injEq, even.feed related]

theorem lengthAlike (even : Even R) (alike : List.Forall₂ R t u) (p : Pattern)
    (lead : p.isLabel = true → SameLead (t.dropWhile Text.isWord) (u.dropWhile Text.isWord)) :
    p.length? t = p.length? u := by
  cases p with
  | newline => exact newlineAlike even alike
  | digits => exact runAlike alike even.digit
  | keyword role => rw [length?, length?, startsAlike even alike]
  | dataLabel => exact labelAlike even alike (lead rfl) _
  | instructionLabel => exact labelAlike even alike (lead rfl) _
  | word => exact runAlike alike even.word
  | comment => exact runAlike alike fun related => congrArg (! ·) (even.blank related)

end Pattern

theorem Verdict.judgeAlike (table : List Rule) (atStart : Bool) (before : Flags) (even : Even R)
    (alike : List.Forall₂ R t u)
    (lead : atStart = true → SameLead (t.dropWhile Text.isWord) (u.dropWhile Text.isWord)) :
    judge table atStart before t = judge table atStart before u :=
  judgedAlike fun p start => Pattern.lengthAlike even alike p fun label => lead (start label)

theorem Verdict.widthAlike (even : Even R) (alike : List.Forall₂ R t u) (verdict : Verdict) :
    verdict.width t = verdict.width u := by
  cases verdict with
  | newline => rfl
  | ruled rule n => rw [width, width, Text.indent, Text.indent, Text.spanAlike (List.forall₂_drop n alike) even.blank]
  | comment => exact alike.length_eq
  | skipped => rw [width, width, alike.length_eq]

structure Token.Like (R : Char → Char → Prop) (t u : Token) : Prop where
  site : t.site = u.site
  value : List.Forall₂ R t.value u.value

theorem Token.sitesAlike {ts us : List Token} (like : List.Forall₂ (Token.Like R) ts us) :
    ts.map Token.site = us.map Token.site := by
  induction like with
  | nil => rfl
  | cons same rest ih => rw [List.map_cons, List.map_cons, same.site, ih]

namespace Lexeme

def site (l : Lexeme) : Nat × Verdict := (l.start,l.verdict)

structure Like (R : Char → Char → Prop) (l m : Lexeme) : Prop where
  site : l.site = m.site
  text : List.Forall₂ R l.text m.text

theorem scanAlike (table : List Rule) (head start : Nat) (before : Flags) (even : Even R) (alike : List.Forall₂ R t u)
    (lead : ∀ skipped, start + skipped = head →
      SameLead ((t.drop skipped).dropWhile Text.isWord) ((u.drop skipped).dropWhile Text.isWord)) :
    List.Forall₂ (Like R) (scan table head start t before) (scan table head start u before) := by
  -- Only the head of the statement is read for a label, so only what follows its word matters.
  induction left : t.length using Nat.strongRecOn generalizing start t u before with
  | ind left ih =>
    by_cases done : t = []
    · subst done
      cases alike
      rw [scanNil]
      exact .nil
    · have ahead : u ≠ [] := by
        rw [← List.length_pos_iff, ← alike.length_eq]
        exact List.length_pos_iff.mpr done
      have judged := Verdict.judgeAlike table (start == head) before even alike fun here =>
        lead 0 (beq_iff_eq.mp here)
      generalize verdict : Verdict.judge table (start == head) before t = v at judged
      have bounds := Verdict.widthBounds table (start == head) before done
      rw [verdict] at bounds
      have width := Verdict.widthAlike even alike v
      have later := ih (t.length - v.width t) (by omega) (start + v.width t) v.flags
        (List.forall₂_drop (v.width t) alike)
        (fun skipped place => by
          rw [List.drop_drop, List.drop_drop]
          exact lead (v.width t + skipped) (by omega)) List.length_drop
      rw [scanStep done verdict, scanStep ahead judged.symm, ← width]
      exact .cons ⟨rfl,List.forall₂_take _ alike⟩ later

theorem lineAlike (table : List Rule) (before : Flags) {line other : Text} (even : Even R)
    (alike : List.Forall₂ R line other) (lead : SameLead (Text.pastWord line) (Text.pastWord other)) :
    List.Forall₂ (Like R) (ofLine table line before) (ofLine table other before) := by
  have head : Text.indent line = Text.indent other := Text.spanAlike alike even.blank
  rw [ofLine, ofLine, ← head]
  refine scanAlike table _ 0 before even alike fun skipped place => ?_
  rw [← place, Nat.zero_add] at head
  rw [Text.pastWord, Text.pastWord, ← head, ← place, Nat.zero_add] at lead
  exact lead

variable {ls ms : List Lexeme}

theorem tokensAlike (even : Even R) (like : List.Forall₂ (Like R) ls ms) (number : Int) :
    List.Forall₂ (Token.Like R) (ls.filterMap (token? number)) (ms.filterMap (token? number)) := by
  induction like with
  | nil => exact .nil
  | @cons l m ls ms same rest ih =>
    obtain ⟨start,verdict⟩ := Prod.mk.inj same.site
    have text := Text.trimAlike even same.text
    rw [List.filterMap_cons, List.filterMap_cons, token?, token?, ← verdict, ← start]
    cases l.verdict.tag? with
    | none => exact ih
    | some tag => exact .cons ⟨rfl,text⟩ ih

theorem afterAlike (like : List.Forall₂ (Like R) ls ms) (before : Flags) : after before ls = after before ms := by
  induction like generalizing before with
  | nil => rfl
  | cons same rest ih => rw [afterCons, afterCons, (Prod.mk.inj same.site).2, ih]

theorem drawingAlike (table : List Rule) (number : Nat) (before : Flags) (even : Even R) {rows others : List Text}
    (alike : List.Forall₂ (fun line other => List.Forall₂ R line other ∧
      SameLead (Text.pastWord line) (Text.pastWord other)) rows others) :
    List.Forall₂ (Token.Like R) (drawingLines table number rows before).tokens
        (drawingLines table number others before).tokens ∧
      (drawingLines table number rows before).flags = (drawingLines table number others before).flags := by
  induction alike generalizing number before with
  | nil => exact ⟨.nil,rfl⟩
  | cons same rest ih =>
    have like := lineAlike table before even same.1 same.2
    obtain ⟨tokens,flags⟩ := ih (number + 1) (after before (ofLine table _ before))
    rw [drawingLinesTokens, drawingLinesTokens, ← afterAlike like]
    refine ⟨List.rel_append (tokensAlike even like number) tokens,?_⟩
    rw [drawingLines, drawingLines, Drawing.andThen, Drawing.andThen]
    simp only [drawing, ← afterAlike like, flags]

end Lexeme
end LittleMan
