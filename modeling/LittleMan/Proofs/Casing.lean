import Mathlib.Data.List.Infix
import LittleMan.Proofs.Coverage
import LittleMan.Proofs.Likeness

/-! Letters in the other case. Whichever letters of a document are put in the other case, the same tokens are drawn
of it, with those of their letters in the other case too. -/
namespace LittleMan
namespace Text

def swapCase (c : Char) : Char := if 'A' ≤ c && c ≤ 'Z' then Char.ofNat (c.toNat + 32) else foldCase c

def recase (flips : Nat → Bool) (t : Text) : Text := t.mapIdx fun n c => if flips n then swapCase c else c

def SameFolded (c d : Char) : Prop := foldCase c = foldCase d

def Letter (c : Char) : Prop := (65 ≤ c.toNat ∧ c.toNat ≤ 90) ∨ (97 ≤ c.toNat ∧ c.toNat ≤ 122)

theorem swapCaseNumber (c : Char) :
    (swapCase c).toNat = if 65 ≤ c.toNat ∧ c.toNat ≤ 90 then c.toNat + 32 else (foldCase c).toNat := by
  have capital : ('A' ≤ c && c ≤ 'Z') = true ↔ 65 ≤ c.toNat ∧ c.toNat ≤ 90 := rangeNumbers
  simp only [swapCase, capital]
  split
  · exact numbered (by omega)
  · rfl

theorem swapFolded (c : Char) : foldCase (swapCase c) = foldCase c := by
  have swapped := swapCaseNumber c
  have folded := foldCaseNumber c
  have again := foldCaseNumber (swapCase c)
  apply Char.toNat_inj.mp
  split at swapped <;> split at folded <;> split at again <;> omega

theorem foldedLetters {c d : Char} (same : SameFolded c d) : c = d ∨ Letter c ∧ Letter d := by
  have numbers := congrArg Char.toNat same
  rw [foldCaseNumber, foldCaseNumber] at numbers
  by_cases equal : c.toNat = d.toNat
  · exact .inl (Char.toNat_inj.mp equal)
  · refine .inr ?_
    rw [Letter, Letter]
    split at numbers <;> split at numbers <;> omega

theorem Letter.word {c : Char} (letter : Letter c) : isWord c = true := by
  rw [wordRange]
  rw [Letter] at letter
  omega

theorem Letter.undigited {c : Char} (letter : Letter c) : isDigit c = false := by
  rw [Bool.eq_false_iff, ne_eq, digitRange]
  rw [Letter] at letter
  omega

theorem Letter.solid {c : Char} (letter : Letter c) : isBlank c = false := wordSolid letter.word

theorem Letter.unspaced {c : Char} (letter : Letter c) : isAsciiBlank c = false := by
  rw [Bool.eq_false_iff]
  intro blank
  cases letter.solid.symm.trans (asciiIsBlank blank)

theorem Letter.ordinary {c d : Char} (letter : Letter c) (blank : isBlank d = true) : c ≠ d := by
  rintro rfl
  cases letter.solid.symm.trans blank

theorem Letter.same {p : Char → Bool} {value : Bool} (steady : ∀ c, Letter c → p c = value) {c d : Char}
    (same : SameFolded c d) : p c = p d := by
  rcases foldedLetters same with rfl | ⟨letter,other⟩
  · rfl
  · exact (steady c letter).trans (steady d other).symm

theorem evenCases : Even SameFolded where
  blank := Letter.same fun _ letter => letter.solid
  word := Letter.same fun _ letter => letter.word
  digit := Letter.same fun _ letter => letter.undigited
  letter _ same := congrArg (· == _) same
  carriage same := by
    rcases foldedLetters same with rfl | ⟨letter,other⟩
    · rfl
    · exact iff_of_false (letter.ordinary rfl) (other.ordinary rfl)
  feed same := by
    rcases foldedLetters same with rfl | ⟨letter,other⟩
    · rfl
    · exact iff_of_false (letter.ordinary rfl) (other.ordinary rfl)

variable {t u : Text}

theorem recasedAlike (flips : Nat → Bool) (t : Text) :
    List.Forall₂ SameFolded t (recase flips t) := by
  rw [recase]
  induction t generalizing flips with
  | nil => exact .nil
  | cons c t ih =>
    rw [List.mapIdx_cons]
    refine .cons ?_ (ih (flips <| · + 1))
    split
    · exact (swapFolded c).symm
    · rfl

theorem recaseCut (flips : Nat → Bool) (t : Text) (place length : Nat) :
    ((recase flips t).drop place).take length = recase (fun n => flips (place + n)) ((t.drop place).take length) := by
  refine List.ext_getElem? fun n => ?_
  rw [recase, recase, List.getElem?_mapIdx, List.getElem?_take, List.getElem?_take, List.getElem?_drop,
    List.getElem?_drop, List.getElem?_mapIdx]
  split <;> rfl

theorem leadAlike (alike : List.Forall₂ SameFolded t u) : SameLead t u := by
  refine .inl ?_
  induction alike with
  | nil => rfl
  | @cons c d t u same rest ih =>
    have ascii : isAsciiBlank c = isAsciiBlank d := Letter.same (fun _ letter => letter.unspaced) same
    rw [List.takeWhile_cons, List.takeWhile_cons, evenCases.blank same]
    split
    · rw [List.all_cons, List.all_cons, ascii, ih]
    · rfl

end Text

open Text (recase rowStart)

structure Token.StandsAt (t : Token) (source : Text) (place : Nat) : Prop where
  site : ∃ index offset : Nat, t.line = index + 1 ∧ t.column = offset + 1 ∧ place = rowStart source index + offset
  value : t.value <+: source.drop place

theorem tokenStands {tab : TabSize} {source : Text} {before : Flags} {t : Token}
    (member : t ∈ (Drawing.ofText (.ok tab) source before).tokens) : ∃ place, t.StandsAt source place := by
  obtain ⟨_,index,offset,row,found,line,column,value⟩ := laidLinesTokens (laidText tab source before) member
  refine ⟨rowStart source index + offset,⟨index,offset,by omega,column,rfl⟩,?_⟩
  rw [← List.drop_drop]
  have inside : t.value <+: row.drop offset := by
    rw [← value]
    exact List.take_prefix _ _
  exact inside.trans ((Text.rowStands found).drop offset)

theorem tokenRecased {flips : Nat → Bool} {source : Text} {t u : Token}
    (like : t.Like Text.SameFolded u) (here : ∃ place, t.StandsAt source place)
    (there : ∃ place, u.StandsAt (recase flips source) place) :
    ∃ place, t.StandsAt source place ∧ u = {t with value := recase (fun n => flips (place + n)) t.value} := by
  obtain ⟨tag,row,column⟩ : t.tag = u.tag ∧ t.line = u.line ∧ t.column = u.column := by
    simpa only [Token.site, Prod.mk.injEq] using like.site
  obtain ⟨place,here⟩ := here
  obtain ⟨other,⟨index,offset,line,spot,rfl⟩,again⟩ := there
  obtain ⟨first,second,left,right,rfl⟩ := here.site
  obtain rfl : first = index := by omega
  obtain rfl : second = offset := by omega
  have value : u.value = recase (fun n => flips (rowStart source first + second + n)) t.value := by
    rw [← Text.rowStartAlike Text.evenCases (Text.recasedAlike flips source)] at again
    rw [List.prefix_iff_eq_take.mp again, Text.recaseCut, ← like.value.length_eq, ← List.prefix_iff_eq_take.mp here.value]
  obtain ⟨_,_,_,_⟩ := u
  exact ⟨_,here,by rw [← value, tag, row, column]⟩

theorem caseIgnored (tab : TabSize) (source : Text) (flips : Nat → Bool) (before : Flags) :
    let drawing := Drawing.ofText (.ok tab) source before
    let redrawn := Drawing.ofText (.ok tab) (recase flips source) before
    List.Forall₂ (fun t u => ∃ place, t.StandsAt source place ∧
        u = {t with value := recase (fun n => flips (place + n)) t.value}) drawing.tokens redrawn.tokens ∧
      redrawn.flags = drawing.flags ∧ drawing.fault = none ∧ redrawn.fault = none := by
  intro drawing redrawn
  have drawn : drawing = _ := drawTextLexemes tab source before
  have again : redrawn = _ := drawTextLexemes tab (recase flips source) before
  have rows := (Text.linesAlike Text.evenCases (Text.recasedAlike flips source)).imp fun _ _ same =>
    And.intro same (Text.leadAlike (Text.pastWordAlike Text.evenCases same))
  obtain ⟨tokens,flags⟩ := Lexeme.drawingAlike Rule.table 1 before Text.evenCases rows
  rw [← drawn, ← again] at tokens flags
  refine ⟨?_,flags.symm,drawn ▸ Lexeme.drawingLinesSound _ _ _ _,again ▸ Lexeme.drawingLinesSound _ _ _ _⟩
  obtain ⟨length,pairs⟩ := List.forall₂_iff_zip.mp tokens
  refine List.forall₂_iff_zip.mpr ⟨length,fun pair => ?_⟩
  obtain ⟨left,right⟩ := List.of_mem_zip pair
  exact tokenRecased (pairs pair) (tokenStands left) (tokenStands right)

example : (Drawing.ofText (.ok .standard) (recase (· % 2 == 0) "inp\r\nloop bra".toList) .clear).tokens.map Token.value =
    ["InP".toList,"lOoP".toList,"BrA".toList] := by decide +kernel

end LittleMan
