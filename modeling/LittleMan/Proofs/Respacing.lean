import LittleMan.Proofs.Likeness

/-! Blanks of one kind for blanks of another. What is read of a line has the same tags at the same places, wherever
the blanks between its first word and a keyword after it are ASCII blanks in both, or in neither. -/
namespace LittleMan
namespace Text

def Space (c : Char) : Prop := isBlank c = true ∧ c ≠ '\r' ∧ c ≠ '\n'

instance (c : Char) : Decidable (Space c) := inferInstanceAs (Decidable (_ ∧ _))

def Respaced (t u : Text) : Prop := List.Forall₂ (fun c d => c = d ∨ Space c ∧ Space d) t u

instance (t u : Text) : Decidable (Respaced t u) := inferInstanceAs (Decidable (List.Forall₂ _ t u))

def Coarse (p : Char → Bool) : Prop := ∀ c d, Space c → Space d → p c = p d

theorem coarseBlank : Coarse isBlank := fun _ _ space other => space.1.trans other.1.symm

theorem coarseDark {p : Char → Bool} (words : ∀ c, p c = true → isWord c = true) : Coarse p := by
  have dark {c : Char} (space : Space c) : p c = false := by
    rw [Bool.eq_false_iff]
    intro inside
    cases (wordSolid (words c inside)).symm.trans space.1
  exact fun _ _ space other => (dark space).trans (dark other).symm

theorem coarseWord : Coarse isWord := coarseDark fun _ word => word

theorem coarseDigit : Coarse isDigit := coarseDark fun _ digit => digitWord digit

theorem coarseLetter {w : Char} (capital : 65 ≤ w.toNat ∧ w.toNat ≤ 90) : Coarse (foldCase · == w) := by
  refine coarseDark fun c same => ?_
  rw [beq_iff_eq] at same
  exact (foldedCapital (same ▸ capital)).1

theorem Coarse.same {p : Char → Bool} (coarse : Coarse p) {c d : Char} (related : c = d ∨ Space c ∧ Space d) :
    p c = p d := by
  rcases related with rfl | ⟨space,other⟩
  · rfl
  · exact coarse c d space other

theorem evenSpaces : Even fun c d => c = d ∨ Space c ∧ Space d where
  blank := coarseBlank.same
  word := coarseWord.same
  digit := coarseDigit.same
  letter capital := (coarseLetter capital).same
  carriage related := by
    rcases related with rfl | ⟨space,other⟩
    · rfl
    · exact iff_of_false space.2.1 other.2.1
  feed related := by
    rcases related with rfl | ⟨space,other⟩
    · rfl
    · exact iff_of_false space.2.2 other.2.2

end Text

open Text (Respaced SameLead)

theorem respacedAlike (tab : TabSize) (number : Int) (before : Flags) {line other : Text}
    (respaced : Respaced line other) (lead : SameLead (Text.pastWord line) (Text.pastWord other)) :
    let drawing := Drawing.ofLine (.ok tab) number line before
    let redrawn := Drawing.ofLine (.ok tab) number other before
    drawing.tokens.map Token.site = redrawn.tokens.map Token.site ∧ drawing.flags = redrawn.flags := by
  intro drawing redrawn
  have drawn : drawing = _ := drawLineLexemes Rule.table tab number line before
  have again : redrawn = _ := drawLineLexemes Rule.table tab number other before
  have like := Lexeme.lineAlike Rule.table before Text.evenSpaces respaced lead
  rw [drawn, again, Lexeme.drawingTokens, Lexeme.drawingTokens]
  exact ⟨Token.sitesAlike (Lexeme.tokensAlike Text.evenSpaces like number),Lexeme.afterAlike like before⟩

theorem respacedAlikeAround :
    let line := "\tA LDA\u00a0B\u2003; x".toList
    let other := "\u3000A\tLDA B ;\u0085x".toList
    Respaced line other ∧ SameLead (Text.pastWord line) (Text.pastWord other) ∧
      (Drawing.ofLine (.ok .standard) 1 line .clear).tokens.map Token.site =
        (Drawing.ofLine (.ok .standard) 1 other .clear).tokens.map Token.site := by
  intro line other
  have respaced : Respaced line other := by decide +kernel
  have lead : SameLead (Text.pastWord line) (Text.pastWord other) := .inl (by decide +kernel)
  exact ⟨respaced,lead,(respacedAlike .standard 1 .clear respaced lead).1⟩

theorem wideBlankHides :
    let line := "A LDA".toList
    let other := "A\u00a0LDA".toList
    let drawing := Drawing.ofLine (.ok .standard) 1 line .clear
    let redrawn := Drawing.ofLine (.ok .standard) 1 other .clear
    Respaced line other ∧ drawing.tokens.map Token.site = [(.link,1,1),(.keyword,1,3)] ∧
      redrawn.tokens.map Token.site = [(.comment,1,1)] ∧ drawing.flags ≠ redrawn.flags := by
  decide +kernel

end LittleMan
