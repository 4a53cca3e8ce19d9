import LittleMan.Proofs.Context

/-! What is remembered is the last unit and nothing else. The flags after a reading can be told from its tag and
the text it covers, wherever on the line the cursor stood and whatever flags it found. -/
namespace LittleMan

namespace Flags

theorem raisedInjective {f g : Flags} (same : ∀ flag, f.raised flag = g.raised flag) : f = g := by
  obtain ⟨linkable,operand,data⟩ := f
  have linkable : linkable = g.linkable := same .linkable
  have operand : operand = g.operand := same .operand
  have data : data = g.data := same .data
  rw [linkable, operand, data]

end Flags

theorem Verdict.flagsOnly (verdict : Verdict) : ∃ flag, verdict.flags = .only flag := by
  cases verdict with
  | ruled rule _ => exact ⟨rule.sets,rfl⟩
  | _ => exact ⟨none,rfl⟩

theorem Verdict.flagsRaised {table : List Rule} {atStart : Bool} {before : Flags} {rest : Text} {verdict : Verdict}
    (judged : judge table atStart before rest = verdict) (number column : Int) (flag : Flag) :
    verdict.flags.raised flag = true ↔ ∃ tag, verdict.tag? = some tag ∧
      (⟨tag,Text.trimEnd (rest.take (verdict.width rest)),number,column⟩ : Token).Raises flag := by
  cases verdict with
  | newline | skipped => cases flag <;> simp [flags, Flags.clear, Flags.raised, tag?]
  | comment => cases flag <;> simp [flags, Flags.clear, Flags.raised, tag?, Token.Raises]
  | ruled rule n =>
    obtain ⟨_,found⟩ := ruledJudged judged
    rw [flags, Flags.raisedOnly, width, ruledTrimmed found, ← Rule.raisesExact found number column]
    simp only [tag?, Option.some.injEq, exists_eq_left']

namespace Cursor
variable {table : List Rule} {c : Cursor} {before : Flags}

theorem readJudged (inLine : 0 ≤ c.pos) (bound : c.pos ≤ c.text.length) : ∃ atStart rest verdict,
    Verdict.judge table atStart before rest = verdict ∧
      (c.readWith table before).answer = .ok verdict.tag? ∧ (c.readWith table before).flags = verdict.flags ∧
      (c.readWith table before).cursor.current = rest.take (verdict.width rest) := by
  obtain ⟨pos,there⟩ := Int.eq_ofNat_of_zero_le inLine
  have bound : pos ≤ c.text.length := by omega
  generalize judged : Verdict.judge table (pos == Text.indent c.text) before (c.text.drop pos) = verdict
  have fits := Verdict.widthWithin table (pos == Text.indent c.text) before (c.text.drop pos)
  rw [judged, List.length_drop] at fits
  refine ⟨_,_,verdict,judged,?_⟩
  rw [readThere there bound judged]
  refine ⟨rfl,rfl,?_⟩
  rw [current, Text.betweenAdd (t := c.text) (by omega)]

theorem readRaises (inLine : 0 ≤ c.pos) (bound : c.pos ≤ c.text.length) : ∃ tag,
    (c.readWith table before).answer = .ok tag ∧ (∃ flag, (c.readWith table before).flags = .only flag) ∧
      ∀ flag, (c.readWith table before).flags.raised flag = true ↔ ∃ marked, tag = some marked ∧
        (⟨marked,Text.trimEnd (c.readWith table before).cursor.current,1,1⟩ : Token).Raises flag := by
  obtain ⟨_,rest,verdict,judged,answer,flags,current⟩ := readJudged inLine bound
  rw [flags, current]
  exact ⟨verdict.tag?,answer,verdict.flagsOnly,Verdict.flagsRaised judged 1 1⟩

end Cursor

theorem flagsOfLastUnit (c : Cursor) (before : Flags) (inLine : 0 ≤ c.pos) (bound : c.pos ≤ c.text.length) :
    let r := c.read before
    let value := Text.trimEnd r.cursor.current
    ∃ tag, r.answer = .ok tag ∧
      (r.flags.linkable = true ↔ tag = some .keyword ∧
        value.map Text.foldCase ∈ ["BRA".toList,"BRZ".toList,"BRP".toList]) ∧
      (r.flags.operand = true ↔ tag = some .keyword ∧
        value.map Text.foldCase ∈ ["STA".toList,"STO".toList,"LDA".toList,"ADD".toList,"SUB".toList]) ∧
      (r.flags.data = true ↔ tag = some .directive) ∧
      (∃ flag, r.flags = .only flag) ∧
      ∀ (other : Cursor) (prior : Flags), 0 ≤ other.pos → other.pos ≤ other.text.length →
        (other.read prior).answer = .ok tag → Text.trimEnd (other.read prior).cursor.current = value →
          (other.read prior).flags = r.flags := by
  intro r value
  obtain ⟨tag,answer,only,raises⟩ := Cursor.readRaises inLine bound
  have raises : ∀ flag, r.flags.raised flag = true ↔ ∃ marked, tag = some marked ∧
      (⟨marked,value,1,1⟩ : Token).Raises flag := raises
  refine ⟨tag,answer,?_,?_,?_,only,?_⟩
  · simpa [Flags.raised, Token.Raises] using raises .linkable
  · simpa [Flags.raised, Token.Raises] using raises .operand
  · simpa [Flags.raised, Token.Raises] using raises .data
  · intro other prior otherInLine otherBound sameTag sameValue
    obtain ⟨same,otherAnswer,_,otherRaises⟩ := Cursor.readRaises otherInLine otherBound
    cases Except.ok.inj (otherAnswer.symm.trans sameTag)
    rw [Cursor.read] at sameValue
    rw [sameValue] at otherRaises
    exact Flags.raisedInjective fun flag => Bool.eq_iff_iff.mpr ((otherRaises flag).trans (raises flag).symm)

theorem flagsOfLastUnitBranch :
    let c : Cursor := ⟨"\tbrz\u2003X".toList,1,0,.standard⟩
    let r := c.read ⟨true,true,true⟩
    r.answer = .ok (some .keyword) ∧ Text.trimEnd r.cursor.current = "brz".toList ∧
      r.flags.linkable = true ∧ r.flags.operand = false ∧ r.flags.data = false := by
  intro c r
  have answer : r.answer = .ok (some .keyword) := rfl
  have value : Text.trimEnd r.cursor.current = "brz".toList := by decide +kernel
  obtain ⟨tag,same,linkable,operand,data,_⟩ := flagsOfLastUnit c ⟨true,true,true⟩ (by decide) (by decide)
  cases Except.ok.inj (same.symm.trans answer)
  have branch : (Text.trimEnd r.cursor.current).map Text.foldCase ∈ ["BRA".toList,"BRZ".toList,"BRP".toList] := by
    rw [value]
    decide
  have other : (Text.trimEnd r.cursor.current).map Text.foldCase ∉
      ["STA".toList,"STO".toList,"LDA".toList,"ADD".toList,"SUB".toList] := by
    rw [value]
    decide
  refine ⟨answer,value,linkable.mpr ⟨rfl,branch⟩,Bool.eq_false_iff.mpr fun set => ?_,?_⟩
  · exact other (operand.mp set).2
  · exact Bool.eq_false_iff.mpr fun set => nomatch data.mp set

end LittleMan
