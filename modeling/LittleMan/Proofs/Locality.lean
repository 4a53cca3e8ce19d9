import LittleMan.Proofs.Characters
import LittleMan.Proofs.Lexemes

/-! What comes before the cursor matters in one way only. A reading looks back at the whole line, to find out
whether the statement begins at the cursor; it does if there are nothing but blanks before and no blank comes next,
whatever the columns are. The rest is told from the text ahead and the flags. -/
namespace LittleMan
open Text (Blank)

namespace Text

theorem startExact (t rest : Text) : t.length = indent (t ++ rest) ↔ Blank t ∧ indent rest = 0 := by
  -- A blank before it moves the cursor and the first word along together.
  induction t with
  | nil =>
    have nothing : Blank [] := fun _ member => absurd member List.not_mem_nil
    rw [List.nil_append, List.length_nil, eq_comm]
    exact (and_iff_right nothing).symm
  | cons c t ih =>
    have head : Blank (c :: t) ↔ isBlank c = true ∧ Blank t := List.forall_mem_cons
    rw [head, and_assoc, ← ih, indent, span, List.cons_append, List.takeWhile_cons]
    cases blank : isBlank c with
    | true =>
      rw [if_pos rfl, List.length_cons, List.length_cons, Nat.add_right_cancel_iff, and_iff_right rfl]
      rfl
    | false => simp

theorem startAlike {t u : Text} (alike : Blank t ↔ Blank u) (rest : Text) :
    (t.length == indent (t ++ rest)) = (u.length == indent (u ++ rest)) := by
  rw [Bool.eq_iff_iff, beq_iff_eq, beq_iff_eq, startExact, startExact, alike]

end Text

def ReadAlike (c d : Cursor) (before : Flags) : Prop :=
  ∃ (tag : Option Tag) (n : Nat), (c.read before).answer = .ok tag ∧ (d.read before).answer = .ok tag ∧
    (c.read before).cursor.pos = c.pos + n ∧ (d.read before).cursor.pos = d.pos + n ∧
    (c.read before).flags = (d.read before).flags

theorem readAlike {c d : Cursor} {before : Flags} {pos place : Nat} (there : c.pos = pos) (here : d.pos = place)
    (bound : pos ≤ c.text.length) (within : place ≤ d.text.length)
    (start : (pos == Text.indent c.text) = (place == Text.indent d.text))
    (ahead : c.text.drop pos = d.text.drop place) : ReadAlike c d before := by
  generalize judged : Verdict.judge Rule.table (pos == Text.indent c.text) before (c.text.drop pos) = verdict
  have read : c.read before = _ := Cursor.readThere there bound judged
  rw [start, ahead] at judged
  have reread : d.read before = _ := Cursor.readThere here within judged
  rw [ReadAlike, read, reread, there, here, ahead]
  exact ⟨verdict.tag?,verdict.width (d.text.drop place),rfl,rfl,Int.natCast_add _ _,Int.natCast_add _ _,rfl⟩

theorem readingLocal (before : Flags) :
    (∀ (t u rest : Text) (tab other : TabSize) (start begun : Int), (Blank t ↔ Blank u) →
      ReadAlike ⟨t ++ rest,t.length,start,tab⟩ ⟨u ++ rest,u.length,begun,other⟩ before) ∧
    ∀ c d : Cursor, 0 ≤ c.pos → c.pos ≤ c.text.length → 0 ≤ d.pos → d.pos ≤ d.text.length →
      c.rest = d.rest → c.mark.startsStatement = d.mark.startsStatement → ReadAlike c d before := by
  constructor
  · intro t u rest tab other start begun alike
    have bound (t : Text) : t.length ≤ (t ++ rest).length := by
      rw [List.length_append]
      exact Nat.le_add_right _ _
    refine readAlike rfl rfl (bound t) (bound u) (Text.startAlike alike rest) ?_
    rw [List.drop_left, List.drop_left]
  · intro c d inLine bound within limit ahead start
    obtain ⟨pos,there⟩ := Int.eq_ofNat_of_zero_le inLine
    obtain ⟨place,here⟩ := Int.eq_ofNat_of_zero_le within
    have bound : pos ≤ c.text.length := by omega
    have limit : place ≤ d.text.length := by omega
    rw [Cursor.statementStart (c := c.mark) there bound, Cursor.statementStart (c := d.mark) here limit] at start
    rw [Cursor.rest, Cursor.rest, there, here, Int.toNat_natCast, Int.toNat_natCast] at ahead
    exact readAlike there here bound limit start ahead

theorem readingLocalAround :
    let wide : TabSize := ⟨.int 8,8,by decide⟩
    ReadAlike ⟨"\tLOOP LDA".toList,1,0,.standard⟩ ⟨" \u2003 LOOP LDA".toList,3,1,wide⟩ ⟨true,true,true⟩ ∧
      ReadAlike ⟨"A\tB\tLOOP LDA".toList,4,0,.standard⟩ ⟨"; LOOP LDA".toList,2,1,wide⟩ .clear := by
  intro wide
  have blank : Blank "\t".toList := List.all_eq_true.mp rfl
  have space : Blank " \u2003 ".toList := List.all_eq_true.mp rfl
  refine ⟨?_,?_⟩
  · exact (readingLocal _).1 "\t".toList " \u2003 ".toList "LOOP LDA".toList .standard wide 0 1
      (iff_of_true blank space)
  · exact (readingLocal _).2 _ _ (by decide) (by decide) (by decide) (by decide) (by decide) (by decide)

end LittleMan
