import LittleMan.Cursor

/-! Every character takes at least one column, whatever the tab width. So two offsets of a line have
the same column only if they are the same, and a unit starts its statement exactly where the leading
blanks end. No width enters that test. -/
namespace LittleMan
namespace Text

theorem columnsGrow {width : Int} (positive : 0 < width) (column : Int) (t : Text) :
    column ≤ t.foldl (advance width) column := by
  induction t generalizing column with
  | nil => exact Int.le_refl _
  | cons c t ih =>
    have first := advanceGrows positive column c
    have rest := ih (advance width column c)
    simp only [List.foldl_cons]
    omega

theorem columnsStrict {width : Int} (positive : 0 < width) {t : Text} {i j : Nat} (less : i < j)
    (bound : j ≤ t.length) : columns width (t.take i) < columns width (t.take j) := by
  have parts : t.take j = t.take i ++ (t.take j).drop i := by
    have cut := List.take_append_drop i (t.take j)
    rw [List.take_take, Nat.min_eq_left (Nat.le_of_lt less)] at cut
    exact cut.symm
  rw [parts, columnsAppend]
  cases between : (t.take j).drop i with
  | nil =>
    have empty := congrArg List.length between
    simp only [List.length_drop, List.length_take, List.length_nil] at empty
    omega
  | cons c more =>
    have first := advanceGrows positive (columns width (t.take i)) c
    have rest := columnsGrow positive (advance width (columns width (t.take i)) c) more
    rw [List.foldl_cons]
    omega

theorem columnsExact {width : Int} (positive : 0 < width) {t : Text} {i j : Nat}
    (left : i ≤ t.length) (right : j ≤ t.length) :
    columns width (t.take i) = columns width (t.take j) ↔ i = j := by
  constructor
  · intro same
    rcases Nat.lt_trichotomy i j with less | equal | less
    · have := columnsStrict positive less right
      omega
    · exact equal
    · have := columnsStrict positive less left
      omega
  · intro same
    subst same
    rfl

theorem columnsGiven {width : Int} (positive : 0 < width) (t : Text) :
    columns? width t = some (columns width t) := by
  have wide : ¬ (width = 0 && t.contains '\t') = true := by
    intro none
    rw [Bool.and_eq_true, decide_eq_true_eq] at none
    omega
  rw [columns?, if_neg wide]

theorem beforeTakes {t : Text} {n : Nat} (bound : n ≤ t.length) : before t n = t.take n := by
  rw [before, cutPointNat bound]

theorem indentBound (t : Text) : indent t ≤ t.length := spanLe isBlank t

end Text

theorem Cursor.statementStart {c : Cursor} {start : Nat} (marked : c.start = start)
    (inside : start ≤ c.text.length) : c.startsStatement = (start == Text.indent c.text) := by
  have exact := Text.columnsExact c.tab.positive (Text.indentBound c.text) inside
  have taken : Text.before c.text c.start = c.text.take start := by
    rw [marked, Text.beforeTakes inside]
  rw [Bool.eq_iff_iff, Cursor.startsStatement, Cursor.indentation, Cursor.column, taken, beq_iff_eq,
    beq_iff_eq, exact]
  exact eq_comm

/- No two offsets of a line share a column, so the column is the indentation only where the leading blanks end. -/
theorem Cursor.statementStartExact {c : Cursor} (left : 0 ≤ c.start) (right : c.start ≤ c.text.length) :
    (c.startsStatement = true ↔ c.indentation = c.column) ∧
      (c.indentation = c.column ↔ c.start = (c.text.takeWhile Text.isBlank).length) ∧
      ∀ i j : Int, 0 ≤ i → i < j → j ≤ c.text.length →
        ∃ m n, Text.columns? c.tab.width (Text.before c.text i) = some m ∧
          Text.columns? c.tab.width (Text.before c.text j) = some n ∧ m < n := by
  have asked : c.startsStatement = true ↔ c.indentation = c.column := beq_iff_eq
  refine ⟨asked,?_,fun i j low less high => ?_⟩
  · obtain ⟨start,marked⟩ := Int.eq_ofNat_of_zero_le left
    have inside : start ≤ c.text.length := by omega
    rw [← asked, Cursor.statementStart marked inside, beq_iff_eq, marked]
    exact Int.ofNat_inj.symm
  · obtain ⟨i,rfl⟩ := Int.eq_ofNat_of_zero_le low
    obtain ⟨j,rfl⟩ := Int.eq_ofNat_of_zero_le (Int.le_trans low (Int.le_of_lt less))
    have strict := Text.columnsStrict c.tab.positive (Int.ofNat_lt.mp less) (Int.ofNat_le.mp high)
    rw [Text.beforeTakes (by omega), Text.beforeTakes (by omega)]
    exact ⟨_,_,Text.columnsGiven c.tab.positive _,Text.columnsGiven c.tab.positive _,strict⟩

theorem Cursor.statementStartExactTabs :
    let tab : TabSize := ⟨.int 3,3,by decide⟩
    let line := " \t\u00a0LDA\tX".toList
    let label : Cursor := ⟨line,0,3,tab⟩
    let operand : Cursor := ⟨line,0,7,tab⟩
    label.indentation = label.column ∧ operand.indentation ≠ operand.column ∧
      ∃ m n, Text.columns? 3 (Text.before line 6) = some m ∧ Text.columns? 3 (Text.before line 7) = some n ∧ m < n := by
  intro tab line label operand
  obtain ⟨_,starts,grows⟩ := Cursor.statementStartExact (c := label) (by decide) (by decide)
  obtain ⟨_,later,_⟩ := Cursor.statementStartExact (c := operand) (by decide) (by decide)
  refine ⟨starts.mpr (by decide),fun same => ?_,grows 6 7 (by decide) (by decide) (by decide)⟩
  exact absurd (later.mp same) (by decide)

end LittleMan
