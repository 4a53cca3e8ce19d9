import Mathlib.Data.List.DropRight
import LittleMan.Text

/-! Classes of characters by their numbers, and the two ends of a text: a solid text neither starts nor
ends with a blank, and cutting trailing blanks off leaves such a text or nothing. -/
namespace LittleMan.Text

theorem rangeNumbers {first last c : Char} :
    (first ≤ c && c ≤ last) = true ↔ first.toNat ≤ c.toNat ∧ c.toNat ≤ last.toNat := by
  simp only [Bool.and_eq_true, decide_eq_true_eq, Char.le_def, UInt32.le_iff_toNat_le]
  rfl

theorem digitRange {c : Char} : isDigit c = true ↔ 48 ≤ c.toNat ∧ c.toNat ≤ 57 := rangeNumbers

theorem wordRange {c : Char} : isWord c = true ↔
    (97 ≤ c.toNat ∧ c.toNat ≤ 122) ∨ (65 ≤ c.toNat ∧ c.toNat ≤ 90) ∨ (48 ≤ c.toNat ∧ c.toNat ≤ 57) ∨
      c.toNat = 95 := by
  have underscore : c = '_' ↔ c.toNat = 95 :=
    ⟨fun same => by rw [same]; rfl,fun same => Char.toNat_inj.mp same⟩
  simp only [isWord, Bool.or_eq_true, digitRange, Bool.and_eq_true, decide_eq_true_eq, beq_iff_eq,
    underscore, Char.le_def, UInt32.le_iff_toNat_le, or_assoc]
  rfl

theorem digitWord {c : Char} (digit : isDigit c = true) : isWord c = true :=
  wordRange.mpr (.inr (.inr (.inl (digitRange.mp digit))))

theorem wordSolid {c : Char} (word : isWord c = true) : isBlank c = false := by
  have range := wordRange.mp word
  rw [Bool.eq_false_iff]
  intro blank
  simp only [isBlank, Bool.or_eq_true, Bool.and_eq_true, decide_eq_true_eq, beq_iff_eq] at blank
  omega

theorem blankDark {c : Char} (blank : isBlank c = true) : isWord c = false := by
  rw [Bool.eq_false_iff]
  intro word
  rw [wordSolid word] at blank
  contradiction

theorem numbered {n : Nat} (small : n < 0xd800) : (Char.ofNat n).toNat = n := by
  rw [Char.ofNat, dif_pos (.inl small)]
  rfl

theorem foldCaseNumber (c : Char) :
    (foldCase c).toNat = if 97 ≤ c.toNat ∧ c.toNat ≤ 122 then c.toNat - 32 else c.toNat := by
  have small : ('a' ≤ c && c ≤ 'z') = true ↔ 97 ≤ c.toNat ∧ c.toNat ≤ 122 := rangeNumbers
  simp only [foldCase, small]
  split
  · exact numbered (by omega)
  · rfl

theorem foldedCapital {c : Char} (capital : 65 ≤ (foldCase c).toNat ∧ (foldCase c).toNat ≤ 90) :
    isWord c = true ∧ isDigit c = false := by
  rw [foldCaseNumber] at capital
  rw [Bool.eq_false_iff, ne_eq, wordRange, digitRange]
  split at capital <;> omega

def Blank (t : Text) : Prop := ∀ c ∈ t, isBlank c = true

def Solid (t : Text) : Prop :=
  (∃ c, t.head? = some c ∧ isBlank c = false) ∧ ∃ c, t.getLast? = some c ∧ isBlank c = false

theorem blankAppend {t u : Text} (left : Blank t) (right : Blank u) : Blank (t ++ u) := by
  intro c member
  rcases List.mem_append.mp member with first | second
  · exact left c first
  · exact right c second

theorem solidWord {t : Text} (some : t ≠ []) (word : ∀ c ∈ t, isWord c = true) : Solid t :=
  ⟨⟨t.head some,List.head?_eq_some_head some,wordSolid (word _ (List.head_mem some))⟩,
    t.getLast some,List.getLast?_eq_some_getLast some,wordSolid (word _ (List.getLast_mem some))⟩

theorem trimEndParts (t : Text) : ∃ gap, t = trimEnd t ++ gap ∧ Blank gap :=
  ⟨t.rtakeWhile isBlank,List.rdropWhile_append_rtakeWhile.symm,
    fun _ => List.mem_rtakeWhile_imp⟩

theorem trimEndSolid {t : Text} (solid : Solid t) : trimEnd t = t := by
  obtain ⟨_,c,last,clear⟩ := solid
  apply List.rdropWhile_eq_self_iff.mpr
  intro some
  rw [List.getLast?_eq_some_getLast some] at last
  cases Option.some.inj last
  simp only [clear, Bool.false_eq_true, not_false_eq_true]

theorem trimEndAppend (t : Text) {gap : Text} (blank : Blank gap) : trimEnd (t ++ gap) = trimEnd t := by
  induction gap generalizing t with
  | nil => rw [List.append_nil]
  | cons c gap ih =>
    have first : trimEnd (t ++ [c]) = trimEnd t :=
      List.rdropWhile_concat_pos isBlank t c (blank c List.mem_cons_self)
    rw [List.append_cons, ih _ fun d member => blank d (List.mem_cons_of_mem _ member), first]

theorem solidTrimEnd {t : Text} {c : Char} (head : t.head? = some c) (clear : isBlank c = false) :
    Solid (trimEnd t) := by
  obtain ⟨gap,parts,blank⟩ := trimEndParts t
  have some : trimEnd t ≠ [] := by
    intro empty
    rw [empty, List.nil_append] at parts
    rw [parts] at head
    have := blank c (List.mem_of_head? head)
    simp only [clear, Bool.false_eq_true] at this
  have last : ¬ isBlank ((trimEnd t).getLast some) = true := List.rdropWhile_last_not isBlank t some
  refine ⟨⟨c,?_,clear⟩,_,List.getLast?_eq_some_getLast some,Bool.eq_false_iff.mpr last⟩
  rw [parts, List.head?_append_of_ne_nil _ some] at head
  exact head

def Ends (p : Char → Bool) (more : Text) : Prop := ∀ c, more.head? = some c → p c = false

theorem endsHead {p : Char → Bool} {c : Char} {more : Text} (stop : p c = false) : Ends p (c :: more) := by
  intro d first
  cases Option.some.inj first
  exact stop

theorem endsFilled {p : Char → Bool} {t more : Text} (filled : t ≠ []) (stop : ∀ c ∈ t, p c = false) :
    Ends p (t ++ more) := by
  intro c first
  rw [List.head?_append_of_ne_nil _ filled] at first
  exact stop c (List.mem_of_head? first)

theorem spanExact {p : Char → Bool} {run more : Text} (inside : ∀ c ∈ run, p c = true)
    (ends : Ends p more) : span p (run ++ more) = run.length := by
  have stopped : more.takeWhile p = [] := by
    cases more with
    | nil => rfl
    | cons c more => simp only [List.takeWhile_cons, ends c rfl, Bool.false_eq_true, if_false]
  rw [span, List.takeWhile_append_of_pos inside, stopped, List.append_nil]

end LittleMan.Text
