import LittleMan.Cursor
import LittleMan.Assembly.Verdict

/-! Reading one unit after another. Every reading takes something, so a line is read to its end in
at most as many readings as it has characters. -/
namespace LittleMan

structure Reading where
  answer : Except Failure (Option Tag)
  cursor : Cursor
  flags : Flags

namespace Cursor

/-- Reads the unit at the cursor with a table of rules. The flags are replaced even if the cursor
cannot go on. -/
def readWith (table : List Rule) (c : Cursor) (before : Flags) : Reading :=
  let c := c.mark
  match Verdict.judge table c.startsStatement before c.rest with
  | .skipped =>
    match c.next with
    | .ok (_,moved) => ⟨.ok none,moved,.clear⟩
    | .error e => ⟨.error e,c,.clear⟩
  | verdict => ⟨.ok verdict.tag?,{c with pos := c.base + verdict.width c.rest},verdict.flags⟩

def read (c : Cursor) (before : Flags) : Reading := c.readWith Rule.table before

def tryRule (c : Cursor) (before : Flags) (rule : Rule) : Bool × Int :=
  match rule.length? c.startsStatement before c.rest with
  | some n => (true,c.base + n)
  | none => (false,c.pos)

theorem posNext {c moved : Cursor} {ch : Option Char} (inside : c.pos < c.text.length)
    (h : c.next = .ok (ch,moved)) : moved.pos = c.pos + 1 := by
  have some_ahead : c.ahead ≠ .ok [] := by
    unfold ahead
    split
    · simp only [ne_eq,Except.ok.injEq,List.drop_eq_nil_iff]
      omega
    · split
      · simp
      · simp only [ne_eq,Except.ok.injEq,List.append_eq_nil_iff,List.drop_eq_nil_iff]
        intro empty
        simp only [empty.2,List.length_nil] at *
        omega
  unfold next at h
  cases seen : c.ahead with
  | error e => simp [seen,Except.map] at h
  | ok t =>
    cases t with
    | nil => exact absurd seen some_ahead
    | cons first t =>
      simp only [seen,Except.map,Except.ok.injEq,Prod.mk.injEq] at h
      rw [← h.2]

theorem posReadWith {table : List Rule} {c : Cursor} {before : Flags} {tag : Option Tag}
    (inside : c.pos < c.text.length) (ok : (c.readWith table before).answer = .ok tag) :
    c.pos < (c.readWith table before).cursor.pos := by
  have skipped : ∀ moved ch, c.mark.next = .ok (ch,moved) → c.pos < moved.pos := by
    intro moved ch h
    have := @posNext c.mark moved ch inside h
    simp only [mark] at this
    omega
  by_cases nothing : c.mark.rest = []
  · simp only [readWith,nothing,Verdict.judgeNil] at ok ⊢
    cases moved : c.mark.next with
    | error e => simp [moved] at ok
    | ok answer => exact skipped _ _ moved
  · have bounds := Verdict.widthBounds table c.mark.startsStatement before nothing
    have based : c.pos ≤ c.mark.base := by simp only [base,mark]; omega
    revert ok bounds
    simp only [readWith]
    generalize Verdict.judge table c.mark.startsStatement before c.mark.rest = verdict
    intro ok bounds
    cases verdict with
    | skipped =>
      cases moved : c.mark.next with
      | error e => simp [moved] at ok
      | ok answer => exact skipped _ _ moved
    | newline => simp only; omega
    | ruled rule n => simp only; omega
    | comment => simp only; omega

theorem textReadWith (table : List Rule) (c : Cursor) (before : Flags) :
    (c.readWith table before).cursor.text = c.text := by
  simp only [readWith]
  split
  · split
    · rename_i moved h
      simp only [next] at h
      cases seen : c.mark.ahead with
      | error e => simp [seen,Except.map] at h
      | ok t => cases t <;> simp only [seen,Except.map,Except.ok.injEq,Prod.mk.injEq] at h <;> (rw [← h.2]; rfl)
    · rfl
  · rfl

def remaining (c : Cursor) : Nat := (c.text.length - c.pos).toNat

theorem remainingReadWith {table : List Rule} {c : Cursor} {before : Flags} {tag : Option Tag}
    (inside : ¬ c.atEnd = true) (ok : (c.readWith table before).answer = .ok tag) :
    (c.readWith table before).cursor.remaining < c.remaining := by
  simp only [atEnd,decide_eq_true_eq,Int.not_le] at inside
  have := posReadWith inside ok
  simp only [remaining,textReadWith]
  omega

def readingsWith (table : List Rule) (c : Cursor) (before : Flags) : List Reading :=
  if c.atEnd then []
  else
    match _ok : (c.readWith table before).answer with
    | .error _ => [c.readWith table before]
    | .ok _ =>
      c.readWith table before ::
        readingsWith table (c.readWith table before).cursor (c.readWith table before).flags
termination_by c.remaining
decreasing_by exact remainingReadWith (by assumption) (by assumption)

def readings (c : Cursor) (before : Flags) : List Reading := c.readingsWith Rule.table before

end Cursor
end LittleMan
