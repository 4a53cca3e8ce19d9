import LittleMan.Assembly.Rule

/-! The verdict on the text ahead: which unit stands at its head. It depends on the text ahead, on
the flags, and on whether the statement starts here, and on nothing else. -/
namespace LittleMan

inductive Verdict where
  | newline
  /-- A rule takes `width` characters; the blanks after them belong to the unit. -/
  | ruled (rule : Rule) (width : Nat)
  | comment
  | skipped
  deriving DecidableEq, Repr

namespace Verdict

def firstRule? (table : List Rule) (atStart : Bool) (before : Flags) (rest : Text) : Option (Rule × Nat) :=
  table.findSome? fun rule => (rule.length? atStart before rest).map (rule,·)

def judge (table : List Rule) (atStart : Bool) (before : Flags) (rest : Text) : Verdict :=
  match Pattern.newline.length? rest with
  | some _ => .newline
  | none =>
    match firstRule? table atStart before rest with
    | some (rule,width) => .ruled rule width
    | none =>
      match Pattern.comment.length? rest with
      | some _ => .comment
      | none => .skipped

def tag? : Verdict → Option Tag
  | .newline | .skipped => none
  | .ruled rule _ => some rule.tag
  | .comment => some .comment

def flags : Verdict → Flags
  | .ruled rule _ => .only rule.sets
  | _ => .clear

def width (rest : Text) : Verdict → Nat
  | .newline => 1
  | .ruled _ n => n + Text.indent (rest.drop n)
  | .comment => rest.length
  | .skipped => min 1 rest.length

theorem firstRuleBounds {table : List Rule} {atStart : Bool} {before : Flags} {rest : Text}
    {rule : Rule} {n : Nat} (h : firstRule? table atStart before rest = some (rule,n)) :
    0 < n ∧ n ≤ rest.length := by
  obtain ⟨tried,_,found⟩ := List.exists_of_findSome?_eq_some h
  obtain ⟨m,taken,same⟩ := Option.map_eq_some_iff.mp found
  cases same
  exact Rule.lengthBounds taken

theorem judgeNil (table : List Rule) (atStart : Bool) (before : Flags) :
    judge table atStart before [] = .skipped := by
  have none_found : firstRule? table atStart before [] = none := by
    cases found : firstRule? table atStart before [] with
    | none => rfl
    | some taken =>
      have := @firstRuleBounds table atStart before [] taken.1 taken.2 found
      simp only [List.length_nil] at this
      omega
  simp [judge,none_found,Pattern.length?,Pattern.run?,Text.span]

theorem widthBounds (table : List Rule) (atStart : Bool) (before : Flags) {rest : Text}
    (ahead : rest ≠ []) :
    0 < (judge table atStart before rest).width rest ∧
      (judge table atStart before rest).width rest ≤ rest.length := by
  have some_ahead := List.length_pos_iff.mpr ahead
  unfold judge
  split
  · exact ⟨Nat.one_pos,some_ahead⟩
  · split
    · rename_i rule n found
      have bounds := firstRuleBounds found
      have blanks := Text.spanLe Text.isBlank (rest.drop n)
      simp only [List.length_drop] at blanks
      simp only [width,Text.indent]
      omega
    · split <;> simp only [width] <;> omega

end Verdict
end LittleMan
