import LittleMan.Text
import LittleMan.Proofs.Characters

/-! Texts without a line break. Each is a line of its own when a line feed follows it, and the last is
one unless it is empty. Taken together, the lines of a text are the text without its breaks. -/
namespace LittleMan.Text

def Unbroken (t : Text) : Prop := ∀ c ∈ t, c ≠ '\r' ∧ c ≠ '\n'

instance (t : Text) : Decidable (Unbroken t) := inferInstanceAs (Decidable (∀ c ∈ t, _))

theorem linesStep {c : Char} {t : Text} (carriage : c ≠ '\r') (feed : c ≠ '\n') :
    lines (c :: t) = match lines t with
      | [] => [[c]]
      | line :: more => (c :: line) :: more :=
  lines.eq_5 c t (fun _ first _ => carriage first) carriage feed

theorem linesStepFlatten {c : Char} {t : Text} (carriage : c ≠ '\r') (feed : c ≠ '\n') :
    (lines (c :: t)).flatten = c :: (lines t).flatten := by
  rw [linesStep carriage feed]
  cases lines t <;> rfl

theorem linesFlatten (t : Text) : (lines t).flatten = t.filter fun c => decide (c ≠ '\r' ∧ c ≠ '\n') := by
  induction t using lines.induct with
  | case1 => rfl
  | case2 rest ih | case4 rest ih => rw [lines, List.flatten_cons, ih]; rfl
  | case3 rest single ih => rw [lines.eq_3 rest single, List.flatten_cons, ih]; rfl
  | case5 c rest _ carriage feed _ ih | case6 c rest _ carriage feed _ _ _ ih =>
    rw [linesStepFlatten carriage feed, ih, List.filter_cons, if_pos (decide_eq_true ⟨carriage,feed⟩)]

theorem linesFilled {t : Text} : (lines t).flatten ≠ [] ↔ ∃ c ∈ t, c ≠ '\r' ∧ c ≠ '\n' := by
  rw [linesFlatten, ne_eq, List.filter_eq_nil_iff]
  simp only [not_forall, not_not, decide_eq_true_eq, exists_prop]

theorem linesWhole {t : Text} (unbroken : Unbroken t) (some : t ≠ []) : lines t = [t] := by
  induction t with
  | nil => exact absurd rfl some
  | cons c t ih =>
    obtain ⟨carriage,feed⟩ := unbroken c List.mem_cons_self
    rw [linesStep carriage feed]
    by_cases last : t = []
    · rw [last]
      rfl
    · rw [ih (fun d member => unbroken d (List.mem_cons_of_mem c member)) last]

theorem linesBreak {t rest : Text} (unbroken : Unbroken t) :
    lines (t ++ '\n' :: rest) = t :: lines rest := by
  induction t with
  | nil => rw [List.nil_append, lines]
  | cons c t ih =>
    obtain ⟨carriage,feed⟩ := unbroken c List.mem_cons_self
    rw [List.cons_append, linesStep carriage feed,
      ih fun d member => unbroken d (List.mem_cons_of_mem c member)]

theorem unbrokenAppend {t u : Text} (left : Unbroken t) (right : Unbroken u) : Unbroken (t ++ u) := by
  intro c member
  rcases List.mem_append.mp member with first | second
  · exact left c first
  · exact right c second

theorem unbrokenWord {t : Text} (words : ∀ c ∈ t, isWord c = true) : Unbroken t := by
  intro c member
  have word := words c member
  constructor
  · intro same
    rw [same] at word
    contradiction
  · intro same
    rw [same] at word
    contradiction

end LittleMan.Text
