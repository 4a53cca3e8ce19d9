import LittleMan.Assembly.Keyword

/-! The patterns of the lexer. A pattern is read at the head of a text and says how many
characters it takes; it never takes none. Keywords end after their three letters even inside a
longer word. A label is the longest beginning of a word that a keyword follows, after blanks or
at once, so it may end inside a word as well. -/
namespace LittleMan

inductive Pattern where
  | newline
  | digits
  | keyword (role : Role)
  | dataLabel
  | instructionLabel
  | word
  | comment
  deriving DecidableEq, Repr

namespace Pattern

def run? (p : Char → Bool) (t : Text) : Option Nat :=
  if Text.span p t = 0 then none else some (Text.span p t)

/-- The greatest positive number of word characters after which `target` holds. -/
def labelLength? (target : Text → Bool) : Text → Option Nat
  | [] => none
  | c :: rest =>
    if Text.isWord c then
      match labelLength? target rest with
      | some n => some (n + 1)
      | none => if target rest then some 1 else none
    else none

def leadsTo (p : Role → Bool) (t : Text) : Bool :=
  startsWithRole p (t.dropWhile Text.isAsciiBlank)

def length? : Pattern → Text → Option Nat
  | .newline, t => if t.head? = some '\n' then some 1 else none
  | .digits, t => run? Text.isDigit t
  | .keyword role, t => if startsWithRole (· == role) t then some 3 else none
  | .dataLabel, t => labelLength? (leadsTo (· == .data)) t
  | .instructionLabel, t => labelLength? (leadsTo Role.isInstruction) t
  | .word, t => run? Text.isWord t
  | .comment, t => run? (!Text.isBlank ·) t

theorem runBounds {p : Char → Bool} {t : Text} {n : Nat} (h : run? p t = some n) :
    0 < n ∧ n ≤ t.length := by
  have bound := Text.spanLe p t
  unfold run? at h
  split at h <;> cases h
  exact ⟨by omega,bound⟩

theorem labelLengthBounds {target : Text → Bool} {t : Text} {n : Nat}
    (h : labelLength? target t = some n) : 0 < n ∧ n ≤ t.length := by
  induction t generalizing n with
  | nil => simp [labelLength?] at h
  | cons c rest ih =>
    simp only [labelLength?] at h
    split at h <;> try contradiction
    split at h
    · rename_i m deeper
      cases h
      have := ih deeper
      simp only [List.length_cons]
      omega
    · split at h <;> cases h
      simp

theorem startsFoldedLength {word t : Text} (h : Text.startsFolded word t = true) :
    word.length ≤ t.length := by
  induction word generalizing t with
  | nil => simp
  | cons w word ih =>
    cases t with
    | nil => simp [Text.startsFolded] at h
    | cons c t =>
      simp only [Text.startsFolded, Bool.and_eq_true] at h
      have := ih h.2
      simp only [List.length_cons]
      omega

theorem startsWithRoleLength {p : Role → Bool} {t : Text} (h : startsWithRole p t = true) :
    3 ≤ t.length := by
  unfold startsWithRole at h
  split at h <;> try contradiction
  rename_i k found
  have read := startsFoldedLength (Keyword.atSpelled found)
  rwa [Keyword.spellingLength] at read

theorem lengthBounds {p : Pattern} {t : Text} {n : Nat} (h : p.length? t = some n) :
    0 < n ∧ n ≤ t.length := by
  cases p with
  | newline =>
    cases t <;> simp only [length?] at h <;> split at h <;> cases h <;> simp_all
  | digits => exact runBounds h
  | word => exact runBounds h
  | comment => exact runBounds h
  | dataLabel => exact labelLengthBounds h
  | instructionLabel => exact labelLengthBounds h
  | keyword role =>
    simp only [length?] at h
    split at h <;> cases h
    rename_i starts
    exact ⟨by omega,startsWithRoleLength starts⟩

end Pattern
end LittleMan
