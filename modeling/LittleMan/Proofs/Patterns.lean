import Mathlib.Data.List.TakeWhile
import LittleMan.Assembly.Rule
import LittleMan.Proofs.Characters

/-! What patterns take. Keywords are found by their capitals alone, labels by the longest run of word
characters that leads on to a keyword, and whatever a rule takes is made of word characters. -/
namespace LittleMan

namespace Text

theorem spanTake (p : Char → Bool) (t : Text) : t.take (span p t) = t.takeWhile p := by
  have parts := spanAppend p t
  calc t.take (span p t) = (t.takeWhile p ++ t.drop (span p t)).take (span p t) := by rw [parts]
    _ = t.takeWhile p := List.take_left

theorem spanEnds (p : Char → Bool) (t : Text) : Ends p (t.drop (span p t)) := by
  induction t with
  | nil => nofun
  | cons c t ih =>
    rw [span, List.takeWhile_cons]
    split
    · exact ih
    · rename_i stop
      exact endsHead (Bool.eq_false_iff.mpr stop)

theorem startsFoldedExact {word t : Text} : startsFolded word t = true ↔ word <+: t.map foldCase := by
  induction word generalizing t with
  | nil => simp only [startsFolded, List.nil_prefix]
  | cons w word ih =>
    cases t with
    | nil => simp [startsFolded]
    | cons c t =>
      rw [startsFolded, Bool.and_eq_true, beq_iff_eq, ih, List.map_cons, List.cons_prefix_cons, eq_comm]

end Text

namespace Keyword

theorem spellingCapital {k : Keyword} {w : Char} (member : w ∈ k.spelling) :
    65 ≤ w.toNat ∧ w.toNat ≤ 90 := by
  have capitals : (k.spelling.all fun w => 65 ≤ w.toNat && w.toNat ≤ 90) = true := by cases k <;> rfl
  have capital := List.all_eq_true.mp capitals w member
  simpa using capital

theorem spellingInjective {k other : Keyword} (same : k.spelling = other.spelling) : k = other := by
  revert same
  cases k <;> cases other <;> decide

theorem atExact {t : Text} {k : Keyword} : at? t = some k ↔ k.spelling <+: t.map Text.foldCase := by
  constructor
  · intro found
    exact Text.startsFoldedExact.mp (atSpelled found)
  · intro spelled
    cases found : at? t with
    | none =>
      have missed := List.find?_eq_none.mp found k (memAll k)
      exact absurd (Text.startsFoldedExact.mpr spelled) missed
    | some other =>
      -- Spellings are of one length, so only one of them can begin a text.
      have begins := Text.startsFoldedExact.mp (atSpelled found)
      have same := List.prefix_of_prefix_length_le begins spelled
        (by rw [spellingLength, spellingLength])
      have equal := same.eq_of_length (by rw [spellingLength, spellingLength])
      rw [spellingInjective equal]

theorem lettersTaken {t : Text} {k : Keyword} (spelled : k.spelling <+: t.map Text.foldCase) {c : Char}
    (member : c ∈ t.take 3) : Text.isWord c = true ∧ Text.isDigit c = false := by
  have folded : Text.foldCase c ∈ (t.map Text.foldCase).take 3 := by
    rw [← List.map_take]
    exact List.mem_map_of_mem member
  have letters := List.prefix_iff_eq_take.mp spelled
  rw [spellingLength] at letters
  rw [← letters] at folded
  exact Text.foldedCapital (spellingCapital folded)

end Keyword

theorem startsWithRoleExact {p : Role → Bool} {t : Text} : startsWithRole p t = true ↔
    ∃ k : Keyword, p k.role = true ∧ k.spelling <+: t.map Text.foldCase := by
  unfold startsWithRole
  constructor
  · intro starts
    split at starts <;> try contradiction
    rename_i k found
    exact ⟨k,starts,Keyword.atExact.mp found⟩
  · intro given
    obtain ⟨k,role,spelled⟩ := given
    rw [Keyword.atExact.mpr spelled]
    exact role

namespace Pattern

theorem labelLengthTaken {target : Text → Bool} {t : Text} {n : Nat}
    (found : labelLength? target t = some n) :
    (∀ c ∈ t.take n, Text.isWord c = true) ∧ target (t.drop n) = true := by
  induction t generalizing n with
  | nil => simp [labelLength?] at found
  | cons c rest ih =>
    simp only [labelLength?] at found
    split at found <;> try contradiction
    rename_i word
    split at found
    · rename_i m deeper
      cases Option.some.inj found
      obtain ⟨words,follows⟩ := ih deeper
      refine ⟨?_,follows⟩
      intro d member
      rcases List.mem_cons.mp member with rfl | later
      · exact word
      · exact words d later
    · split at found <;> try contradiction
      rename_i follows
      cases Option.some.inj found
      refine ⟨?_,follows⟩
      intro d member
      cases List.mem_singleton.mp member
      exact word

theorem labelLengthGreatest {target : Text → Bool} {t : Text} {m : Nat} (some : 0 < m)
    (fits : m ≤ t.length) (words : ∀ c ∈ t.take m, Text.isWord c = true)
    (follows : target (t.drop m) = true) : ∃ n, labelLength? target t = .some n ∧ m ≤ n := by
  induction t generalizing m with
  | nil =>
    simp only [List.length_nil] at fits
    omega
  | cons c rest ih =>
    obtain ⟨m,rfl⟩ : ∃ k, m = k + 1 := ⟨m - 1,by omega⟩
    have word := words c (by simp)
    simp only [labelLength?, word, if_true]
    by_cases last : m = 0
    · subst last
      cases deeper : labelLength? target rest with
      | none => exact ⟨1,by simpa using follows,Nat.le_refl 1⟩
      | some n => exact ⟨n + 1,rfl,by omega⟩
    · have tail : ∀ d ∈ rest.take m, Text.isWord d = true := by
        intro d member
        exact words d (List.mem_cons_of_mem c member)
      obtain ⟨n,deeper,less⟩ := ih (by omega) (by simpa using fits) tail follows
      exact ⟨n + 1,by rw [deeper],by omega⟩

theorem runTaken {p : Char → Bool} {t : Text} {n : Nat} (found : run? p t = some n) :
    ∀ c ∈ t.take n, p c = true := by
  unfold run? at found
  split at found <;> try contradiction
  cases Option.some.inj found
  intro c member
  rw [Text.spanTake] at member
  exact List.mem_takeWhile_imp member

theorem wordsTaken {p : Pattern} {t : Text} {n : Nat} (found : p.length? t = some n)
    (inLine : p ≠ .newline) (read : p ≠ .comment) : ∀ c ∈ t.take n, Text.isWord c = true := by
  cases p with
  | newline => contradiction
  | comment => contradiction
  | digits => exact fun c member => Text.digitWord (runTaken found c member)
  | word => exact runTaken found
  | dataLabel => exact (labelLengthTaken found).1
  | instructionLabel => exact (labelLengthTaken found).1
  | keyword role =>
    simp only [length?] at found
    split at found <;> try contradiction
    rename_i starts
    cases Option.some.inj found
    obtain ⟨k,_,spelled⟩ := startsWithRoleExact.mp starts
    exact fun c member => (Keyword.lettersTaken spelled member).1

def isLabel : Pattern → Bool
  | .dataLabel | .instructionLabel => true
  | _ => false

end Pattern

namespace Rule

theorem labelOrDueTaken {label : Pattern} {atStart due : Bool} {rest : Text} {n : Nat}
    (inLine : label ≠ .newline) (read : label ≠ .comment)
    (found : labelOrDue label atStart due rest = some n) : ∀ c ∈ rest.take n, Text.isWord c = true := by
  unfold labelOrDue at found
  split at found
  · rename_i labelled
    cases Option.some.inj found
    split at labelled <;> try contradiction
    exact Pattern.wordsTaken labelled inLine read
  · split at found <;> try contradiction
    exact Pattern.wordsTaken found (by decide) (by decide)

theorem wordsTaken {atStart : Bool} {before : Flags} {rest : Text} {rule : Rule} {n : Nat}
    (found : rule.length? atStart before rest = some n) : ∀ c ∈ rest.take n, Text.isWord c = true := by
  cases rule with
  | number =>
    simp only [length?] at found
    split at found <;> try contradiction
    exact Pattern.wordsTaken found (by decide) (by decide)
  | var => exact labelOrDueTaken (by decide) (by decide) found
  | link => exact labelOrDueTaken (by decide) (by decide) found
  | _ =>
    simp only [length?] at found
    exact Pattern.wordsTaken found (by decide) (by decide)

theorem lengthAlike {atStart : Bool} {before : Flags} {t u : Text}
    (same : ∀ p : Pattern, (p.isLabel = true → atStart = true) → p.length? t = p.length? u) (rule : Rule) :
    rule.length? atStart before t = rule.length? atStart before u := by
  have keyword (role : Role) : (Pattern.keyword role).length? t = (Pattern.keyword role).length? u :=
    same (.keyword role) nofun
  have word : Pattern.word.length? t = Pattern.word.length? u := same .word nofun
  have label (p : Pattern) (due : Bool) : labelOrDue p atStart due t = labelOrDue p atStart due u := by
    rw [labelOrDue, labelOrDue, word]
    cases start : atStart with
    | false => rfl
    | true => rw [same p fun _ => start]
  cases rule with
  | number => exact congrArg (ite _ · _) (same .digits nofun)
  | var => exact label .dataLabel _
  | link => exact label .instructionLabel _
  | _ => exact keyword _

end Rule
end LittleMan
