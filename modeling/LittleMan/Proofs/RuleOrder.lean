import LittleMan.Proofs.Lexemes
import LittleMan.Proofs.Recognition

/-! The order of the rules. Of the rules with fixed words at most one takes something at any place: no keyword begins
with a digit, and every keyword has one role. So it makes no difference to a document which of them is tried first. -/
namespace LittleMan

namespace Rule
variable {atStart : Bool} {before : Flags} {rest : Text} {rule second : Rule} {n m : Nat}

theorem fixedTaken (fixed : rule ∈ fixedRules) (takes : rule.length? atStart before rest = some n) :
    (rule = .number ∧ Keyword.at? rest = none) ∨ ∃ k, Keyword.at? rest = some k ∧ rule = k.role.rule := by
  rcases fixedRole.mp fixed with rfl | ⟨role,rfl⟩
  · refine .inl ⟨rfl,?_⟩
    cases found : Keyword.at? rest with
    | none => rfl
    | some k =>
      obtain ⟨c,more,rfl,_,letter⟩ := Keyword.atHead found
      cases (numberMissed (Text.endsHead letter)).symm.trans takes
  · rw [roleLength] at takes
    cases found : Keyword.at? rest with
    | none => cases (Pattern.keywordMissed found role).symm.trans takes
    | some k =>
      rw [Pattern.keywordLength found] at takes
      split at takes <;> try contradiction
      rename_i same
      exact .inr ⟨k,rfl,by rw [same]⟩

theorem fixedAlone (fixed : rule ∈ fixedRules) (another : second ∈ fixedRules)
    (takes : rule.length? atStart before rest = some n) (also : second.length? atStart before rest = some m) :
    rule = second := by
  rcases fixedTaken fixed takes with ⟨rfl,free⟩ | ⟨k,found,rfl⟩ <;>
    rcases fixedTaken another also with ⟨rfl,missed⟩ | ⟨l,again,rfl⟩
  · rfl
  · cases free.symm.trans again
  · cases missed.symm.trans found
  · cases found.symm.trans again
    rfl

end Rule

namespace Verdict
variable {atStart : Bool} {before : Flags} {rest : Text} {fixed : List Rule}

/- Only one rule comes into question, so the first that takes something is any that does. -/
theorem firstRuleExact (within : ∀ rule ∈ fixed, rule ∈ Rule.fixedRules) {rule : Rule} {n : Nat} :
    firstRule? fixed atStart before rest = some (rule,n) ↔
      rule ∈ fixed ∧ rule.length? atStart before rest = some n := by
  have taken {first : Rule} {m : Nat} (found : firstRule? fixed atStart before rest = some (first,m)) :
      first ∈ fixed ∧ first.length? atStart before rest = some m := by
    obtain ⟨tried,member,tries⟩ := List.exists_of_findSome?_eq_some found
    obtain ⟨l,takes,same⟩ := Option.map_eq_some_iff.mp tries
    cases same
    exact ⟨member,takes⟩
  refine ⟨taken,fun ⟨member,takes⟩ => ?_⟩
  cases found : firstRule? fixed atStart before rest with
  | none =>
    have missed := List.findSome?_eq_none_iff.mp found rule member
    rw [takes] at missed
    contradiction
  | some first =>
    obtain ⟨there,also⟩ := taken found
    have same := Rule.fixedAlone (within _ there) (within _ member) also takes
    rw [same, takes] at also
    rw [← same, Option.some.inj also]

theorem firstRuleReordered (order : fixed.Perm Rule.fixedRules) :
    firstRule? fixed atStart before rest = firstRule? Rule.fixedRules atStart before rest := by
  refine Option.ext fun ⟨rule,n⟩ => ?_
  rw [firstRuleExact (fun _ member => order.mem_iff.mp member), firstRuleExact (fun _ member => member),
    order.mem_iff]

theorem judgeReordered (order : fixed.Perm Rule.fixedRules) (later : List Rule) :
    judge (fixed ++ later) atStart before rest = judge (Rule.fixedRules ++ later) atStart before rest := by
  have tries (earlier : List Rule) : firstRule? (earlier ++ later) atStart before rest =
      (firstRule? earlier atStart before rest).or (firstRule? later atStart before rest) := List.findSome?_append
  rw [judge, judge, tries, tries, firstRuleReordered order]

end Verdict

theorem Cursor.tryRuleMatched {c : Cursor} {before : Flags} {rule : Rule} (matched : (c.tryRule before rule).1 = true) :
    ∃ n, rule.length? c.startsStatement before c.rest = some n := by
  rw [tryRule] at matched
  split at matched
  · rename_i n takes
    exact ⟨n,takes⟩
  · contradiction

section
variable {table second : List Rule}

theorem Lexeme.scanJudgedAlike
    (same : ∀ atStart before rest, Verdict.judge table atStart before rest = Verdict.judge second atStart before rest)
    (head start : Nat) (rest : Text) (before : Flags) :
    scan table head start rest before = scan second head start rest before := by
  fun_induction scan table head start rest before with
  | case1 => rw [scanNil]
  | case2 start rest before ahead verdict width ih => rw [scanStep ahead (same _ _ _).symm, ih]

theorem drawLinesJudgedAlike
    (same : ∀ atStart before rest, Verdict.judge table atStart before rest = Verdict.judge second atStart before rest)
    (tabAt : Nat → Except Failure TabSize) (number : Nat) (lines : List Text) (before : Flags) :
    drawLinesWith table tabAt number lines before = drawLinesWith second tabAt number lines before := by
  induction lines generalizing number before with
  | nil => rfl
  | cons line more ih =>
    cases line with
    | nil => rw [drawLinesWith, drawLinesWith, ih]
    | cons c line =>
      have later := funext (ih (number + 1))
      cases asked : tabAt number with
      | error e => simp only [drawLinesWith, asked]
      | ok tab =>
        simp only [drawLinesWith, asked, drawLineLexemes, Lexeme.ofLine, Lexeme.scanJudgedAlike same, later]

end

theorem rulesReordered {fixed : List Rule} (order : fixed.Perm Rule.fixedRules) :
    (∀ (c : Cursor) (before : Flags), ∀ rule ∈ fixed, ∀ second ∈ fixed,
      (c.tryRule before rule).1 = true → (c.tryRule before second).1 = true → rule = second) ∧
    ∀ (tab : Except Failure TabSize) (text : Text) (before : Flags),
      drawLinesWith (fixed ++ [.var,.link]) (fun _ => tab) 1 (Text.lines text) before =
        Drawing.ofText tab text before := by
  constructor
  · intro c before rule member second another matched also
    obtain ⟨n,takes⟩ := Cursor.tryRuleMatched matched
    obtain ⟨m,takesToo⟩ := Cursor.tryRuleMatched also
    exact Rule.fixedAlone (order.mem_iff.mp member) (order.mem_iff.mp another) takes takesToo
  · intro tab text before
    exact drawLinesJudgedAlike (fun _ _ _ => Verdict.judgeReordered order _) _ 1 _ before

theorem rulesReversed :
    let fixed : List Rule := [.data,.other,.variabled,.branch,.arithmetic,.io,.number]
    let text := "DAT 12dat\n\tOUTER\nX sub9".toList
    fixed.Perm Rule.fixedRules ∧
      drawLinesWith (fixed ++ [.var,.link]) (fun _ => .ok .standard) 1 (Text.lines text) .clear =
        Drawing.ofText (.ok .standard) text .clear := by
  intro fixed text
  have order : fixed.Perm Rule.fixedRules := by decide
  exact ⟨order,(rulesReordered order).2 (.ok .standard) text .clear⟩

end LittleMan
