import LittleMan.Assembly.Verdict
import LittleMan.Proofs.Patterns

/-! What each verdict says of the text it is passed on. A unit with a tag is a solid text with blanks
after it, and a unit without one is a single blank. -/
namespace LittleMan.Verdict
open Text (Blank Solid)
variable {table : List Rule} {atStart : Bool} {before : Flags} {rest : Text}

theorem judgedAlike {t u : Text}
    (same : ∀ p : Pattern, (p.isLabel = true → atStart = true) → p.length? t = p.length? u) :
    judge table atStart before t = judge table atStart before u := by
  have newline : Pattern.newline.length? t = Pattern.newline.length? u := same .newline nofun
  have comment : Pattern.comment.length? t = Pattern.comment.length? u := same .comment nofun
  have rules : firstRule? table atStart before t = firstRule? table atStart before u := by
    rw [firstRule?, firstRule?]
    congr 1
    funext rule
    rw [Rule.lengthAlike same]
  rw [judge, judge, rules, newline, comment]

theorem newlineJudged (judged : judge table atStart before rest = .newline) : rest.head? = some '\n' := by
  unfold judge at judged
  split at judged
  · rename_i found
    simp only [Pattern.length?] at found
    split at found <;> try contradiction
    assumption
  · split at judged
    · contradiction
    · split at judged <;> contradiction

theorem ruledJudged {rule : Rule} {n : Nat} (judged : judge table atStart before rest = .ruled rule n) :
    rule ∈ table ∧ rule.length? atStart before rest = some n := by
  unfold judge at judged
  split at judged
  · contradiction
  · split at judged
    · rename_i found
      cases judged
      obtain ⟨tried,member,taken⟩ := List.exists_of_findSome?_eq_some found
      obtain ⟨m,length,same⟩ := Option.map_eq_some_iff.mp taken
      cases same
      exact ⟨member,length⟩
    · split at judged <;> contradiction

theorem commentJudged (judged : judge table atStart before rest = .comment) :
    ∃ c, rest.head? = some c ∧ Text.isBlank c = false := by
  unfold judge at judged
  split at judged
  · contradiction
  · split at judged
    · contradiction
    · split at judged <;> try contradiction
      rename_i n found
      have taken := Pattern.runTaken found
      have bounds := Pattern.runBounds found
      cases rest with
      | nil =>
        simp only [List.length_nil] at bounds
        omega
      | cons c rest =>
        have first : c ∈ (c :: rest).take n := by
          rw [List.take_cons bounds.1]
          exact List.mem_cons_self
        exact ⟨c,rfl,by simpa using taken c first⟩

theorem skippedJudged (judged : judge table atStart before rest = .skipped) {c : Char}
    (head : rest.head? = some c) : Text.isBlank c = true := by
  unfold judge at judged
  split at judged
  · contradiction
  · split at judged
    · contradiction
    · split at judged <;> try contradiction
      rename_i missed
      cases rest with
      | nil => contradiction
      | cons d rest =>
        cases Option.some.inj head
        by_cases blank : Text.isBlank c = true
        · exact blank
        · simp [Pattern.length?, Pattern.run?, Text.span, blank] at missed

theorem untaggedBlank (judged : Verdict.judge table atStart before rest = verdict)
    (untagged : verdict.tag? = none) : Blank (rest.take (verdict.width rest)) := by
  have single : ∀ c, rest.head? = some c → Text.isBlank c = true → Blank (rest.take 1) := by
    intro c head blank d member
    cases rest with
    | nil => contradiction
    | cons e rest =>
      cases Option.some.inj head
      cases List.mem_singleton.mp member
      exact blank
  cases verdict with
  | newline => exact single '\n' (newlineJudged judged) (by decide)
  | ruled rule n => contradiction
  | comment => contradiction
  | skipped =>
    cases rest with
    | nil => intro c member; simp at member
    | cons c rest =>
      have one : width (c :: rest) .skipped = 1 := by simp [width]
      rw [one]
      exact single c rfl (skippedJudged judged rfl)

theorem ruledSolid {rule : Rule} {n : Nat} (length : rule.length? atStart before rest = some n) :
    Solid (rest.take n) := by
  have bounds := Rule.lengthBounds length
  have filled : rest.take n ≠ [] := by
    apply List.ne_nil_of_length_pos
    rw [List.length_take, Nat.min_eq_left bounds.2]
    exact bounds.1
  exact Text.solidWord filled (Rule.wordsTaken length)

theorem ruledTrimmed {rule : Rule} {n : Nat} (length : rule.length? atStart before rest = some n) :
    Text.trimEnd (rest.take (n + Text.indent (rest.drop n))) = rest.take n := by
  have blank : Blank ((rest.drop n).take (Text.indent (rest.drop n))) := by
    intro c member
    rw [Text.indent, Text.spanTake] at member
    exact List.mem_takeWhile_imp member
  rw [List.take_add, Text.trimEndAppend _ blank, Text.trimEndSolid (ruledSolid length)]

theorem taggedSolid (judged : Verdict.judge table atStart before rest = verdict) {tag : Tag}
    (tagged : verdict.tag? = some tag) : Solid (Text.trimEnd (rest.take (verdict.width rest))) := by
  cases verdict with
  | newline => contradiction
  | skipped => contradiction
  | comment =>
    obtain ⟨c,head,clear⟩ := commentJudged judged
    rw [width, List.take_length]
    exact Text.solidTrimEnd head clear
  | ruled rule n =>
    obtain ⟨_,length⟩ := ruledJudged judged
    rw [width, ruledTrimmed length]
    exact ruledSolid length

end LittleMan.Verdict
