import LittleMan.Proofs.Verdicts

/-! The verdict on a text that is known to begin with a keyword, a label, a word or digits that are due,
or a comment. A word ends at the first character that is no word character, and no keyword that
stands beyond that character is seen inside it. -/
namespace LittleMan
open Text (Ends)

theorem endsWithin {p : Char → Bool} {w more : Text} {n : Nat} (ends : Ends p more)
    (inside : ∀ c ∈ (w ++ more).take n, p c = true) (fits : n ≤ (w ++ more).length) : n ≤ w.length := by
  by_contra beyond
  cases more with
  | nil =>
    rw [List.append_nil] at fits
    exact beyond fits
  | cons c more =>
    have member : c ∈ (w ++ c :: more).take n := by
      rw [List.take_append, show n - w.length = (n - w.length - 1) + 1 by omega, List.take_succ_cons]
      exact List.mem_append_right _ List.mem_cons_self
    have := inside c member
    simp only [ends c rfl, Bool.false_eq_true] at this

namespace Keyword

theorem spelledWithin {k : Keyword} {w more : Text} (ends : Ends Text.isWord more)
    (spelled : k.spelling <+: (w ++ more).map Text.foldCase) : k.spelling <+: w.map Text.foldCase := by
  have letters : ∀ c ∈ (w ++ more).take 3, Text.isWord c = true := fun c member =>
    (lettersTaken spelled member).1
  have length := spelled.length_le
  rw [spellingLength, List.length_map] at length
  have short := endsWithin ends letters length
  rw [List.map_append] at spelled
  exact List.prefix_of_prefix_length_le spelled (List.prefix_append _ _)
    (by rw [spellingLength, List.length_map]; exact short)

theorem atNone {t : Text} (free : ∀ k ∈ all, ¬ k.spelling <+: t.map Text.foldCase) : at? t = none := by
  cases found : at? t with
  | none => rfl
  | some k => exact absurd (atExact.mp found) (free k (memAll k))

theorem atNoneWithin {w more : Text} (ends : Ends Text.isWord more)
    (free : ∀ k ∈ all, ¬ k.spelling <+: w.map Text.foldCase) : at? (w ++ more) = none :=
  atNone fun k member spelled => free k member (spelledWithin ends spelled)

theorem atHead {t : Text} {k : Keyword} (found : at? t = some k) :
    ∃ c more, t = c :: more ∧ Text.isWord c = true ∧ Text.isDigit c = false := by
  have spelled := atExact.mp found
  have length := spelled.length_le
  rw [spellingLength, List.length_map] at length
  cases t with
  | nil => simp at length
  | cons c more => exact ⟨c,more,rfl,lettersTaken spelled List.mem_cons_self⟩

end Keyword

namespace Pattern
variable {w more : Text}

theorem runWord {p : Char → Bool} (some : w ≠ []) (inside : ∀ c ∈ w, p c = true) (ends : Ends p more) :
    run? p (w ++ more) = .some w.length := by
  have length := Text.spanExact inside ends
  have positive := List.length_pos_iff.mpr some
  rw [run?, length, if_neg (by omega)]

theorem runMissed {p : Char → Bool} {t : Text} (ends : Ends p t) : run? p t = none := by
  have length : Text.span p t = 0 := @Text.spanExact p [] t nofun ends
  rw [run?, length, if_pos rfl]

theorem newlineMissed {c : Char} (inLine : c ≠ '\n') : newline.length? (c :: more) = none := by
  rw [length?, if_neg]
  intro same
  exact inLine (Option.some.inj same)

theorem labelLengthWord {target : Text → Bool} (some : w ≠ []) (words : ∀ c ∈ w, Text.isWord c = true)
    (ends : Ends Text.isWord more) (follows : target more = true) :
    labelLength? target (w ++ more) = .some w.length := by
  have whole : w.length ≤ (w ++ more).length := by simp
  have inside : ∀ c ∈ (w ++ more).take w.length, Text.isWord c = true := by
    rw [List.take_left]
    exact words
  have ahead : target ((w ++ more).drop w.length) = true := by
    rw [List.drop_left]
    exact follows
  obtain ⟨n,found,greatest⟩ := labelLengthGreatest (List.length_pos_iff.mpr some) whole inside ahead
  have least := endsWithin ends (labelLengthTaken found).1 (labelLengthBounds found).2
  rw [found, Nat.le_antisymm least greatest]

theorem labelLengthMissed {target : Text → Bool} (ends : Ends Text.isWord more)
    (missed : ∀ n, 0 < n → n ≤ w.length → target (w.drop n ++ more) = false) :
    labelLength? target (w ++ more) = none := by
  cases found : labelLength? target (w ++ more) with
  | none => rfl
  | some n =>
    have bounds := labelLengthBounds found
    obtain ⟨words,follows⟩ := labelLengthTaken found
    have within := endsWithin ends words bounds.2
    rw [List.drop_append_of_le_length within, missed n bounds.1 within] at follows
    contradiction

theorem keywordLength {t : Text} {k : Keyword} (found : Keyword.at? t = some k) (role : Role) :
    (keyword role).length? t = if k.role = role then some 3 else none := by
  simp only [length?, startsWithRole, found, beq_iff_eq]

theorem keywordMissed {t : Text} (free : Keyword.at? t = none) (role : Role) :
    (keyword role).length? t = none := by
  simp only [length?, startsWithRole, free, Bool.false_eq_true, if_false]

theorem leadsToSolid {t : Text} (stops : Ends Text.isBlank t) (p : Role → Bool) :
    leadsTo p t = startsWithRole p t := by
  cases t with
  | nil => rfl
  | cons c t =>
    have solid : Text.isAsciiBlank c = false := by
      rw [Bool.eq_false_iff]
      intro blank
      have := stops c rfl
      rw [Text.asciiIsBlank blank] at this
      contradiction
    rw [leadsTo, List.dropWhile_cons, solid]
    rfl

theorem leadsToKeyword {gap t : Text} {k : Keyword} (spaces : ∀ c ∈ gap, Text.isAsciiBlank c = true)
    (found : Keyword.at? t = some k) (p : Role → Bool) : leadsTo p (gap ++ t) = p k.role := by
  obtain ⟨c,more,rfl,word,_⟩ := Keyword.atHead found
  have stops : Ends Text.isBlank (c :: more) := Text.endsHead (Text.wordSolid word)
  have passed : leadsTo p (gap ++ c :: more) = leadsTo p (c :: more) := by
    rw [leadsTo, leadsTo, List.dropWhile_append_of_pos spaces]
  rw [passed, leadsToSolid stops, startsWithRole, found]

end Pattern

def Role.rule : Role → Rule
  | .io => .io
  | .arithmetic => .arithmetic
  | .branch => .branch
  | .variabled => .variabled
  | .other => .other
  | .data => .data

namespace Rule
variable {atStart : Bool} {before : Flags} {rest : Text} {rule : Rule} {k : Keyword}

theorem fixedRole : rule ∈ fixedRules ↔ rule = number ∨ ∃ role : Role, rule = role.rule := by
  constructor
  · intro fixed
    simp only [fixedRules, List.mem_cons, List.not_mem_nil, or_false] at fixed
    rcases fixed with rfl | rfl | rfl | rfl | rfl | rfl | rfl
    · exact .inl rfl
    · exact .inr ⟨.io,rfl⟩
    · exact .inr ⟨.arithmetic,rfl⟩
    · exact .inr ⟨.branch,rfl⟩
    · exact .inr ⟨.variabled,rfl⟩
    · exact .inr ⟨.other,rfl⟩
    · exact .inr ⟨.data,rfl⟩
  · intro fixed
    rcases fixed with rfl | ⟨role,rfl⟩
    · exact List.mem_cons_self
    · cases role <;> decide

theorem roleLength (role : Role) :
    role.rule.length? atStart before rest = (Pattern.keyword role).length? rest := by
  cases role <;> rfl

theorem fixedFree (fixed : rule ∈ fixedRules) (numberless : number.length? atStart before rest = none)
    (free : Keyword.at? rest = none) : rule.length? atStart before rest = none := by
  rcases fixedRole.mp fixed with rfl | ⟨role,rfl⟩
  · exact numberless
  · rw [roleLength, Pattern.keywordMissed free]

theorem fixedOther (fixed : rule ∈ fixedRules) (numberless : number.length? atStart before rest = none)
    (found : Keyword.at? rest = some k) (other : rule ≠ k.role.rule) :
    rule.length? atStart before rest = none := by
  rcases fixedRole.mp fixed with rfl | ⟨role,rfl⟩
  · exact numberless
  · rw [roleLength, Pattern.keywordLength found, if_neg]
    intro same
    exact other (by rw [same])

theorem numberMissed (letter : Ends Text.isDigit rest) : number.length? atStart before rest = none := by
  rw [length?]
  split
  · exact Pattern.runMissed letter
  · rfl

end Rule

namespace Verdict
variable {atStart : Bool} {before : Flags} {rest w more : Text} {k : Keyword}

theorem firstRuleMissed {table : List Rule} (dark : Ends Text.isWord rest) :
    firstRule? table atStart before rest = none := by
  cases found : firstRule? table atStart before rest with
  | none => rfl
  | some taken =>
    obtain ⟨rule,_,length⟩ := List.exists_of_findSome?_eq_some found
    obtain ⟨n,takes,_⟩ := Option.map_eq_some_iff.mp length
    have bounds := Rule.lengthBounds takes
    have short := endsWithin (w := []) dark (Rule.wordsTaken takes) bounds.2
    rw [List.length_nil] at short
    omega

theorem judgeRuled {earlier later : List Rule} {rule : Rule} {n : Nat}
    (missed : ∀ r ∈ earlier, r.length? atStart before rest = none)
    (takes : rule.length? atStart before rest = some n) :
    judge (earlier ++ rule :: later) atStart before rest = .ruled rule n := by
  have passed : (earlier.findSome? fun r => (r.length? atStart before rest).map (r,·)) = none := by
    rw [List.findSome?_eq_none_iff]
    intro r member
    rw [missed r member]
    rfl
  have found : firstRule? (earlier ++ rule :: later) atStart before rest = some (rule,n) := by
    rw [firstRule?, List.findSome?_append, passed, List.findSome?_cons, takes]
    rfl
  have bounds := Rule.lengthBounds takes
  have words := Rule.wordsTaken takes
  have inLine : Pattern.newline.length? rest = none := by
    cases rest with
    | nil => rfl
    | cons c rest =>
      have word := words c (by rw [List.take_cons bounds.1]; exact List.mem_cons_self)
      apply Pattern.newlineMissed
      intro same
      rw [same] at word
      contradiction
  rw [judge, inLine, found]

theorem judgeKeyword (found : Keyword.at? rest = some k) :
    judge Rule.table atStart before rest = .ruled k.role.rule 3 := by
  obtain ⟨c,more,rfl,_,letter⟩ := Keyword.atHead found
  have numberless : Rule.number.length? atStart before (c :: more) = none :=
    Rule.numberMissed (Text.endsHead letter)
  obtain ⟨earlier,later,parts,fresh⟩ := List.eq_append_cons_of_mem (Rule.fixedRole.mpr (.inr ⟨k.role,rfl⟩))
  rw [Rule.table, parts, List.append_assoc, List.cons_append]
  apply judgeRuled
  · intro rule member
    have fixed : rule ∈ Rule.fixedRules := by
      rw [parts]
      exact List.mem_append_left _ member
    apply Rule.fixedOther fixed numberless found
    intro same
    rw [same] at member
    exact fresh member
  · rw [Rule.roleLength, Pattern.keywordLength found, if_pos rfl]

theorem judgeVar {n : Nat} (numberless : Rule.number.length? atStart before rest = none)
    (free : Keyword.at? rest = none) (takes : Rule.var.length? atStart before rest = some n) :
    judge Rule.table atStart before rest = .ruled .var n := by
  have parts : Rule.table = Rule.fixedRules ++ .var :: [.link] := rfl
  rw [parts]
  exact judgeRuled (fun rule fixed => Rule.fixedFree fixed numberless free) takes

theorem judgeLink {n : Nat} (numberless : Rule.number.length? atStart before rest = none)
    (free : Keyword.at? rest = none) (missed : Rule.var.length? atStart before rest = none)
    (takes : Rule.link.length? atStart before rest = some n) :
    judge Rule.table atStart before rest = .ruled .link n := by
  have parts : Rule.table = (Rule.fixedRules ++ [.var]) ++ .link :: [] := rfl
  rw [parts]
  apply judgeRuled _ takes
  intro rule member
  rcases List.mem_append.mp member with fixed | last
  · exact Rule.fixedFree fixed numberless free
  · cases List.mem_singleton.mp last
    exact missed

theorem judgeNumber (due : before.data = true) (some : w ≠ []) (digits : ∀ c ∈ w, Text.isDigit c = true)
    (ends : Ends Text.isDigit more) :
    judge Rule.table atStart before (w ++ more) = .ruled .number w.length := by
  have parts : Rule.table = [] ++ .number :: Rule.table.tail := rfl
  rw [parts]
  apply judgeRuled fun _ member => absurd member List.not_mem_nil
  rw [Rule.length?, if_pos due]
  exact Pattern.runWord some digits ends

theorem judgeComment {c : Char} (clear : Text.isBlank c = false) (mark : Text.isWord c = false) :
    judge Rule.table atStart before (c :: more) = .comment := by
  have inLine : Pattern.newline.length? (c :: more) = none := by
    apply Pattern.newlineMissed
    intro same
    rw [same] at clear
    contradiction
  have taken : Pattern.comment.length? (c :: more) = some (more.takeWhile (!Text.isBlank ·)).length.succ := by
    simp [Pattern.length?, Pattern.run?, Text.span, clear]
  rw [judge, inLine, firstRuleMissed (Text.endsHead mark), taken]

theorem judgeBlank {c : Char} (blank : Text.isBlank c = true) (inLine : c ≠ '\n') :
    judge Rule.table atStart before (c :: more) = .skipped := by
  have dark : Ends Text.isWord (c :: more) := Text.endsHead (Text.blankDark blank)
  have clear : Ends (!Text.isBlank ·) (c :: more) := Text.endsHead (by simp only [blank, Bool.not_true])
  have missed : Pattern.comment.length? (c :: more) = none := Pattern.runMissed clear
  rw [judge, Pattern.newlineMissed inLine, firstRuleMissed dark, missed]

end Verdict
end LittleMan
