import Mathlib.Order.Bounds.Basic
import LittleMan.Cursor
import LittleMan.Proofs.Recognition

/-! How far a label reaches. Of all beginnings of a word that lead on to a keyword the longest is taken, so a word
right before a keyword is a label as a whole, and any other ends before the last keyword inside it. -/
namespace LittleMan.Pattern
open Text (Ends)

inductive Before : Pattern → List Text → Prop where
  | data : Before .dataLabel ["DAT".toList]
  | instruction : Before .instructionLabel
      (["STA","STO","LDA","HLT","BRA","BRZ","BRP","ADD","SUB","INP","OUT","OTC"].map String.toList)

def Heads (words : List Text) (t : Text) : Prop := ∃ word ∈ words, word <+: t.map Text.foldCase

def Follows (words : List Text) (t : Text) : Prop :=
  ∃ n, (∀ c ∈ t.take n, Text.isAsciiBlank c = true) ∧ Heads words (t.drop n)

structure Label (words : List Text) (t : Text) (k : Nat) : Prop where
  some : 0 < k
  word : ∀ c ∈ t.take k, Text.isWord c = true
  follows : Follows words (t.drop k)

def Spells (p : Role → Bool) (words : List Text) : Prop :=
  ∀ word, word ∈ words ↔ ∃ k : Keyword, p k.role = true ∧ k.spelling = word

theorem spellsFiltered {p : Role → Bool} {words : List Text}
    (listed : words = (Keyword.all.filter (p ·.role)).map Keyword.spelling) : Spells p words := by
  intro word
  simp only [listed, List.mem_map, List.mem_filter, Keyword.memAll, true_and]

theorem Before.reads {label : Pattern} {words : List Text} (before : label.Before words) :
    ∃ p, Spells p words ∧ label.length? = labelLength? (leadsTo p) := by
  cases before with
  | data => exact ⟨(· == .data),spellsFiltered rfl,rfl⟩
  | instruction => exact ⟨Role.isInstruction,spellsFiltered rfl,rfl⟩

section
variable {p : Role → Bool} {words : List Text} {t : Text} {k : Nat}

theorem headsExact (spells : Spells p words) : Heads words t ↔ startsWithRole p t = true := by
  rw [startsWithRoleExact]
  constructor
  · rintro ⟨word,member,heads⟩
    obtain ⟨keyword,role,rfl⟩ := (spells word).mp member
    exact ⟨keyword,role,heads⟩
  · rintro ⟨keyword,role,heads⟩
    exact ⟨keyword.spelling,(spells keyword.spelling).mpr ⟨keyword,role,rfl⟩,heads⟩

/- The letters of a keyword are no blanks, so there is one number of blanks only to go over. -/
theorem followsExact (spells : Spells p words) : Follows words t ↔ leadsTo p t = true := by
  constructor
  · rintro ⟨n,blanks,heads⟩
    obtain ⟨word,member,spelled⟩ := heads
    obtain ⟨keyword,role,rfl⟩ := (spells word).mp member
    rw [← List.take_append_drop n t, leadsToKeyword blanks (Keyword.atExact.mpr spelled), role]
  · intro leads
    have passed : t.drop (Text.span Text.isAsciiBlank t) = t.dropWhile Text.isAsciiBlank := by
      have parts := Text.spanAppend Text.isAsciiBlank t
      exact List.append_cancel_left (parts.trans List.takeWhile_append_dropWhile.symm)
    refine ⟨Text.span Text.isAsciiBlank t,?_,?_⟩
    · rw [Text.spanTake]
      exact fun c member => List.mem_takeWhile_imp member
    · rw [headsExact spells, passed]
      exact leads

theorem Label.fits (spells : Spells p words) (label : Label words t k) : k ≤ t.length := by
  obtain ⟨n,_,heads⟩ := label.follows
  have length := startsWithRoleLength ((headsExact spells).mp heads)
  rw [List.length_drop, List.length_drop] at length
  omega

theorem labelMissed (spells : Spells p words) (missed : labelLength? (leadsTo p) t = none) : ¬ Label words t k := by
  intro label
  obtain ⟨n,found,_⟩ := labelLengthGreatest label.some (label.fits spells) label.word
    ((followsExact spells).mp label.follows)
  cases missed.symm.trans found

theorem labelFound (spells : Spells p words) (found : labelLength? (leadsTo p) t = some k) :
    IsGreatest {k | Label words t k} k := by
  obtain ⟨word,leads⟩ := labelLengthTaken found
  refine ⟨⟨(labelLengthBounds found).1,word,(followsExact spells).mpr leads⟩,fun m label => ?_⟩
  obtain ⟨n,longest,reaches⟩ := labelLengthGreatest label.some (label.fits spells) label.word
    ((followsExact spells).mp label.follows)
  cases Option.some.inj (found.symm.trans longest)
  exact reaches

theorem wordWithin (fits : k ≤ t.length) (word : ∀ c ∈ t.take k, Text.isWord c = true) :
    k ≤ Text.span Text.isWord t := by
  have parts := Text.spanAppend Text.isWord t
  rw [← parts] at fits word
  exact endsWithin (Text.spanEnds Text.isWord t) word fits

theorem wordTaken {c : Char} (member : c ∈ t.take (Text.span Text.isWord t)) : Text.isWord c = true := by
  rw [Text.spanTake] at member
  exact List.mem_takeWhile_imp member

theorem labelWhole (spells : Spells p words) (some : 0 < Text.span Text.isWord t)
    (follows : Follows words (t.drop (Text.span Text.isWord t))) :
    IsGreatest {k | Label words t k} (Text.span Text.isWord t) :=
  ⟨⟨some,fun _ => wordTaken,follows⟩,fun _ label => wordWithin (label.fits spells) label.word⟩

/- Within a word there are no blanks to go over, and the letters of the keyword belong to it too. -/
theorem headsWithin (spells : Spells p words) (label : Label words t k) (short : k < Text.span Text.isWord t) :
    Heads words (t.drop k) ∧ k + 3 ≤ Text.span Text.isWord t := by
  have solid : Ends Text.isBlank (t.drop k) := by
    intro c first
    have next : c ∈ t.take (k + 1) := by
      rw [List.head?_drop] at first
      rw [List.take_add_one, first]
      exact List.mem_append_right _ List.mem_cons_self
    exact Text.wordSolid (wordTaken (List.take_subset_take_left t short next))
  have leads := (followsExact spells).mp label.follows
  rw [leadsToSolid solid] at leads
  obtain ⟨keyword,_,spelled⟩ := startsWithRoleExact.mp leads
  have fits : k + 3 ≤ t.length := by
    have length := startsWithRoleLength leads
    rw [List.length_drop] at length
    omega
  refine ⟨(headsExact spells).mpr leads,wordWithin fits fun c member => ?_⟩
  rw [List.take_add] at member
  rcases List.mem_append.mp member with before | letter
  · exact label.word c before
  · exact (Keyword.lettersTaken spelled letter).1

theorem labelInside (spells : Spells p words) (stray : ¬ Follows words (t.drop (Text.span Text.isWord t))) :
    Label words t k ↔ 0 < k ∧ k + 3 ≤ Text.span Text.isWord t ∧ Heads words (t.drop k) := by
  constructor
  · intro label
    have within := wordWithin (label.fits spells) label.word
    have short : k ≠ Text.span Text.isWord t := by
      rintro rfl
      exact stray label.follows
    obtain ⟨heads,inside⟩ := headsWithin spells label (by omega)
    exact ⟨label.some,inside,heads⟩
  · rintro ⟨some,inside,heads⟩
    have word : ∀ c ∈ t.take k, Text.isWord c = true := fun c member =>
      wordTaken (List.take_subset_take_left t (by omega) member)
    exact ⟨some,word,0,fun c member => absurd member List.not_mem_nil,heads⟩

end

theorem matchAt (label : Pattern) (line : Text) {pos : Nat} (bound : pos ≤ line.length) (start : Int) (tab : TabSize)
    (consume : Bool) :
    let c : Cursor := ⟨line,pos,start,tab⟩
    c.matchPattern label consume = match label.length? (line.drop pos) with
      | none => (none,c)
      | some k => (some ⟨(line.drop pos).take k,pos,pos + k⟩,if consume then {c with pos := (pos + k : Nat)} else c) := by
  intro c
  have base : c.base = pos := Nat.min_eq_left bound
  rw [Cursor.matchPattern, base]
  rfl

theorem labelExtent {label : Pattern} {words : List Text} (before : label.Before words) (line : Text) {pos : Nat}
    (bound : pos ≤ line.length) (start : Int) (tab : TabSize) (consume : Bool) :
    let c : Cursor := ⟨line,pos,start,tab⟩
    let rest := line.drop pos
    let run := Text.span Text.isWord rest
    let result := c.matchPattern label consume
    let taken (k : Nat) : Option Cursor.Found × Cursor :=
      (some ⟨rest.take k,pos,pos + k⟩,if consume then {c with pos := (pos + k : Nat)} else c)
    (result.1.isSome = true ↔ ∃ k, Label words rest k) ∧
    (result = (none,c) ∨ ∃ k, IsGreatest {k | Label words rest k} k ∧ result = taken k) ∧
    (0 < run → Follows words (rest.drop run) → result = taken run) ∧
    (¬ Follows words (rest.drop run) → ∀ k, result = taken k ↔
      IsGreatest {k | 0 < k ∧ k + 3 ≤ run ∧ Heads words (rest.drop k)} k) := by
  intro c rest run result taken
  obtain ⟨p,spells,reads⟩ := before.reads
  have matched : result = _ := matchAt label line bound start tab consume
  rw [reads] at matched
  have outcome : (result = (none,c) ∧ ∀ k, ¬ Label words rest k) ∨
      ∃ n, IsGreatest {k | Label words rest k} n ∧ result = taken n := by
    cases length : labelLength? (leadsTo p) rest with
    | none => exact .inl ⟨by rw [matched, length],fun k => labelMissed spells length⟩
    | some n => exact .inr ⟨n,labelFound spells length,by rw [matched, length]⟩
  have exact (k : Nat) : result = taken k ↔ IsGreatest {k | Label words rest k} k := by
    rcases outcome with ⟨nothing,missed⟩ | ⟨n,greatest,found⟩
    · rw [nothing]
      exact ⟨nofun,fun other => absurd other.1 (missed k)⟩
    · rw [found]
      refine ⟨fun same => ?_,fun other => by rw [greatest.unique other]⟩
      have stops := congrArg (fun r => r.1.map Cursor.Found.stop) same
      rwa [← Nat.add_left_cancel (Option.some.inj stops)]
  refine ⟨?_,outcome.imp_left And.left,fun some follows => (exact run).mpr (labelWhole spells some follows),?_⟩
  · rcases outcome with ⟨nothing,missed⟩ | ⟨n,greatest,found⟩
    · rw [nothing]
      exact ⟨nofun,fun ⟨k,label⟩ => absurd label (missed k)⟩
    · rw [found]
      exact ⟨fun _ => ⟨n,greatest.1⟩,fun _ => rfl⟩
  · intro stray k
    have inside : {k | Label words rest k} = {k | 0 < k ∧ k + 3 ≤ run ∧ Heads words (rest.drop k)} :=
      Set.ext fun k => labelInside spells stray
    rw [exact, inside]

theorem labelExtentGlued :
    let line := "\txLDAdatBRA9 \tsta".toList
    let c : Cursor := ⟨line,1,0,.standard⟩
    c.matchPattern .instructionLabel true = (some ⟨"xLDAdatBRA9".toList,1,12⟩,{c with pos := 12}) ∧
      IsGreatest {k | 0 < k ∧ k + 3 ≤ 11 ∧ Heads ["DAT".toList] ("xLDAdatBRA9 \tsta".toList.drop k)} 4 := by
  intro line c
  have bound : 1 ≤ line.length := by decide
  have follows : Follows (["STA","STO","LDA","HLT","BRA","BRZ","BRP","ADD","SUB","INP","OUT","OTC"].map String.toList)
      (line.drop 12) := ⟨2,List.all_eq_true.mp rfl,"STA".toList,by decide,by decide⟩
  have stray : ¬ Follows ["DAT".toList] (line.drop 12) :=
    (followsExact (spellsFiltered rfl)).not.mpr (by decide : ¬ leadsTo (· == .data) (line.drop 12) = true)
  exact ⟨(labelExtent .instruction line bound 0 .standard true).2.2.1 (by decide) follows,
    ((labelExtent .data line bound 0 .standard true).2.2.2 stray 4).mp rfl⟩

end LittleMan.Pattern
