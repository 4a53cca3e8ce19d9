import LittleMan.Cursor.Walk

/-! How far a cursor goes. It stays in its line and only goes forward, and a literal that it takes is the text it
passes, as long as no literal is taken that reaches past the end of the line. That happens without regard to case
only, where a capital becomes more than one small letter. -/
namespace LittleMan

namespace Text

theorem lowerFromLength (before t : Text) : (lowerFrom before t).length = t.length + t.count 'İ' := by
  induction t generalizing before with
  | nil => rfl
  | cons c t ih =>
    rw [lowerFrom, List.length_append, ih, List.length_cons, List.count_cons]
    by_cases sigma : c = 'Σ'
    · simp [sigma]
      omega
    · by_cases dotted : c = 'İ'
      · simp [dotted]
        omega
      · simp [sigma, dotted]
        omega

theorem lowerLength (t : Text) : (lower t).length = t.length + t.count 'İ' := lowerFromLength [] t

end Text

namespace Cursor
variable {c d : Cursor} {literal : Text}

structure Inside (c : Cursor) : Prop where
  begins : 0 ≤ c.start
  ordered : c.start ≤ c.pos
  ends : c.pos ≤ c.text.length

structure Onward (c d : Cursor) : Prop where
  text : d.text = c.text
  start : d.start = c.start ∨ d.start = c.pos
  forward : c.pos ≤ d.pos
  ends : d.pos ≤ c.text.length

theorem Inside.stay (inside : c.Inside) : c.Onward c := ⟨rfl,.inl rfl,Int.le_refl _,inside.ends⟩

theorem Inside.onward (inside : c.Inside) (moved : c.Onward d) : d.Inside := by
  obtain ⟨begins,ordered,ends⟩ := inside
  obtain ⟨text,start,forward,within⟩ := moved
  exact ⟨by omega,by omega,text ▸ within⟩

theorem ofLineInside (tab : TabSize) (text : Text) : (ofLine tab text).Inside :=
  ⟨Int.le_refl 0,Int.le_refl 0,Int.natCast_nonneg _⟩

theorem Inside.ahead (inside : c.Inside) : c.ahead = .ok c.rest :=
  if_pos (Int.le_trans inside.begins inside.ordered)

theorem Inside.restLength (inside : c.Inside) : (c.rest.length : Int) = c.text.length - c.pos := by
  obtain ⟨begins,ordered,ends⟩ := inside
  rw [rest, List.length_drop]
  omega

theorem Inside.going (inside : c.Inside) {n : Nat} (available : n ≤ c.rest.length) :
    c.Onward {c with pos := c.pos + n} := by
  have length := inside.restLength
  refine ⟨rfl,.inl rfl,?_,?_⟩
  · show c.pos ≤ c.pos + n
    omega
  · show c.pos + n ≤ c.text.length
    omega

theorem Inside.based (inside : c.Inside) : (c.base : Int) = c.pos := by
  obtain ⟨begins,ordered,ends⟩ := inside
  rw [base]
  omega

theorem Inside.next (inside : c.Inside) : ∃ ch d, c.next = .ok (ch,d) ∧ c.Onward d := by
  rw [Cursor.next, inside.ahead]
  cases rest : c.rest with
  | nil => exact ⟨none,c,rfl,inside.stay⟩
  | cons ch more => exact ⟨some ch,_,rfl,inside.going (n := 1) (by rw [rest]; exact Nat.succ_pos _)⟩

theorem Inside.eatBlanks (inside : c.Inside) : ∃ ate d, c.eatBlanks = .ok (ate,d) ∧ c.Onward d := by
  rw [Cursor.eatBlanks, inside.ahead]
  exact ⟨_,_,rfl,inside.going (Text.spanLe Text.isBlank c.rest)⟩

theorem Inside.toEnd (inside : c.Inside) : c.Onward c.toEnd :=
  ⟨rfl,.inl rfl,inside.ends,Int.le_refl _⟩

theorem Inside.mark (inside : c.Inside) : c.Onward c.mark := ⟨rfl,.inr rfl,Int.le_refl _,inside.ends⟩

theorem Onward.marked (moved : c.mark.Onward d) : c.Onward d :=
  ⟨moved.text,.inr (moved.start.elim id id),moved.forward,moved.ends⟩

theorem Inside.read (inside : c.Inside) (before : Flags) :
    (∃ tag, (c.read before).answer = .ok tag) ∧ c.Onward (c.read before).cursor := by
  have marked := inside.onward inside.mark
  have skipped : ∃ ch d, c.mark.next = .ok (ch,d) ∧ c.Onward d := by
    obtain ⟨ch,d,ran,moved⟩ := marked.next
    exact ⟨ch,d,ran,moved.marked⟩
  rw [Cursor.read, readWith]
  by_cases nothing : c.mark.rest = []
  · obtain ⟨ch,d,ran,moved⟩ := skipped
    rw [nothing, Verdict.judgeNil]
    simp only [ran]
    exact ⟨⟨none,rfl⟩,moved⟩
  · have available := (Verdict.widthBounds Rule.table c.mark.startsStatement before nothing).2
    generalize Verdict.judge Rule.table c.mark.startsStatement before c.mark.rest = verdict at available ⊢
    have going : c.Onward {c.mark with pos := c.mark.base + verdict.width c.mark.rest} := by
      rw [marked.based]
      exact (marked.going available).marked
    cases verdict with
    | skipped =>
      obtain ⟨ch,d,ran,moved⟩ := skipped
      simp only [ran]
      exact ⟨⟨none,rfl⟩,moved⟩
    | _ => exact ⟨⟨_,rfl⟩,going⟩

theorem Inside.matchPattern (inside : c.Inside) (p : Pattern) (consume : Bool) :
    c.Onward (c.matchPattern p consume).2 := by
  rw [Cursor.matchPattern]
  cases found : p.length? c.rest with
  | none => exact inside.stay
  | some n =>
    have going := inside.going (Pattern.lengthBounds found).2
    rw [← inside.based] at going
    cases consume with
    | false => exact inside.stay
    | true => exact going

theorem Inside.candidate (inside : c.Inside) (n : Nat) :
    Text.between c.text c.pos (c.pos + n) = c.rest.take n := by
  obtain ⟨begins,ordered,ends⟩ := inside
  have start : Text.cutPoint c.text.length c.pos = c.pos.toNat := by
    rw [Text.cutPoint, if_neg (by omega)]
    omega
  have stop : Text.cutPoint c.text.length (c.pos + n) = min (c.pos.toNat + n) c.text.length := by
    rw [Text.cutPoint, if_neg (by omega)]
    omega
  rw [Text.between, Text.before, start, stop, List.drop_take, rest, List.take_eq_take_iff, List.length_drop]
  omega

def overruns (c : Cursor) (literal : Text) (anyCase : Bool) : Bool :=
  c.sees literal anyCase && decide (c.rest.length < literal.length)

theorem Inside.exactFits (inside : c.Inside) (literal : Text) : c.overruns literal false = false := by
  rw [← Bool.not_eq_true, overruns, Bool.and_eq_true, not_and, sees, inside.candidate]
  intro same long
  have length := congrArg List.length (beq_iff_eq.mp same)
  rw [List.length_take] at length
  have := of_decide_eq_true long
  omega

theorem Inside.undottedFits (inside : c.Inside) (undotted : 'İ' ∉ c.text) (literal : Text) (anyCase : Bool) :
    c.overruns literal anyCase = false := by
  cases anyCase with
  | false => exact inside.exactFits literal
  | true =>
    rw [← Bool.not_eq_true, overruns, Bool.and_eq_true, not_and, sees, inside.candidate]
    intro same long
    have none : (c.rest.take literal.length).count 'İ' = 0 :=
      List.count_eq_zero.mpr fun dotted => undotted (List.mem_of_mem_drop (List.mem_of_mem_take dotted))
    have length := congrArg List.length (beq_iff_eq.mp same)
    rw [Text.lowerLength, Text.lowerLength, none, List.length_take] at length
    have := of_decide_eq_true long
    omega

theorem fitting {anyCase : Bool} (seen : c.sees literal anyCase = true)
    (fits : c.overruns literal anyCase = false) : literal.length ≤ c.rest.length := by
  rw [overruns, seen, Bool.true_and, decide_eq_false_iff_not] at fits
  exact Nat.le_of_not_lt fits

theorem Inside.passing {anyCase : Bool} (inside : c.Inside) (past : c.overruns literal anyCase = true) :
    c.sees literal anyCase = true ∧ (c.text.length : Int) < c.pos + literal.length := by
  obtain ⟨seen,long⟩ := Bool.and_eq_true _ _ |>.mp past
  have left := inside.restLength
  have := of_decide_eq_true long
  exact ⟨seen,by omega⟩

end Cursor

namespace Walk
variable {w : Walk} {s : Step} {steps : List Step}

/- Any step but one that sets the cursor where the host likes. -/
def Step.ordinary : Step → Bool
  | .setPos _ | .setStart _ => false
  | _ => true

def Step.consuming? : Step → Option Bool
  | .literal _ consume _ | .pattern _ consume => some consume
  | _ => none

structure Stride where
  before : Walk
  step : Step

def Stride.answer (r : Stride) : Except Failure Answer := (r.before.step r.step).1

def Stride.after (r : Stride) : Walk := (r.before.step r.step).2

def strides (w : Walk) : List Step → List Stride
  | [] => []
  | s :: more => ⟨w,s⟩ :: (w.step s).2.strides more

theorem stridesRun (w : Walk) (steps : List Step) :
    (w.strides steps).map (fun r => (r.answer,r.after)) = w.run steps := by
  induction steps generalizing w with
  | nil => rfl
  | cons s more ih =>
    rw [strides, run, List.map_cons, ih]
    rfl

namespace Stride
variable {r : Stride}

def overruns (r : Stride) : Bool :=
  match r.step with
  | .literal t true anyCase => r.before.cursor.overruns t anyCase
  | _ => false

structure Sound (r : Stride) : Prop where
  answers : ∃ a, r.answer = .ok a
  inside : r.before.cursor.Inside ∧ r.after.cursor.Inside
  text : r.after.cursor.text = r.before.cursor.text
  forward : r.before.cursor.pos ≤ r.after.cursor.pos
  unmoved : ∀ consume, r.step.consuming? = some consume →
    consume = false ∨ r.answer = .ok (.bool false) ∨ r.answer = .ok (.found none) →
    r.after.cursor.pos = r.before.cursor.pos
  passed : ∀ literal anyCase, r.step = .literal literal true anyCase → r.answer = .ok (.bool true) →
    let text := Text.between r.before.cursor.text r.before.cursor.pos r.after.cursor.pos
    r.after.cursor.pos = r.before.cursor.pos + text.length ∧
      if anyCase then Text.lower text = Text.lower literal else text = literal

theorem sound (inside : r.before.cursor.Inside) (answers : ∃ a, r.answer = .ok a)
    (onward : r.before.cursor.Onward r.after.cursor) (matching : r.step.consuming? = none) : r.Sound where
  answers := answers
  inside := ⟨inside,inside.onward onward⟩
  text := onward.text
  forward := onward.forward
  unmoved consume is _ := by cases matching.symm.trans is
  passed literal anyCase is _ := by
    rw [is] at matching
    contradiction

theorem stayed (inside : r.before.cursor.Inside) (answers : ∃ a, r.answer = .ok a)
    (stays : r.after.cursor = r.before.cursor)
    (nothing : ∀ literal anyCase, r.step = .literal literal true anyCase → r.answer ≠ .ok (.bool true)) :
    r.Sound where
  answers := answers
  inside := ⟨inside,stays ▸ inside⟩
  text := by rw [stays]
  forward := Int.le_of_eq (by rw [stays])
  unmoved _ _ _ := by rw [stays]
  passed literal anyCase is took := absurd took (nothing literal anyCase is)

theorem literalTaken {literal : Text} {anyCase : Bool} (seen : w.cursor.sees literal anyCase = true) :
    (⟨w,.literal literal true anyCase⟩ : Stride).after.cursor =
      {w.cursor with pos := w.cursor.pos + literal.length} :=
  if_pos (by rw [seen]; rfl)

theorem literalLeft {literal : Text} {consume anyCase : Bool}
    (missed : (w.cursor.sees literal anyCase && consume) = false) :
    (⟨w,.literal literal consume anyCase⟩ : Stride).after.cursor = w.cursor :=
  if_neg (by rw [missed]; exact Bool.false_ne_true)

theorem literalSound {literal : Text} {consume anyCase : Bool} (inside : w.cursor.Inside)
    (fits : (⟨w,.literal literal consume anyCase⟩ : Stride).overruns = false) :
    (⟨w,.literal literal consume anyCase⟩ : Stride).Sound := by
  have answer (consume : Bool) : (⟨w,.literal literal consume anyCase⟩ : Stride).answer =
      .ok (.bool (w.cursor.sees literal anyCase)) := rfl
  cases seen : w.cursor.sees literal anyCase with
  | false =>
    rw [seen] at answer
    refine stayed inside ⟨_,answer _⟩ (literalLeft (by rw [seen]; rfl)) fun _ _ _ took => ?_
    cases (answer _).symm.trans took
  | true =>
    rw [seen] at answer
    cases consume with
    | false =>
      refine stayed inside ⟨_,answer _⟩ (literalLeft (by rw [seen]; rfl)) fun _ _ is => ?_
      cases is
    | true =>
      have short : literal.length ≤ w.cursor.rest.length := Cursor.fitting seen fits
      have going := inside.going short
      have moved := literalTaken seen
      rw [← moved] at going
      refine ⟨⟨_,answer _⟩,⟨inside,inside.onward going⟩,going.text,going.forward,fun consume is missed => ?_,
        fun other any is _ => ?_⟩
      · cases is
        rcases missed with unlike | missed | missed
        · contradiction
        · cases (answer _).symm.trans missed
        · cases (answer _).symm.trans missed
      · cases is
        rw [moved]
        show _ = w.cursor.pos + _ ∧ _
        rw [inside.candidate, List.length_take, Nat.min_eq_left short]
        refine ⟨rfl,?_⟩
        rw [Cursor.sees, inside.candidate] at seen
        cases anyCase <;> exact beq_iff_eq.mp seen

theorem patternSound {p : Pattern} {consume : Bool} (inside : w.cursor.Inside) :
    (⟨w,.pattern p consume⟩ : Stride).Sound := by
  let r : Stride := ⟨w,.pattern p consume⟩
  have answer : r.answer = .ok (.found (w.cursor.matchPattern p consume).1) := rfl
  have moved : r.after.cursor = (w.cursor.matchPattern p consume).2 := rfl
  have going := inside.matchPattern p consume
  rw [← moved] at going
  refine ⟨⟨_,answer⟩,⟨inside,inside.onward going⟩,going.text,going.forward,fun consumes is missed => ?_,
    fun _ _ is => by cases is⟩
  cases is
  rw [moved, Cursor.matchPattern]
  rw [Cursor.matchPattern] at answer
  cases found : p.length? w.cursor.rest with
  | none => rfl
  | some n =>
    rw [found] at answer
    rcases missed with rfl | missed | missed
    · rfl
    · cases answer.symm.trans missed
    · cases answer.symm.trans missed

theorem stepSound {s : Step} (inside : w.cursor.Inside) (ordinary : s.ordinary = true)
    (fits : (⟨w,s⟩ : Stride).overruns = false) : (⟨w,s⟩ : Stride).Sound := by
  cases s with
  | literal literal consume anyCase => exact literalSound inside fits
  | pattern p consume => exact patternSound inside
  | setPos n => contradiction
  | setStart n => contradiction
  | peek =>
    have done : w.step .peek = (.ok (.char w.cursor.rest.head?),w) := by
      rw [Walk.step, Cursor.peek, inside.ahead]
      rfl
    exact sound inside ⟨_,congrArg Prod.fst done⟩ inside.stay rfl
  | next =>
    obtain ⟨ch,d,ran,moved⟩ := inside.next
    have done : w.step .next = (.ok (.char ch),{w with cursor := d}) := by rw [Walk.step, ran, Walk.moved]
    exact sound inside ⟨_,congrArg Prod.fst done⟩ (by rw [after, done]; exact moved) rfl
  | eatBlanks =>
    obtain ⟨ate,d,ran,moved⟩ := inside.eatBlanks
    have done : w.step .eatBlanks = (.ok (.bool ate),{w with cursor := d}) := by rw [Walk.step, ran, Walk.moved]
    exact sound inside ⟨_,congrArg Prod.fst done⟩ (by rw [after, done]; exact moved) rfl
  | toEnd => exact sound inside ⟨_,rfl⟩ inside.toEnd rfl
  | mark => exact sound inside ⟨_,rfl⟩ inside.mark rfl
  | read =>
    obtain ⟨⟨tag,answered⟩,moved⟩ := inside.read w.flags
    have done : (w.step .read).1 = .ok (.tag tag) := by
      rw [Walk.step, answered]
      rfl
    exact sound inside ⟨_,done⟩ moved rfl
  | restore =>
    cases w with
    | mk cursor flags saved =>
      cases saved with
      | nil => exact sound inside ⟨_,rfl⟩ inside.stay rfl
      | cons f more => exact sound inside ⟨_,rfl⟩ inside.stay rfl
  | _ => exact sound inside ⟨_,rfl⟩ inside.stay rfl

theorem Sound.fits (sound : r.Sound) : r.overruns = false := by
  rw [← Bool.not_eq_true]
  intro beyond
  obtain ⟨before,s⟩ := r
  cases s with
  | literal literal consume anyCase =>
    cases consume with
    | false => contradiction
    | true =>
      obtain ⟨seen,past⟩ := sound.inside.1.passing beyond
      have ends := sound.inside.2.ends
      rw [literalTaken seen] at ends
      exact absurd ends (Int.not_le_of_gt past)
  | _ => contradiction

end Stride

theorem stridesSound (inside : w.cursor.Inside) (ordinary : ∀ s ∈ steps, s.ordinary = true)
    (fits : ∀ r ∈ w.strides steps, r.overruns = false) : ∀ r ∈ w.strides steps, r.Sound := by
  induction steps generalizing w with
  | nil => exact List.forall_mem_nil _
  | cons s more ih =>
    obtain ⟨now,later⟩ := List.forall_mem_cons.mp fits
    obtain ⟨first,others⟩ := List.forall_mem_cons.mp ordinary
    have sound := Stride.stepSound inside first now
    exact List.forall_mem_cons.mpr ⟨sound,ih sound.inside.2 others later⟩

theorem undottedFits (inside : w.cursor.Inside) (undotted : 'İ' ∉ w.cursor.text)
    (ordinary : ∀ s ∈ steps, s.ordinary = true) : ∀ r ∈ w.strides steps, r.overruns = false := by
  induction steps generalizing w with
  | nil => exact List.forall_mem_nil _
  | cons s more ih =>
    obtain ⟨first,others⟩ := List.forall_mem_cons.mp ordinary
    have fits : (⟨w,s⟩ : Stride).overruns = false := by
      rw [Stride.overruns]
      split
      · exact inside.undottedFits undotted _ _
      · rfl
    have sound := Stride.stepSound inside first fits
    have text : (w.step s).2.cursor.text = w.cursor.text := sound.text
    exact List.forall_mem_cons.mpr ⟨fits,ih sound.inside.2 (text ▸ undotted) others⟩

theorem walksSound (tab : TabSize) (text : Text) (flags : Flags) (ordinary : ∀ s ∈ steps, s.ordinary = true) :
    let w := Walk.start (.ofLine tab text) flags
    (w.strides steps).map (fun r => (r.answer,r.after)) = w.run steps ∧
      ((∀ r ∈ w.strides steps, r.Sound) ↔ ∀ r ∈ w.strides steps, r.overruns = false) ∧
      ('İ' ∉ text → ∀ r ∈ w.strides steps, r.Sound) := by
  intro w
  have inside : w.cursor.Inside := Cursor.ofLineInside tab text
  exact ⟨stridesRun w steps,⟨fun sound r taken => (sound r taken).fits,stridesSound inside ordinary⟩,
    fun undotted => stridesSound inside ordinary (undottedFits inside undotted ordinary)⟩

theorem walksSoundReading :
    let steps : List Step := [.literal "lda".toList true true,.mark,.eatBlanks,.pattern .word false,.read]
    let w := Walk.start (.ofLine .standard "LDA x".toList) .clear
    (w.run steps).map (·.2.cursor.pos) = [3,3,4,4,5] ∧ ∀ r ∈ w.strides steps, r.Sound := by
  intro steps w
  have ordinary : ∀ s ∈ steps, s.ordinary = true := by decide
  exact ⟨by decide +kernel,(walksSound .standard "LDA x".toList .clear ordinary).2.2 (by decide)⟩

theorem dottedPassesEnd :
    let steps : List Step := [.literal ['i',Char.ofNat 0x307] true true,.toEnd]
    let w := Walk.start (.ofLine .standard ['İ']) .clear
    (w.run steps).map (·.2.cursor.pos) = [2,1] ∧ ¬ ∀ r ∈ w.strides steps, r.Sound := by
  intro steps w
  refine ⟨by decide +kernel,fun sound => ?_⟩
  have taken : (w.strides steps).any (·.overruns) = true := by decide +kernel
  obtain ⟨r,inside,beyond⟩ := List.any_eq_true.mp taken
  cases beyond.symm.trans (sound r inside).fits

end Walk
end LittleMan
