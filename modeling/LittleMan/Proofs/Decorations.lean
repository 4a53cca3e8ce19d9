import LittleMan.Proofs.ReadBack
import LittleMan.Proofs.WrittenLines

/-! Line numbers and emphasis. Each line of a program is marked up without a line feed, so the feeds of the whole
are those between the lines, and it comes apart into the lines again. A number goes before a line and emphasis
around it; neither changes what else stands there, in that line or any other. -/
namespace LittleMan

theorem Text.joinIntercalates (sep : Text) (ts : List Text) : joinWith sep ts = sep.intercalate ts := by
  induction ts with
  | nil => rfl
  | cons t more ih =>
    cases more with
    | nil => rw [joinWith, List.intercalate_singleton]
    | cons second more => rw [joinStep, ih, List.intercalate_cons_cons, List.append_assoc]

theorem Text.joinedSplit {ts : List Text} {c : Char} (filled : ts ≠ []) (free : ∀ t ∈ ts, c ∉ t) :
    (joinWith [c] ts).splitOn c = ts := by
  rw [joinIntercalates]
  exact List.splitOn_intercalate c free filled

namespace Markup
variable {body cls : Text}

theorem escapeUnfed {t : Text} (unfed : '\n' ∉ t) : '\n' ∉ escape t := by
  intro fed
  obtain ⟨c,inside,written⟩ := List.mem_flatMap.mp fed
  unfold escapeChar at written
  split_ifs at written
  · exact absurd written (by decide)
  · exact absurd written (by decide)
  · exact absurd written (by decide)
  · exact absurd written (by decide)
  · exact absurd written (by decide)
  · exact unfed (List.mem_singleton.mp written ▸ inside)

theorem unfedAppend {t u : Text} (left : '\n' ∉ t) (right : '\n' ∉ u) : '\n' ∉ t ++ u := by
  rw [List.mem_append, not_or]
  exact ⟨left,right⟩

theorem spanUnfed (named : '\n' ∉ cls) (inner : '\n' ∉ body) : '\n' ∉ span cls body :=
  unfedAppend (unfedAppend (unfedAppend (unfedAppend (by decide) named) (by decide)) inner) (by decide)

theorem styleUnfed (tag : Tag) : '\n' ∉ tag.style := by cases tag <;> decide

theorem markLineUnfed {classPrefix line : Text} {number : Int} {ts : List Token} (quiet : '\n' ∉ classPrefix)
    (laid : Laid number 0 line ts) (unfed : '\n' ∉ line) : '\n' ∉ markLine classPrefix line ts := by
  refine markFromLaid (P := fun text _ marked => '\n' ∉ text → '\n' ∉ marked) (fun _ => escapeUnfed)
    (fun gap t text more marked later unfed => ?_) [] laid rfl rfl unfed
  rw [List.mem_append, List.mem_append, not_or, not_or] at unfed
  obtain ⟨⟨before,value⟩,after⟩ := unfed
  have marks := spanUnfed (unfedAppend quiet (styleUnfed t.tag)) (escapeUnfed value)
  exact unfedAppend (unfedAppend (escapeUnfed before) marks) (later after)

theorem decorateUnfed (options : Options) (number : Nat) (inner : '\n' ∉ body) :
    '\n' ∉ decorate options number body := by
  have digits : '\n' ∉ Decimal.natural number := fun fed =>
    absurd (Nat.isDigit_of_mem_toDigits (by decide) (by decide) fed) (by decide)
  have numbered : '\n' ∉
      if options.numbered then span "lineno".toList (Decimal.natural number) ++ body else body := by
    split
    · exact unfedAppend (spanUnfed (by decide) digits) inner
    · exact inner
  dsimp only [decorate]
  split
  · exact spanUnfed (by decide) numbered
  · exact numbered

theorem lexedPiecesInside {number : Nat} {lines : List Text} {before : Flags} {p : Piece}
    (member : p ∈ lexedPieces number lines before) : p.line ∈ lines := by
  induction lines generalizing number before with
  | nil => contradiction
  | cons line more ih =>
    rcases List.mem_cons.mp member with rfl | later
    · exact List.mem_cons_self
    · exact List.mem_cons_of_mem _ (ih later)

theorem lexedPiecesPlaced {α β : Type} (f : Nat → α → β) (g : Piece → α) (number : Nat) (lines : List Text)
    (before : Flags) : (lexedPieces number lines before).map (fun p => f p.number (g p)) =
      ((lexedPieces number lines before).map g).mapIdx fun index a => f (number + index) a := by
  induction lines generalizing number before with
  | nil => rfl
  | cons line more ih =>
    rw [lexedPieces, List.map_cons, List.map_cons, List.mapIdx_cons, ih]
    simp only [Nat.add_zero, Nat.add_assoc, Nat.add_comm 1]

theorem lexedPiecesLength (number : Nat) (lines : List Text) (before : Flags) :
    (lexedPieces number lines before).length = lines.length := by
  induction lines generalizing number before with
  | nil => rfl
  | cons line more ih => rw [lexedPieces, List.length_cons, ih, List.length_cons]

theorem renderPieceUnfed {settings : Settings} {code : Text} {p : Piece} (options : Options)
    (quiet : '\n' ∉ settings.classPrefix.plain) (member : p ∈ lexedPieces 1 (Text.lines code) .clear) :
    '\n' ∉ renderPiece settings options p := by
  have unfed : '\n' ∉ p.line := fun fed =>
    (Text.linesUnbroken code p.line (lexedPiecesInside member) '\n' fed).2 rfl
  exact decorateUnfed options p.number (markLineUnfed quiet (lexedPiecesLaid member) unfed)

theorem decorated (emphasised : List Int) (numbered : Bool) (number : Nat) (body : Text) :
    decorate ⟨emphasised.map .int,numbered⟩ number body =
      let shown := if numbered then
        "<span class=\"lineno\">".toList ++ Nat.toDigits 10 number ++ "</span>".toList ++ body else body
      if (number : Int) ∈ emphasised then "<span class=\"hll\">".toList ++ shown ++ "</span>".toList else shown := by
  have asked : (emphasised.map Value.int).any (Value.same (.int number)) = decide ((number : Int) ∈ emphasised) := by
    rw [Bool.eq_iff_iff, List.any_map, List.any_eq_true, decide_eq_true_iff]
    simp [Value.same, Value.asInt?]
  simp only [decorate, asked, decide_eq_true_iff]
  rfl

theorem decorationOnly (settings : Settings) (emphasised : List Int) (numbered : Bool) (code : Text)
    (filled : Text.lines code ≠ []) (quiet : '\n' ∉ settings.classPrefix.plain) :
    let opening := "<pre class=\"".toList ++ settings.wrapClass.plain ++ "\"><code>".toList
    ∃ bare body,
      renderProgram settings ⟨[],false⟩ code = .ok (opening ++ bare ++ "</code></pre>".toList) ∧
      renderProgram settings ⟨emphasised.map .int,numbered⟩ code =
        .ok (opening ++ body ++ "</code></pre>".toList) ∧
      (body.splitOn '\n').length = (Text.lines code).length ∧
      body.splitOn '\n' = (bare.splitOn '\n').mapIdx fun index piece =>
        let number := index + 1
        let shown := if numbered then
          "<span class=\"lineno\">".toList ++ Nat.toDigits 10 number ++ "</span>".toList ++ piece else piece
        if (number : Int) ∈ emphasised then "<span class=\"hll\">".toList ++ shown ++ "</span>".toList else shown := by
  intro opening
  let pieces := lexedPieces 1 (Text.lines code) .clear
  have rendered (options : Options) (keys : ∀ v ∈ options.emphasised, v.isKey = true) :
      renderProgram settings options code = .ok (opening ++
        Text.joinWith ['\n'] (pieces.map (renderPiece settings options)) ++ "</code></pre>".toList) := by
    rw [renderProgram, requireKeysMet keys, programLexed]
    rfl
  have split (options : Options) : (Text.joinWith ['\n'] (pieces.map (renderPiece settings options))).splitOn '\n' =
      pieces.map (renderPiece settings options) := by
    refine Text.joinedSplit (fun none => filled ?_) fun t member => ?_
    · rw [← List.length_eq_zero_iff, ← lexedPiecesLength 1 _ .clear, List.length_eq_zero_iff]
      exact List.map_eq_nil_iff.mp none
    · obtain ⟨p,inside,rfl⟩ := List.mem_map.mp member
      exact renderPieceUnfed options quiet inside
  have integers : ∀ v ∈ emphasised.map Value.int, v.isKey = true := by
    intro v member
    obtain ⟨n,_,rfl⟩ := List.mem_map.mp member
    rfl
  refine ⟨_,_,rendered ⟨[],false⟩ (List.forall_mem_nil _),rendered ⟨emphasised.map .int,numbered⟩ integers,?_,?_⟩
  · rw [split, List.length_map]
    exact lexedPiecesLength 1 _ .clear
  · rw [split, split]
    have placed := lexedPiecesPlaced (decorate ⟨emphasised.map .int,numbered⟩)
      (renderPiece settings ⟨[],false⟩) 1 (Text.lines code) .clear
    refine placed.trans (congrArg (List.mapIdx · _) (funext fun index => funext fun piece => ?_))
    rw [Nat.add_comm 1 index, decorated]

theorem decorationOnlyBreaks :
    let settings : Settings := ⟨.standard,.text "<".toList,.text "\n".toList⟩
    let code := "BRA\r\n\nTOP;\r".toList
    ∃ body, renderProgram settings ⟨[.int 3,.int (-1),.int 1,.int 4,.int 3],true⟩ code =
        .ok ("<pre class=\"".toList ++ "\n".toList ++ "\"><code>".toList ++ body ++ "</code></pre>".toList) ∧
      body.splitOn '\n' =
        ["<span class=\"hll\"><span class=\"lineno\">1</span><span class=\"<keyword\">BRA</span></span>".toList,
          "<span class=\"lineno\">2</span>".toList,
          ("<span class=\"hll\"><span class=\"lineno\">3</span><span class=\"<link\">TOP</span>".toList ++
            "<span class=\"<comment\">;</span></span>".toList)] := by
  intro settings code
  obtain ⟨bare,body,plain,rendered,_,split⟩ :=
    decorationOnly settings [3,-1,1,4,3] true code (by decide) (by decide)
  have alone : (renderProgram settings ⟨[],false⟩ code).toOption =
      some ("<pre class=\"".toList ++ settings.wrapClass.plain ++ "\"><code>".toList ++
        ("<span class=\"<keyword\">BRA</span>\n\n<span class=\"<link\">TOP</span>".toList ++
          "<span class=\"<comment\">;</span>".toList) ++ "</code></pre>".toList) := by decide +kernel
  rw [plain] at alone
  have same := List.append_cancel_left (List.append_cancel_right (Option.some.inj alone))
  rw [same] at split
  exact ⟨body,rendered,split.trans (by decide +kernel)⟩

end Markup
end LittleMan
