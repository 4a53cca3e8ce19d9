import LittleMan.Proofs.ReadBack

/-! Markup as a reader of documents takes it: tags, and between them characters, some of them written as entities.
No character of a program or of the name of a language is taken for a tag or ends one, whatever they hold, so the
tags are those that the renderer writes, each closed in its turn. -/
namespace LittleMan.Markup

def special : List Char := ['<','>','&','"','\'']

def plain (t : Text) : Bool := t.all fun c => !special.contains c

inductive Item where
  | char (c : Char)
  | tag (text : Text)
  deriving DecidableEq, Repr

/- Where a reader is: between the tags, or in a tag or an entity of which it has seen so much. -/
inductive Place where
  | text
  | tag (seen : Text)
  | entity (seen : Text)

def entity? (name : Text) : Option Char :=
  if name = "amp".toList then some '&'
  else if name = "lt".toList then some '<'
  else if name = "gt".toList then some '>'
  else if name = "quot".toList then some '"'
  else if name = "#x27".toList then some '\''
  else none

/- The reader is strict: between tags it takes no special character but those that begin a tag or an entity,
and it takes no other entity, no opening bracket in a tag, and nothing that is left open at the end. -/
def items : Place → Text → Option (List Item)
  | .text, [] => some []
  | _, [] => none
  | .text, c :: rest =>
    if c = '<' then items (.tag []) rest
    else if c = '&' then items (.entity []) rest
    else if c ∈ special then none
    else (items .text rest).map (.char c :: ·)
  | .tag seen, c :: rest =>
    if c = '>' then (items .text rest).map (.tag seen :: ·)
    else if c = '<' then none
    else items (.tag (seen ++ [c])) rest
  | .entity seen, c :: rest =>
    if c = ';' then (entity? seen).bind fun c => (items .text rest).map (.char c :: ·)
    else items (.entity (seen ++ [c])) rest

def tagName (tag : Text) : Text := tag.takeWhile (· != ' ')

def closing? : Text → Option Text
  | '/' :: name => some name
  | _ => none

/- Tags are closed by their names, the one that was opened last first, and all of them. -/
def nested : (opened : List Text) → List Item → Bool
  | opened, [] => opened.isEmpty
  | opened, .char _ :: more => nested opened more
  | opened, .tag t :: more =>
    match closing? t, opened with
    | none, opened => nested (tagName t :: opened) more
    | some _, [] => false
    | some name, last :: opened => last == name && nested opened more

def Item.opening? : Item → Option Text
  | .char _ => none
  | .tag t => if (closing? t).isSome then none else some t

def openings (is : List Item) : List Text := is.filterMap Item.opening?

def Quiet (t : Text) : Prop := '<' ∉ t ∧ '>' ∉ t

instance (t : Text) : Decidable (Quiet t) := inferInstanceAs (Decidable (_ ∧ _))

def Reads (markup : Text) (is : List Item) : Prop :=
  ∀ rest, items .text (markup ++ rest) = (items .text rest).map (is ++ ·)

def Balanced (is : List Item) : Prop := ∀ opened more, nested opened (is ++ more) = nested opened more

section Reads
variable {markup other t : Text} {is more : List Item}

theorem readsNothing : Reads [] [] := by
  intro rest
  simp

theorem readsAppend (first : Reads markup is) (second : Reads other more) : Reads (markup ++ other) (is ++ more) := by
  intro rest
  rw [List.append_assoc, first, second, Option.map_map]
  congr 1
  funext is
  exact (List.append_assoc _ _ _).symm

theorem readsWhole (reads : Reads markup is) : items .text markup = some is := by
  have whole := reads []
  rw [List.append_nil] at whole
  rw [whole, items, Option.map_some, List.append_nil]

theorem readsChar {c : Char} (plain : c ∉ special) : Reads [c] [.char c] := by
  intro rest
  have less : c ≠ '<' := fun same => plain (same ▸ by decide)
  have ampersand : c ≠ '&' := fun same => plain (same ▸ by decide)
  rw [List.singleton_append, items, if_neg less, if_neg ampersand, if_neg plain]
  rfl

theorem readsEscapedChar (c : Char) : Reads (escapeChar c) [.char c] := by
  unfold escapeChar
  split_ifs with ampersand less greater quote apostrophe
  · subst c
    exact fun _ => rfl
  · subst c
    exact fun _ => rfl
  · subst c
    exact fun _ => rfl
  · subst c
    exact fun _ => rfl
  · subst c
    exact fun _ => rfl
  · refine readsChar ?_
    simp [special, ampersand, less, greater, quote, apostrophe]

theorem readsEscaped (t : Text) : Reads (escape t) (t.map .char) := by
  induction t with
  | nil => exact readsNothing
  | cons c t ih => exact readsAppend (readsEscapedChar c) ih

theorem tagRead {rest : Text} (seen : Text) (quiet : Quiet t) :
    items (.tag seen) (t ++ '>' :: rest) = (items .text rest).map (.tag (seen ++ t) :: ·) := by
  induction t generalizing seen with
  | nil => rw [List.nil_append, items, if_pos rfl, List.append_nil]
  | cons c t ih =>
    rw [Quiet, List.mem_cons, List.mem_cons, not_or, not_or] at quiet
    obtain ⟨⟨less,unopened⟩,greater,unclosed⟩ := quiet
    rw [List.cons_append, items, if_neg (Ne.symm greater), if_neg (Ne.symm less),
      ih (seen ++ [c]) ⟨unopened,unclosed⟩, List.append_assoc, List.singleton_append]

theorem readsTag (quiet : Quiet t) : Reads ('<' :: t ++ ['>']) [.tag t] := by
  intro rest
  rw [List.append_assoc, List.cons_append, items, if_pos rfl]
  exact tagRead [] quiet

end Reads

section Balanced
variable {is more : List Item} {tag : Text}

theorem balancedChars (t : Text) : Balanced (t.map .char) := by
  induction t with
  | nil => exact fun _ _ => rfl
  | cons c t ih => exact fun opened more => ih opened more

theorem balancedAppend (first : Balanced is) (second : Balanced more) : Balanced (is ++ more) := by
  intro opened others
  rw [List.append_assoc, first, second]

theorem Balanced.whole (balanced : Balanced is) : nested [] is = true := by
  have closed := balanced [] []
  rw [List.append_nil] at closed
  rw [closed]
  rfl

def enclosed (tag : Text) (is : List Item) : List Item := .tag tag :: is ++ [.tag ('/' :: tagName tag)]

theorem nestedOpening (opens : closing? tag = none) (opened : List Text) (more : List Item) :
    nested opened (.tag tag :: more) = nested (tagName tag :: opened) more := by
  rw [nested]
  exact opens

theorem nestedClosing (name : Text) (opened : List Text) (more : List Item) :
    nested (name :: opened) (.tag ('/' :: name) :: more) = nested opened more := by
  have closes : closing? ('/' :: name) = some name := rfl
  simp only [nested, closes, beq_self_eq_true, Bool.true_and]

theorem balancedEnclosed (opens : closing? tag = none) (inner : Balanced is) : Balanced (enclosed tag is) := by
  intro opened more
  rw [enclosed, List.cons_append, List.cons_append, nestedOpening opens, List.append_assoc, inner,
    List.singleton_append, nestedClosing]

theorem openingsChars (t : Text) : openings (t.map .char) = [] := by
  rw [openings, List.filterMap_map]
  exact List.filterMap_eq_nil_iff.mpr fun _ _ => rfl

theorem openingsAppend (is more : List Item) : openings (is ++ more) = openings is ++ openings more :=
  List.filterMap_append

theorem openingsEnclosed (opens : closing? tag = none) (is : List Item) :
    openings (enclosed tag is) = tag :: openings is := by
  have first : openings [.tag tag] = [tag] := by
    have opening : (Item.tag tag).opening? = some tag := by
      rw [Item.opening?, opens]
      rfl
    rw [openings, List.filterMap_cons_some opening, List.filterMap_nil]
  have last : openings [.tag ('/' :: tagName tag)] = [] := rfl
  rw [enclosed, ← List.singleton_append, openingsAppend, openingsAppend, first, last, List.append_nil]
  rfl

end Balanced

def element (tag body : Text) : Text := '<' :: tag ++ ['>'] ++ body ++ ('<' :: '/' :: tagName tag ++ ['>'])

def classTag (name cls : Text) : Text := name ++ " class=\"".toList ++ cls ++ ['"']

def Marks (markup : Text) (tags : List Text) : Prop := ∃ is, Reads markup is ∧ Balanced is ∧ openings is = tags

section Marks
variable {markup other body tag cls : Text} {tags more : List Text} {is : List Item}

theorem readsElement (quiet : Quiet tag) (inner : Reads body is) : Reads (element tag body) (enclosed tag is) := by
  have part : tagName tag ⊆ tag := (List.takeWhile_prefix _).subset
  have closing : Quiet ('/' :: tagName tag) := by
    rw [Quiet, List.mem_cons, List.mem_cons, not_or, not_or]
    exact ⟨⟨by decide,fun opens => quiet.1 (part opens)⟩,by decide,fun closes => quiet.2 (part closes)⟩
  exact readsAppend (readsAppend (readsTag quiet) inner) (readsTag closing)

theorem marksAppend (first : Marks markup tags) (second : Marks other more) :
    Marks (markup ++ other) (tags ++ more) := by
  obtain ⟨is,reads,balanced,rfl⟩ := first
  obtain ⟨others,readsMore,balancedMore,rfl⟩ := second
  exact ⟨_,readsAppend reads readsMore,balancedAppend balanced balancedMore,openingsAppend is others⟩

theorem marksEscaped (t : Text) : Marks (escape t) [] :=
  ⟨_,readsEscaped t,balancedChars t,openingsChars t⟩

theorem marksElement (quiet : Quiet tag) (opens : closing? tag = none) (inner : Marks body tags) :
    Marks (element tag body) (tag :: tags) := by
  obtain ⟨is,reads,balanced,rfl⟩ := inner
  exact ⟨_,readsElement quiet reads,balancedEnclosed opens balanced,openingsEnclosed opens is⟩

theorem quietAppend {t u : Text} (first : Quiet t) (second : Quiet u) : Quiet (t ++ u) := by
  rw [Quiet, List.mem_append, List.mem_append, not_or, not_or]
  exact ⟨⟨first.1,second.1⟩,first.2,second.2⟩

theorem quietClass {name : Text} (named : Quiet name) (quiet : Quiet cls) : Quiet (classTag name cls) :=
  quietAppend (quietAppend (quietAppend named (by decide)) quiet) (by decide)

theorem plainQuiet {t : Text} (all : plain t = true) : Quiet t := by
  have ordinary := List.all_eq_true.mp all
  refine ⟨fun opens => ?_,fun closes => ?_⟩
  · exact absurd (ordinary '<' opens) (by decide)
  · exact absurd (ordinary '>' closes) (by decide)

theorem classTagName {name : Text} (unspaced : ' ' ∉ name) (cls : Text) : tagName (classTag name cls) = name := by
  have inside : ∀ c ∈ name, (c != ' ') = true := fun c named => bne_iff_ne.mpr fun same => unspaced (same ▸ named)
  have space : " class=\"".toList = ' ' :: "class=\"".toList := by decide
  rw [tagName, classTag, List.append_assoc, List.append_assoc, List.takeWhile_append_of_pos inside, space,
    List.cons_append, List.takeWhile_cons_of_neg (by decide), List.append_nil]

theorem classElement (name : Text) {opening closing quote : Text} (unspaced : ' ' ∉ name)
    (opens : opening = '<' :: (name ++ " class=\"".toList)) (quotes : quote = ['"','>'])
    (closes : closing = '<' :: '/' :: (name ++ ['>'])) (cls body : Text) :
    opening ++ cls ++ quote ++ body ++ closing = element (classTag name cls) body := by
  rw [element, classTagName unspaced, classTag, opens, quotes, closes]
  simp only [List.cons_append, List.append_assoc, List.nil_append]

theorem spanElement (cls body : Text) : span cls body = element (classTag "span".toList cls) body :=
  classElement "span".toList (by decide) (by decide) (by decide) (by decide) cls body

theorem codeElement {attributes : Text} (named : tagName ("code".toList ++ attributes) = "code".toList) (body : Text) :
    "<code".toList ++ attributes ++ ">".toList ++ body ++ "</code>".toList =
      element ("code".toList ++ attributes) body := by
  have opening : "<code".toList = '<' :: "code".toList := by decide
  have closing : "</code>".toList = '<' :: '/' :: "code".toList ++ ['>'] := by decide
  rw [element, named]
  exact congrArg₂ (· ++ attributes ++ ['>'] ++ body ++ ·) opening closing

theorem wrapElement (settings : Settings) (body : Text) :
    wrap settings body = element (classTag "pre".toList settings.wrapClass.plain) (element "code".toList body) := by
  have opening : "\"><code>".toList = "\">".toList ++ ("<code".toList ++ [] ++ ">".toList) := by decide
  have closing : "</code></pre>".toList = "</code>".toList ++ "</pre>".toList := by decide
  have inner : _ = element "code".toList body := @codeElement [] (by decide) body
  have outer := @classElement "pre".toList "<pre class=\"".toList "</pre>".toList "\">".toList
    (by decide) (by decide) (by decide) (by decide) settings.wrapClass.plain
  rw [← inner, ← outer]
  refine (congrArg₂ (fun a b => "<pre class=\"".toList ++ settings.wrapClass.plain ++ a ++ body ++ b)
    opening closing).trans ?_
  simp only [List.append_assoc]

theorem blockElement {attributes : Text} (named : tagName ("code".toList ++ attributes) = "code".toList) (body : Text) :
    "<pre><code".toList ++ attributes ++ ">".toList ++ body ++ "</code></pre>".toList =
      element "pre".toList (element ("code".toList ++ attributes) body) := by
  have opening : "<pre><code".toList = ('<' :: "pre".toList ++ ['>']) ++ "<code".toList := by decide
  have closing : "</code></pre>".toList =
      "</code>".toList ++ ('<' :: '/' :: tagName "pre".toList ++ ['>']) := by decide
  rw [element, ← codeElement named]
  refine (congrArg₂ (· ++ attributes ++ ">".toList ++ body ++ ·) opening closing).trans ?_
  simp only [List.append_assoc]

theorem marksSpan (quiet : Quiet cls) (inner : Marks body tags) :
    Marks (span cls body) (classTag "span".toList cls :: tags) := by
  rw [spanElement]
  exact marksElement (quietClass (by decide) quiet) rfl inner

def decorations (options : Options) (number : Nat) : List Text :=
  (if options.emphasised.any (Value.same (.int number)) then ["hll".toList] else []) ++
    if options.numbered then ["lineno".toList] else []

def lineClasses (options : Options) (classPrefix : Text) (number : Nat) (tags : List Tag) : List Text :=
  decorations options number ++ tags.map fun tag => classPrefix ++ tag.style

theorem marksLine {classPrefix line : Text} {number : Int} {ts : List Token} (quiet : Quiet classPrefix)
    (laid : Laid number 0 line ts) : Marks (markLine classPrefix line ts)
      (ts.map fun t => classTag "span".toList (classPrefix ++ t.tag.style)) := by
  refine markFromLaid
    (P := fun _ ts marked => Marks marked (ts.map fun t => classTag "span".toList (classPrefix ++ t.tag.style)))
    marksEscaped (fun gap t text more marked later => ?_) [] laid rfl rfl
  have cls : Quiet (classPrefix ++ t.tag.style) := quietAppend quiet (styleBrackets t.tag)
  exact marksAppend (marksAppend (marksEscaped gap) (marksSpan cls (marksEscaped t.value))) later

theorem marksDecorated {options : Options} {number : Nat} (inner : Marks body tags) :
    Marks (decorate options number body)
      ((decorations options number).map (classTag "span".toList) ++ tags) := by
  have digits : Marks (Decimal.natural number) [] := by
    have escaped := marksEscaped (Nat.toDigits 10 number)
    rw [escapeDigits] at escaped
    exact escaped
  have numbered : Marks
      (if options.numbered then span "lineno".toList (Decimal.natural number) ++ body else body)
      ((if options.numbered then ["lineno".toList] else []).map (classTag "span".toList) ++ tags) := by
    split
    · exact marksAppend (marksSpan (by decide) digits) inner
    · exact inner
  rw [decorations, List.map_append, List.append_assoc]
  dsimp only [decorate]
  split
  · exact marksSpan (by decide) numbered
  · exact numbered

theorem marksJoined {α : Type} {f : α → Text} {g : α → List Text} {xs : List α} (each : ∀ x ∈ xs, Marks (f x) (g x)) :
    Marks (Text.joinWith ['\n'] (xs.map f)) (xs.flatMap g) := by
  induction xs with
  | nil => exact marksEscaped []
  | cons x xs ih =>
    have first := each x List.mem_cons_self
    have others := ih fun y member => each y (List.mem_cons_of_mem x member)
    cases xs with
    | nil =>
      rw [List.flatMap_cons, List.flatMap_nil, List.append_nil]
      exact first
    | cons y xs =>
      have feed : Marks ['\n'] [] := marksEscaped ['\n']
      have joined := marksAppend (marksAppend first feed) others
      rw [List.append_nil] at joined
      exact joined

theorem marksPiece {settings : Settings} {options : Options} {p : Piece} (quiet : Quiet settings.classPrefix.plain)
    (laid : Laid (p.number : Nat) 0 p.line p.tokens) : Marks (renderPiece settings options p)
      ((lineClasses options settings.classPrefix.plain p.number (p.tokens.map (·.tag))).map
        (classTag "span".toList)) := by
  rw [lineClasses, List.map_append, List.map_map, List.map_map]
  exact marksDecorated (marksLine quiet laid)

theorem marksProgram (settings : Settings) (options : Options) (code : Text)
    (prefixQuiet : Quiet settings.classPrefix.plain) (wrapQuiet : Quiet settings.wrapClass.plain) :
    Marks (wrap settings (Text.joinWith ['\n']
        ((lexedPieces 1 (Text.lines code) .clear).map (renderPiece settings options))))
      (classTag "pre".toList settings.wrapClass.plain :: "code".toList ::
        ((lexedPieces 1 (Text.lines code) .clear).flatMap fun p =>
          lineClasses options settings.classPrefix.plain p.number (p.tokens.map (·.tag))).map
            (classTag "span".toList)) := by
  rw [wrapElement, List.map_flatMap]
  refine marksElement (quietClass (by decide) wrapQuiet) rfl (marksElement (by decide) rfl ?_)
  exact marksJoined fun p member => marksPiece prefixQuiet (lexedPiecesLaid member)

theorem readsBlock {attributes : Text} (quiet : Quiet attributes)
    (named : tagName ("code".toList ++ attributes) = "code".toList) (code : Text) :
    Reads ("<pre><code".toList ++ attributes ++ ">".toList ++ escape code ++ "</code></pre>".toList)
      (enclosed "pre".toList (enclosed ("code".toList ++ attributes) (code.map .char))) := by
  rw [blockElement named]
  exact readsElement (by decide) (readsElement (quietAppend (by decide) quiet) (readsEscaped code))

theorem balancedBlock {attributes : Text} (code : Text) :
    Balanced (enclosed "pre".toList (enclosed ("code".toList ++ attributes) (code.map .char))) :=
  balancedEnclosed rfl (balancedEnclosed rfl (balancedChars code))

end Marks

def languageAttribute (language : Text) : Text :=
  " class=\"language-".toList ++ escape language ++ "\"".toList

theorem languageTag (language : Text) : "code".toList ++ languageAttribute language =
    classTag "code".toList ("language-".toList ++ escape language) := by
  have split : " class=\"language-".toList = " class=\"".toList ++ "language-".toList := by decide
  refine (congrArg (fun head => "code".toList ++ (head ++ escape language ++ ['"'])) split).trans ?_
  simp only [classTag, List.append_assoc]

theorem languageQuiet (language : Text) : Quiet (languageAttribute language) :=
  quietAppend (quietAppend (by decide) (escapeBrackets language)) (by decide)

theorem readsLanguage (language : Text) :
    items .text ("language-".toList ++ escape language) = some (("language-".toList ++ language).map .char) := by
  have plain : escape "language-".toList = "language-".toList := by decide
  have before := readsEscaped "language-".toList
  rw [plain] at before
  rw [List.map_append]
  exact readsWhole (readsAppend before (readsEscaped language))

theorem highlightProgram {settings : Settings} {options : Options} {language : Text} (code : Text)
    (keys : ∀ v ∈ options.emphasised, v.isKey = true) (known : language ∈ Language.names) :
    highlight settings options (.text language) code = .ok (wrap settings (Text.joinWith ['\n']
      ((lexedPieces 1 (Text.lines code) .clear).map (renderPiece settings options)))) := by
  have supported : Language.isSupported (.text language) = .ok true :=
    congrArg Except.ok (List.contains_iff_mem.mpr known)
  rw [highlight, supported]
  show renderProgram settings options code = _
  rw [renderProgram, requireKeysMet keys, programLexed]
  rfl

theorem highlightForeign (settings : Settings) (options : Options) {language : Text} (code : Text)
    (unknown : language ∉ Language.names) :
    highlight settings options (.text language) code = foreignBlock (.text language) code := by
  have unsupported : Language.isSupported (.text language) = .ok false :=
    congrArg Except.ok (Bool.eq_false_iff.mpr fun known => unknown (List.contains_iff_mem.mp known))
  rw [highlight, unsupported]
  rfl

theorem markupSafe (settings : Settings) (options : Options) (language code : Text)
    (keys : ∀ v ∈ options.emphasised, v.isKey = true) (plainPrefix : plain settings.classPrefix.plain = true)
    (plainWrap : plain settings.wrapClass.plain = true) :
    ∃ html is, highlight settings options (.text language) code = .ok html ∧ items .text html = some is ∧
      nested [] is = true ∧
      (language ∈ Language.names → ∃ drawn, pieces settings.tab 1 (Text.lines code) .clear = .ok drawn ∧
        openings is = classTag "pre".toList settings.wrapClass.plain :: "code".toList ::
          (drawn.flatMap fun p => lineClasses options settings.classPrefix.plain p.number
            (p.tokens.map (·.tag))).map (classTag "span".toList)) ∧
      (language ∉ Language.names → language ≠ [] →
        ∃ cls, items .text cls = some (("language-".toList ++ language).map .char) ∧
          is = enclosed "pre".toList (enclosed (classTag "code".toList cls) (code.map .char))) ∧
      (language = [] → is = enclosed "pre".toList (enclosed "code".toList (code.map .char))) := by
  by_cases known : language ∈ Language.names
  · obtain ⟨is,reads,balanced,tags⟩ :=
      marksProgram settings options code (plainQuiet plainPrefix) (plainQuiet plainWrap)
    have named : language ≠ [] := by
      rintro rfl
      exact absurd known (by decide)
    exact ⟨_,is,highlightProgram code keys known,readsWhole reads,balanced.whole,
      fun _ => ⟨_,piecesLexed settings.tab 1 (Text.lines code) .clear,tags⟩,
      fun unknown => absurd known unknown,fun nothing => absurd nothing named⟩
  · cases language with
    | nil =>
      have reads := @readsBlock [] (by decide) (by decide) code
      exact ⟨_,_,highlightForeign settings options code known,readsWhole reads,(balancedBlock code).whole,
        fun member => absurd member known,fun _ some => absurd rfl some,fun _ => rfl⟩
    | cons c rest =>
      have tag := languageTag (c :: rest)
      have reads := readsBlock (languageQuiet (c :: rest))
        (by rw [tag]; exact classTagName (by decide) _) code
      have balanced := @balancedBlock (languageAttribute (c :: rest)) code
      rw [tag] at reads balanced
      exact ⟨_,_,highlightForeign settings options code known,readsWhole reads,balanced.whole,
        fun member => absurd member known,fun _ _ => ⟨_,readsLanguage (c :: rest),rfl⟩,nofun⟩

theorem markupSafeImitating :
    let settings : Settings := ⟨.standard,.text "cm-".toList,.text "w".toList⟩
    let options : Options := ⟨[.int 1],true⟩
    let code := "LDA lt;\n\"<b>&lt;".toList
    ∃ html is, highlight settings options (.text "lmc".toList) code = .ok html ∧ items .text html = some is ∧
      nested [] is = true ∧
      openings is = ["pre class=\"w\"".toList,"code".toList,"span class=\"hll\"".toList,
        "span class=\"lineno\"".toList,"span class=\"cm-keyword\"".toList,"span class=\"cm-variable\"".toList,
        "span class=\"cm-comment\"".toList,"span class=\"lineno\"".toList,"span class=\"cm-comment\"".toList] := by
  intro settings options code
  obtain ⟨html,is,done,read,closed,program,_⟩ :=
    markupSafe settings options "lmc".toList code (by decide) (by decide) (by decide)
  obtain ⟨drawn,given,opened⟩ := program (by decide)
  have tags : (pieces settings.tab 1 (Text.lines code) .clear).toOption.map
      (·.map fun p => (p.number,p.tokens.map (·.tag))) =
        some [(1,[.keyword,.var,.comment]),(2,[.comment])] := by decide +kernel
  rw [given] at tags
  have lines : drawn.map (fun p => (p.number,p.tokens.map (·.tag))) =
      [(1,[.keyword,.var,.comment]),(2,[.comment])] := Option.some.inj tags
  have classes : (drawn.flatMap fun p => lineClasses options settings.classPrefix.plain p.number
      (p.tokens.map (·.tag))) = [(1,[.keyword,.var,.comment]),(2,[.comment])].flatMap fun l =>
        lineClasses options settings.classPrefix.plain l.1 l.2 := by
    rw [← lines, List.flatMap_map]
  rw [classes] at opened
  exact ⟨html,is,done,read,closed,opened.trans (by decide)⟩

end LittleMan.Markup
