/-! Texts as lists of code points. Word characters and digits are ASCII only, blanks are not, and letters are
compared after `foldCase`, which changes ASCII letters alone. An offset below zero counts from the end, and cuts
are clamped to the text. A line feed, a carriage return, or the pair of them ends a line; what follows the last
line break is a line only if it is not empty. A tab goes on to the next multiple of the tab width, whose sign
the remainder takes, and every other character takes one column. -/
namespace LittleMan

abbrev Text := List Char

namespace Text

def isBlank (c : Char) : Bool :=
  let n := c.toNat
  (0x09 ≤ n && n ≤ 0x0d) || (0x1c ≤ n && n ≤ 0x20) || n == 0x85 || n == 0xa0 || n == 0x1680 ||
    (0x2000 ≤ n && n ≤ 0x200a) || n == 0x2028 || n == 0x2029 || n == 0x202f || n == 0x205f ||
    n == 0x3000

/-- The blanks that may stand between a label and its keyword for the label to be seen. -/
def isAsciiBlank (c : Char) : Bool :=
  let n := c.toNat
  (0x09 ≤ n && n ≤ 0x0d) || n == 0x20

def isDigit (c : Char) : Bool := '0' ≤ c && c ≤ '9'

def isWord (c : Char) : Bool :=
  ('a' ≤ c && c ≤ 'z') || ('A' ≤ c && c ≤ 'Z') || isDigit c || c == '_'

def foldCase (c : Char) : Char :=
  if 'a' ≤ c && c ≤ 'z' then Char.ofNat (c.toNat - 32) else c

def span (p : Char → Bool) (t : Text) : Nat := (t.takeWhile p).length

def trimEnd (t : Text) : Text := (t.reverse.dropWhile isBlank).reverse

/-- `t` starts with `word`, read without regard to ASCII case; `word` is given in capitals. -/
def startsFolded : (word t : Text) → Bool
  | [], _ => true
  | _ :: _, [] => false
  | w :: word, c :: t => foldCase c == w && startsFolded word t

theorem asciiIsBlank {c : Char} (h : isAsciiBlank c = true) : isBlank c = true := by
  simp only [isAsciiBlank, isBlank, Bool.or_eq_true, Bool.and_eq_true, decide_eq_true_eq,
    beq_iff_eq] at h ⊢
  omega

theorem spanAppend (p : Char → Bool) (t : Text) :
    t.takeWhile p ++ t.drop (span p t) = t := by
  induction t with
  | nil => rfl
  | cons c t ih => by_cases h : p c <;> simp_all [span]

theorem spanLe (p : Char → Bool) (t : Text) : span p t ≤ t.length := by
  induction t with
  | nil => simp [span]
  | cons c t ih => by_cases h : p c <;> simp_all [span]

def le : Text → Text → Bool
  | [], _ => true
  | _ :: _, [] => false
  | c :: s, d :: t => c.toNat < d.toNat || (c == d && le s t)

abbrev Ranges := List (Nat × Nat)

def Ranges.has (ranges : Ranges) (c : Char) : Bool :=
  ranges.any fun (first,last) => first ≤ c.toNat && c.toNat ≤ last

def cutPoint (length : Nat) (offset : Int) : Nat :=
  if offset < 0 then (offset + length).toNat else min offset.toNat length

def before (t : Text) (stop : Int) : Text := t.take (cutPoint t.length stop)

def between (t : Text) (start stop : Int) : Text := (before t stop).drop (cutPoint t.length start)

theorem cutPointNat {length n : Nat} (h : n ≤ length) : cutPoint length n = n := by
  unfold cutPoint
  split <;> omega

theorem betweenNat {t : Text} {a b : Nat} (ha : a ≤ t.length) (hb : b ≤ t.length) :
    between t a b = (t.take b).drop a := by
  simp [between, before, cutPointNat ha, cutPointNat hb]

theorem betweenAdd {t : Text} {a n : Nat} (fits : a + n ≤ t.length) :
    between t a (a + n : Nat) = (t.drop a).take n := by
  rw [betweenNat (by omega) fits, List.drop_take, Nat.add_sub_cancel_left]

def lines : Text → List Text
  | [] => []
  | '\r' :: '\n' :: rest => [] :: lines rest
  | '\r' :: rest => [] :: lines rest
  | '\n' :: rest => [] :: lines rest
  | c :: rest =>
    match lines rest with
    | [] => [[c]]
    | line :: more => (c :: line) :: more

def joinWith (sep : Text) : List Text → Text
  | [] => []
  | [t] => t
  | t :: more => t ++ sep ++ joinWith sep more

theorem linesEmpty {t : Text} (h : lines t = []) : t = [] := by
  unfold lines at h
  split at h <;> try contradiction
  · rfl
  · split at h <;> contradiction

def advance (width column : Int) (c : Char) : Int :=
  if c = '\t' then column + (width - Int.fmod column width) else column + 1

def columns (width : Int) (t : Text) : Int := t.foldl (advance width) 0

/-- The column after `t`, or nothing where a tab has no width. -/
def columns? (width : Int) (t : Text) : Option Int :=
  if width = 0 && t.contains '\t' then none else some (columns width t)

def indent (t : Text) : Nat := span isBlank t

theorem columnsAppend (width : Int) (t u : Text) :
    columns width (t ++ u) = u.foldl (advance width) (columns width t) := by
  simp [columns]

theorem advanceGrows {width : Int} (positive : 0 < width) (column : Int) (c : Char) :
    column < advance width column c := by
  unfold advance
  split
  · have := Int.fmod_lt_of_pos column positive
    omega
  · omega

end Text
end LittleMan
