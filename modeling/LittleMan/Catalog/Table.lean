import LittleMan.Text

/-! Tables of owned entries under names. A table answers for a name with the first entry that has
it, and every operation leaves at most one. -/
namespace LittleMan

inductive Owner where
  | host
  | extension (id : Text)
  | guest (label : Text)
  deriving DecidableEq, Repr

structure Entry (α : Type) where
  name : Text
  item : α
  owner : Owner
  deriving DecidableEq, Repr

abbrev Table (α : Type) := List (Entry α)

namespace Table

variable {α : Type}

def get? (table : Table α) (name : Text) : Option (Entry α) := table.find? (·.name == name)

def put (entry : Entry α) : Table α → Table α
  | [] => [entry]
  | e :: more => if e.name == entry.name then entry :: more else e :: put entry more

def remove (table : Table α) (name : Text) : Table α := table.filter (·.name != name)

def sorted (table : Table α) : List (Entry α) := table.mergeSort fun a b => Text.le a.name b.name

theorem getPut (table : Table α) (entry : Entry α) (name : Text) :
    (put entry table).get? name = if entry.name = name then some entry else table.get? name := by
  induction table with
  | nil => by_cases h : entry.name = name <;> simp [put,get?,h]
  | cons e more ih =>
    by_cases here : e.name = entry.name
    · by_cases h : entry.name = name <;> simp [put,get?,here,h]
    · by_cases h : e.name = name
      · subst h
        have other : entry.name ≠ e.name := Ne.symm here
        simp [put,get?,here,other]
      · simp only [get?] at ih
        simp [put,get?,here,h,ih]

theorem getRemove (table : Table α) (gone name : Text) :
    (table.remove gone).get? name = if gone = name then none else table.get? name := by
  induction table with
  | nil => simp [remove,get?]
  | cons e more ih =>
    simp only [remove,get?] at ih
    by_cases h : gone = name
    · subst h
      by_cases here : e.name = gone <;> simp_all [remove,get?]
    · by_cases here : e.name = gone
      · subst here
        simp_all [remove,get?]
      · by_cases found : e.name = name <;> simp_all [remove,get?]

theorem getNamed {table : Table α} {name : Text} {e : Entry α} (h : table.get? name = some e) :
    e.name = name := by
  unfold get? at h
  have := List.find?_some h
  simpa using this

end Table
end LittleMan
