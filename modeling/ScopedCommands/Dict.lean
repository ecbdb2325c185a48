/-!
Finite maps with text keys, kept in strictly increasing key order. One map has one
representation, so equality of maps is equality of values.

Keys are compared by code points, which is also the order of their UTF-8 bytes.
-/
namespace ScopedCommands

structure Dict (α : Type) where
  entries : List (String × α)
  sorted : entries.Pairwise (fun a b => a.1 < b.1)

namespace Dict

variable {α β : Type}

instance [DecidableEq α] : DecidableEq (Dict α) := fun a b =>
  if h : a.entries = b.entries then
    .isTrue (by cases a; cases b; cases h; rfl)
  else
    .isFalse (fun e => h (e ▸ rfl))

@[ext] theorem ext {a b : Dict α} (h : a.entries = b.entries) : a = b := by
  cases a; cases b; cases h; rfl

def empty : Dict α := ⟨[], .nil⟩

instance : Inhabited (Dict α) := ⟨empty⟩
instance : EmptyCollection (Dict α) := ⟨empty⟩

def insertEntry (key : String) (value : α) : List (String × α) → List (String × α)
  | [] => [(key, value)]
  | (k, v) :: rest =>
    if key = k then (key, value) :: rest
    else if key < k then (key, value) :: (k, v) :: rest
    else (k, v) :: insertEntry key value rest

theorem mem_insertEntry {key : String} {value : α} {l : List (String × α)} {e : String × α}
    (h : e ∈ insertEntry key value l) : e = (key, value) ∨ e ∈ l := by
  induction l with
  | nil => simpa [insertEntry] using h
  | cons a rest ih => grind [insertEntry]

theorem lt_of_not_le {a b : String} (ne : a ≠ b) (nlt : ¬ a < b) : b < a :=
  String.not_le.1 fun h => ne (String.le_antisymm h (String.not_lt.1 nlt))

theorem sorted_insertEntry (key : String) (value : α) {l : List (String × α)}
    (h : l.Pairwise (fun a b => a.1 < b.1)) :
    (insertEntry key value l).Pairwise (fun a b => a.1 < b.1) := by
  induction l with
  | nil => simp [insertEntry]
  | cons a rest ih =>
    obtain ⟨k, v⟩ := a
    rw [List.pairwise_cons] at h
    rw [insertEntry]
    split
    next e => exact List.pairwise_cons.2 ⟨e ▸ h.1, h.2⟩
    next ne =>
      split
      next lt =>
        refine List.pairwise_cons.2 ⟨fun x hx => ?_, List.pairwise_cons.2 h⟩
        rcases List.mem_cons.1 hx with rfl | hx
        · exact lt
        · exact String.lt_trans lt (h.1 x hx)
      next nlt =>
        refine List.pairwise_cons.2 ⟨fun x hx => ?_, ih h.2⟩
        rcases mem_insertEntry hx with rfl | hx
        · exact lt_of_not_le ne nlt
        · exact h.1 x hx

def insert (d : Dict α) (key : String) (value : α) : Dict α :=
  ⟨insertEntry key value d.entries, sorted_insertEntry key value d.sorted⟩

def erase (d : Dict α) (key : String) : Dict α :=
  ⟨d.entries.filter (fun e => e.1 != key), d.sorted.filter _⟩

def get? (d : Dict α) (key : String) : Option α := d.entries.lookup key

def contains (d : Dict α) (key : String) : Bool := (d.get? key).isSome

def keys (d : Dict α) : List String := d.entries.map (·.1)

def values (d : Dict α) : List α := d.entries.map (·.2)

def size (d : Dict α) : Nat := d.entries.length

def isEmpty (d : Dict α) : Bool := d.entries.isEmpty

/-- Later pairs win. -/
def ofList (pairs : List (String × α)) : Dict α :=
  pairs.foldl (fun d p => d.insert p.1 p.2) empty

def map (f : String → α → β) (d : Dict α) : Dict β :=
  ⟨d.entries.map (fun e => (e.1, f e.1 e.2)), d.sorted.map _ fun _ _ h => h⟩

def filter (p : String → α → Bool) (d : Dict α) : Dict α :=
  ⟨d.entries.filter (fun e => p e.1 e.2), d.sorted.filter _⟩

/-- The entries of both, those of `b` winning. -/
def union (a b : Dict α) : Dict α :=
  b.entries.foldl (fun d e => d.insert e.1 e.2) a

theorem lookup_insertEntry (key other : String) (value : α) (l : List (String × α)) :
    (insertEntry key value l).lookup other =
      if other = key then some value else l.lookup other := by
  induction l with
  | nil => grind [insertEntry]
  | cons a rest ih => grind [insertEntry]

theorem get?_insert (d : Dict α) (key other : String) (value : α) :
    (d.insert key value).get? other = if other = key then some value else d.get? other :=
  lookup_insertEntry key other value d.entries

theorem mem_keys_iff (d : Dict α) (key : String) : key ∈ d.keys ↔ d.contains key = true := by
  unfold keys contains get?
  rw [List.lookup_isSome_iff, List.mem_map]
  simp only [beq_iff_eq, @eq_comm _ key]

theorem get?_empty (key : String) : (empty : Dict α).get? key = none := rfl

@[simp] theorem contains_empty (key : String) : (empty : Dict α).contains key = false := rfl

end Dict

abbrev NameSet := Dict Unit

namespace NameSet

def ofNames (names : List String) : NameSet := Dict.ofList (names.map (·, ()))

def add (s : NameSet) (name : String) : NameSet := s.insert name ()

theorem contains_add {s : NameSet} {name other : String} :
    (s.add name).contains other = true ↔ other = name ∨ s.contains other = true := by
  unfold add Dict.contains
  rw [Dict.get?_insert]
  split <;> simp [*]

theorem contains_foldl_insert (names : List String) (s : NameSet) (name : String) :
    (names.foldl (fun t n => t.insert n ()) s).contains name = true ↔
      name ∈ names ∨ s.contains name = true := by
  induction names generalizing s with
  | nil => simp
  | cons first rest ih =>
    rw [List.foldl_cons, ih]
    by_cases h : name = first <;> simp [Dict.contains, Dict.get?_insert, h]

theorem contains_ofNames (names : List String) (name : String) :
    (ofNames names).contains name = true ↔ name ∈ names := by
  have h := contains_foldl_insert names .empty name
  simpa [ofNames, Dict.ofList, List.foldl_map, Dict.contains, Dict.get?_empty] using h

end NameSet

end ScopedCommands
