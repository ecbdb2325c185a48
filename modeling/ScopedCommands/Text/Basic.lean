namespace ScopedCommands.Text

def isBlank (c : Char) : Bool :=
  let n := c.toNat
  (0x9 ≤ n && n ≤ 0xD) || n == 0x20 || n == 0x85 || n == 0xA0 || n == 0x1680
    || (0x2000 ≤ n && n ≤ 0x200A) || n == 0x2028 || n == 0x2029 || n == 0x202F
    || n == 0x205F || n == 0x3000

def allBlank (s : String) : Bool := s.toList.all isBlank

def trimChars (cs : List Char) : List Char :=
  ((cs.dropWhile isBlank).reverse.dropWhile isBlank).reverse

def untilClose : List Char → Option (List Char × List Char)
  | [] => none
  | c :: rest =>
    if c = '}' then some ([], rest)
    else (untilClose rest).map fun p => (c :: p.1, p.2)

theorem eq_of_untilClose {cs name tail : List Char} (h : untilClose cs = some (name, tail)) :
    cs = name ++ '}' :: tail := by
  induction cs generalizing name with
  | nil => simp [untilClose] at h
  | cons c rest ih =>
    rw [untilClose] at h
    split at h
    · simp_all
    · obtain ⟨p, hp, eq⟩ := Option.map_eq_some_iff.1 h
      obtain ⟨rfl, rfl⟩ := Prod.mk.inj eq
      simp [ih hp]

theorem untilClose_append {cs : List Char} (rest : List Char) (inside : '}' ∉ cs) :
    untilClose (cs ++ '}' :: rest) = some (cs, rest) := by
  induction cs with
  | nil => simp [untilClose]
  | cons c cs ih =>
    rw [List.mem_cons, not_or] at inside
    rw [List.cons_append, untilClose, if_neg (Ne.symm inside.1), ih inside.2]
    rfl

theorem not_mem_of_untilClose {cs name tail : List Char}
    (h : untilClose cs = some (name, tail)) : '}' ∉ name := by
  induction cs generalizing name with
  | nil => cases h
  | cons c rest ih =>
    rw [untilClose] at h
    split at h
    · cases h
      exact List.not_mem_nil
    next other =>
      obtain ⟨p, closed, same⟩ := Option.map_eq_some_iff.1 h
      obtain ⟨rfl, rfl⟩ := Prod.mk.inj same
      rw [List.mem_cons, not_or]
      exact ⟨Ne.symm other, ih closed⟩

theorem untilClose_eq_some_iff {cs name tail : List Char} :
    untilClose cs = some (name, tail) ↔ '}' ∉ name ∧ cs = name ++ '}' :: tail := by
  constructor
  · intro h
    exact ⟨not_mem_of_untilClose h, eq_of_untilClose h⟩
  · rintro ⟨inside, rfl⟩
    exact untilClose_append tail inside

theorem untilClose_eq_none_iff {cs : List Char} : untilClose cs = none ↔ '}' ∉ cs := by
  induction cs with
  | nil => simp [untilClose]
  | cons c cs ih =>
    rw [untilClose, List.mem_cons, not_or, ← ih]
    by_cases close : c = '}'
    · simp [close]
    · simp [close, Ne.symm close]

end ScopedCommands.Text
