import ScopedCommands.Yaml.Block

/-!
YAML texts as documents: block and flow collections, plain, quoted and literal scalars, comments
and the marks around a single document. There are no anchors, tags or directives.
-/
namespace ScopedCommands.Yaml

def isAllowed (c : Char) : Bool :=
  let n := c.toNat
  n == 0x9 || n == 0xA || n == 0xD || (0x20 ≤ n && n ≤ 0x7E) || n == 0x85
    || (0xA0 ≤ n && n ≤ 0xFFFD && n != 0xFEFF) || 0x10000 ≤ n

def dropMark : List Char → List Char
  | '\uFEFF' :: rest => rest
  | cs => cs

def unifyBreaks : List Char → List Char
  | [] => []
  | '\r' :: '\n' :: rest => '\n' :: unifyBreaks rest
  | c :: rest => (if c = '\r' ∨ c = '\u0085' then '\n' else c) :: unifyBreaks rest

def isMarker (mark : Char) (line : List Char) : Bool :=
  List.replicate 3 mark == line.take 3 && blankNext (line.drop 3)

def isIdle (line : List Char) : Bool :=
  match line.dropWhile (· = ' ') with
  | [] => true
  | c :: _ => c = '#'

def isEnded (lines : List (List Char)) : Bool := lines.all fun l => isIdle l || isMarker '.' l

/-- The lines up to the end mark. There is no second document. -/
def untilEnd : List (List Char) → Option (List (List Char))
  | [] => some []
  | line :: lines =>
    if isMarker '.' line then if isEnded lines then some [] else none
    else if isMarker '-' line then none
    else (untilEnd lines).map (line :: ·)

def documentLines : List (List Char) → Option (Bool × List (List Char))
  | [] => some (false, [])
  | line :: lines =>
    if isMarker '-' line then
      let first := List.replicate 3 ' ' ++ line.drop 3
      (untilEnd lines).map fun more => (!isIdle first, first :: more)
    else if isIdle line then (documentLines lines).map fun r => (r.1, line :: r.2)
    else if line.head? = some '%' then none
    else (untilEnd (line :: lines)).map (false, ·)

def parse (text : String) : Option Document := do
  let cs := dropMark text.toList
  guard (cs.all isAllowed)
  let (marked, lines) ← documentLines ((unifyBreaks cs).splitOn '\n')
  let body := ['\n'].intercalate lines
  let (_, first) := Cursor.gap ⟨0, body⟩
  if first.rest = [] then return plainScalar []
  let fuel := 4 * body.length + 8
  let (doc, after) ← if marked then inlineNode fuel 0 first else blockNode fuel 0 first
  guard (after.gap.2.rest = [])
  return doc

end ScopedCommands.Yaml
