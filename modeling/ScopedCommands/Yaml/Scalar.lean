import ScopedCommands.Yaml.Cursor
import ScopedCommands.Yaml.Plain

/-!
Scalars: plain, quoted and literal. Where a plain or quoted scalar goes on over a line break, the
break becomes a space, and of several breaks in a row the first is dropped.
-/
namespace ScopedCommands.Yaml

def joint (breaks : Nat) : List Char :=
  if breaks = 1 then [' '] else List.replicate (breaks - 1) '\n'

def trimEnd (cs : List Char) : List Char := (cs.reverse.dropWhile isSpace).reverse

def flowMarks : List Char := [',', '[', ']', '\x7b', '\x7d']

def startsPlain (flow : Bool) : List Char → Bool
  | [] => false
  | c :: rest =>
    if c = '-' then !blankNext rest
    else if c = '?' ∨ c = ':' then !flow && !blankNext rest
    else !(isSpace c || c = '\n' || flowMarks.contains c
      || ['#', '&', '*', '!', '|', '>', '\'', '"', '%', '@', '\x60'].contains c)

def colonStops : List Char → Bool
  | [] => false
  | c :: _ => c = '?' || flowMarks.contains c

/-- The part of a plain scalar on one line, up to a colon before a blank, a comment, or (between
brackets) a mark. -/
def plainLine (flow afterSpace : Bool) (column : Nat) : List Char → Option (List Char × Cursor)
  | [] => some ([], ⟨column, []⟩)
  | c :: rest =>
    if c = '\n' ∨ (c = ':' ∧ blankNext rest) ∨ (c = '#' ∧ afterSpace)
        ∨ (flow ∧ flowMarks.contains c) then some ([], ⟨column, c :: rest⟩)
    else if flow ∧ c = ':' ∧ colonStops rest then none
    else (plainLine flow (isSpace c) (column + 1) rest).map fun more => (c :: more.1, more.2)

def lineGap (indent breaks column : Nat) : List Char → Option (Nat × Cursor)
  | [] => some (breaks, ⟨column, []⟩)
  | c :: rest =>
    if c = '\n' then lineGap indent (breaks + 1) 0 rest
    else if c = '\t' ∧ breaks ≠ 0 ∧ column < indent then none
    else if isSpace c then lineGap indent breaks (column + 1) rest
    else some (breaks, ⟨column, c :: rest⟩)

/-- The further lines of a plain scalar, which are indented. None of them may be a key. -/
def plainMore (flow : Bool) (indent : Nat) : Nat → List Char → Cursor → Option (List Char × Cursor)
  | 0, text, c => some (text, c)
  | fuel + 1, text, c => do
    let (breaks, next) ← lineGap indent 0 c.column c.rest
    if breaks = 0 ∨ next.rest = [] ∨ next.rest.head? = some '#'
        ∨ (!flow ∧ next.column < indent) then some (text, c)
    else
      let (line, after) ← plainLine flow true next.column next.rest
      if line = [] then some (text, c)
      else if !flow ∧ after.rest.head? = some ':' then none
      else plainMore flow indent fuel (text ++ joint breaks ++ trimEnd line) after

def plain (flow : Bool) (indent : Nat) (c : Cursor) : Option (List Char × Cursor) :=
  if startsPlain flow c.rest then
    match plainLine flow false c.column c.rest with
    | none => none
    | some (line, after) => plainMore flow indent c.rest.length (trimEnd line) after
  else none

def flush (text spaces : List Char) (breaks : Nat) : List Char :=
  if breaks = 0 then spaces ++ text else joint breaks ++ text

/-- A quote inside is written twice. -/
def singleQuoted (text spaces : List Char) (breaks column : Nat) :
    List Char → Option (List Char × Cursor)
  | [] => none
  | '\'' :: '\'' :: rest =>
    singleQuoted ('\'' :: flush text spaces breaks) [] 0 (column + 2) rest
  | '\'' :: rest => some ((flush text spaces breaks).reverse, ⟨column + 1, rest⟩)
  | c :: rest =>
    if c = '\n' then singleQuoted text [] (breaks + 1) 0 rest
    else if isSpace c then
      singleQuoted text (if breaks = 0 then c :: spaces else []) breaks (column + 1) rest
    else singleQuoted (c :: flush text spaces breaks) [] 0 (column + 1) rest

def escaped : Char → Option Char
  | '0' => some '\x00'
  | 'a' => some '\x07'
  | 'b' => some '\x08'
  | 't' => some '\t'
  | '\t' => some '\t'
  | 'n' => some '\n'
  | 'v' => some '\x0b'
  | 'f' => some '\x0c'
  | 'r' => some '\r'
  | 'e' => some '\x1b'
  | ' ' => some ' '
  | '"' => some '"'
  | '/' => some '/'
  | '\\' => some '\\'
  | 'N' => some '\u0085'
  | '_' => some '\u00a0'
  | 'L' => some '\u2028'
  | 'P' => some '\u2029'
  | _ => none

def escapeWidth : Char → Option Nat
  | 'x' => some 2
  | 'u' => some 4
  | 'U' => some 8
  | _ => none

def charOfCode (n : Nat) : Option Char := if n.isValidChar then some (Char.ofNat n) else none

inductive QuoteState
  | text (spaces : List Char) (breaks : Nat)
  | resumed (breaks : Nat)
  | escape
  | digits (left value : Nat)

def QuoteState.flush (text : List Char) : QuoteState → List Char
  | .text spaces breaks => Yaml.flush text spaces breaks
  | .resumed breaks => List.replicate breaks '\n' ++ text
  | _ => text

def QuoteState.space (c : Char) : QuoteState → QuoteState
  | .text spaces 0 => .text (c :: spaces) 0
  | state => state

def QuoteState.lineBreak : QuoteState → QuoteState
  | .text _ breaks => .text [] (breaks + 1)
  | .resumed breaks => .resumed (breaks + 1)
  | state => state

/-- Line and paragraph separators break a line but stay in the text. -/
def isSeparator (c : Char) : Bool := c = '\u2028' || c = '\u2029'

def QuoteState.separate (c : Char) (text : List Char) : QuoteState → List Char
  | .text _ breaks => c :: List.replicate (breaks - 1) '\n' ++ text
  | .resumed breaks => c :: List.replicate breaks '\n' ++ text
  | _ => c :: text

def doubleQuoted (state : QuoteState) (text : List Char) (column : Nat) :
    List Char → Option (List Char × Cursor)
  | [] => none
  | c :: rest =>
    match state with
    | .escape =>
      if c = '\n' then doubleQuoted (.resumed 0) text 0 rest
      else match escapeWidth c with
        | some width => doubleQuoted (.digits width 0) text (column + 1) rest
        | none =>
          match escaped c with
          | some d => doubleQuoted (.text [] 0) (d :: text) (column + 1) rest
          | none => none
    | .digits left value =>
      match inBase 16 [c] with
      | none => none
      | some d =>
        let value := value * 16 + d
        if left ≤ 1 then
          match charOfCode value with
          | some d => doubleQuoted (.text [] 0) (d :: text) (column + 1) rest
          | none => none
        else doubleQuoted (.digits (left - 1) value) text (column + 1) rest
    | state =>
      if c = '"' then some ((state.flush text).reverse, ⟨column + 1, rest⟩)
      else if c = '\\' then doubleQuoted .escape (state.flush text) (column + 1) rest
      else if c = '\n' then doubleQuoted state.lineBreak text 0 rest
      else if isSeparator c then doubleQuoted (.resumed 0) (state.separate c text) 0 rest
      else if isSpace c then doubleQuoted (state.space c) text (column + 1) rest
      else doubleQuoted (.text [] 0) (c :: state.flush text) (column + 1) rest

def quoted (c : Cursor) : Option (List Char × Cursor) :=
  match c.rest with
  | '"' :: rest => doubleQuoted (.text [] 0) [] (c.column + 1) rest
  | '\'' :: rest => singleQuoted [] [] 0 (c.column + 1) rest
  | _ => none

inductive Chomping
  | strip
  | clip
  | keep

structure LiteralHeader where
  chomping : Chomping := .clip
  indent : Option Nat := none

def literalHeader (h : LiteralHeader) : List Char → Option (LiteralHeader × List Char)
  | [] => some (h, [])
  | '-' :: rest => literalHeader { h with chomping := .strip } rest
  | '+' :: rest => literalHeader { h with chomping := .keep } rest
  | c :: rest =>
    if c.isDigit ∧ c ≠ '0' then literalHeader { h with indent := digitValue c } rest
    else if c = '\n' then some (h, rest)
    else if isSpace c then
      match rest.dropWhile isSpace with
      | [] => some (h, [])
      | '\n' :: after => some (h, after)
      | '#' :: comment => some (h, (comment.dropWhile (· ≠ '\n')).drop 1)
      | _ => none
    else none

/-- The indentation of the first line that is not blank, or of a longer blank one before it. -/
def literalIndent (most column : Nat) : List Char → Nat
  | ' ' :: rest => literalIndent most (column + 1) rest
  | '\n' :: rest => literalIndent (max most column) 0 rest
  | _ => max most column

def literalLines (indent : Nat) : Nat → List Char → List (List Char) × List Char
  | 0, rest => ([], rest)
  | _, [] => ([], [])
  | fuel + 1, rest =>
    let line := rest.takeWhile (· ≠ '\n')
    let spaces := line.takeWhile (· = ' ')
    if spaces.length < indent ∧ spaces ≠ line then ([], rest)
    else
      match rest.dropWhile (· ≠ '\n') with
      | [] => ([line.drop indent], [])
      | _ :: after =>
        let more := literalLines indent fuel after
        (line.drop indent :: more.1, more.2)

def chomp (chomping : Chomping) (ended : Bool) (lines : List (List Char)) : List Char :=
  let kept := (lines.reverse.dropWhile (· = [])).reverse
  let blank := lines.length - kept.length
  let body := ['\n'].intercalate kept
  match chomping with
  | .strip => body
  | .clip => if kept = [] ∨ (blank = 0 ∧ !ended) then body else body ++ ['\n']
  | .keep =>
    let breaks := if kept = [] then blank else blank + 1
    body ++ List.replicate (if ended then breaks else breaks - 1) '\n'

/-- A literal scalar after its bar. Its last line break stays in front of the cursor. -/
def literal (indent : Nat) (rest : List Char) : Option (List Char × Cursor) :=
  match literalHeader {} rest with
  | none => none
  | some (h, body) =>
    let column := match h.indent with
      | some n => indent - 1 + n
      | none => max (literalIndent 0 0 body) (max indent 1)
    let (lines, after) := literalLines column (body.length + 1) body
    let ended := after ≠ [] ∨ body.getLast? = some '\n'
    some (chomp h.chomping ended lines, ⟨0, '\n' :: after⟩)

end ScopedCommands.Yaml
