/-!
The lexical level of TOML: blanks, comments, the four kinds of strings, and keys. Each reader
takes what is left of the text and gives what it read with the new rest.
-/
namespace ScopedCommands.Toml

abbrev Read (α : Type) := Option (α × List Char)

def isSpace (c : Char) : Bool := c = ' ' || c = '\t'

def isShown (c : Char) : Bool := c = '\t' || (0x20 ≤ c.toNat && c.toNat != 0x7F)

def skipSpaces (cs : List Char) : List Char := cs.dropWhile isSpace

def skipComment (cs : List Char) : Option (List Char) :=
  match cs with
  | '#' :: rest =>
    let comment := rest.takeWhile (· ≠ '\n')
    if comment.all isShown then some (rest.dropWhile (· ≠ '\n')) else none
  | _ => some cs

def skipLines : Nat → List Char → Option (List Char)
  | 0, cs => some cs
  | fuel + 1, cs =>
    match skipComment (skipSpaces cs) with
    | none => none
    | some ('\n' :: rest) => skipLines fuel rest
    | some rest => some rest

def hexValue (c : Char) : Option Nat :=
  if c.isDigit then some (c.toNat - '0'.toNat)
  else if 'a' ≤ c ∧ c ≤ 'f' then some (c.toNat - 'a'.toNat + 10)
  else if 'A' ≤ c ∧ c ≤ 'F' then some (c.toNat - 'A'.toNat + 10)
  else none

def escaped : Char → Option Char
  | 'b' => some '\x08'
  | 't' => some '\t'
  | 'n' => some '\n'
  | 'f' => some '\x0c'
  | 'r' => some '\r'
  | '"' => some '"'
  | '\\' => some '\\'
  | _ => none

def escapeWidth : Char → Option Nat
  | 'u' => some 4
  | 'U' => some 8
  | _ => none

inductive StringState
  | text
  | escape
  | digits (left value : Nat)
  /-- After a backslash that ends its line: whether the line did end. -/
  | joining (ended : Bool)

/-- Up to two quotes may stand in front of a closing mark of three, so what follows the first three
quotes may still belong to the text. -/
def closeLong (mark : Char) (text rest : List Char) : String × List Char :=
  let extra := (rest.takeWhile (· = mark)).take 2
  (String.ofList (text.reverse ++ extra), rest.drop extra.length)

/-- A basic string up to its closing mark, one quote or three. The text read so far is kept in
reverse. -/
def basic (long : Bool) (state : StringState) (text : List Char) : List Char → Read String
  | [] => none
  | c :: rest =>
    match state with
    | .escape =>
      match escapeWidth c with
      | some width => basic long (.digits width 0) text rest
      | none =>
        match escaped c with
        | some d => basic long .text (d :: text) rest
        | none =>
          if long ∧ c = '\n' then basic long (.joining true) text rest
          else if long ∧ isSpace c then basic long (.joining false) text rest
          else none
    | .digits left value =>
      match hexValue c with
      | none => none
      | some d =>
        let value := value * 16 + d
        if 1 < left then basic long (.digits (left - 1) value) text rest
        else if value.isValidChar then basic long .text (Char.ofNat value :: text) rest
        else none
    | state =>
      let joined := match state with
        | .joining _ => isSpace c || c = '\n'
        | _ => false
      let unfinished := match state with
        | .joining false => c ≠ '\n' && !isSpace c
        | _ => false
      if unfinished then none
      else if joined then
        let ended := match state with
          | .joining e => e || c = '\n'
          | _ => false
        basic long (.joining ended) text rest
      else if c = '"' then
        if !long then some (String.ofList text.reverse, rest)
        else match rest with
          | '"' :: '"' :: after => some (closeLong '"' text after)
          | _ => basic long .text (c :: text) rest
      else if c = '\\' then basic long .escape text rest
      else if isShown c ∨ (long ∧ c = '\n') then basic long .text (c :: text) rest
      else none

def literal (long : Bool) (text : List Char) : List Char → Read String
  | [] => none
  | c :: rest =>
    if c = '\'' then
      if !long then some (String.ofList text.reverse, rest)
      else match rest with
        | '\'' :: '\'' :: after => some (closeLong '\'' text after)
        | _ => literal long (c :: text) rest
    else if isShown c ∨ (long ∧ c = '\n') then literal long (c :: text) rest
    else none

def dropFirstBreak : List Char → List Char
  | '\n' :: rest => rest
  | cs => cs

def shortString : List Char → Read String
  | '"' :: rest => basic false .text [] rest
  | '\'' :: rest => literal false [] rest
  | _ => none

def anyString : List Char → Read String
  | '"' :: '"' :: '"' :: rest => basic true .text [] (dropFirstBreak rest)
  | '\'' :: '\'' :: '\'' :: rest => literal true [] (dropFirstBreak rest)
  | cs => shortString cs

def isBareKeyChar (c : Char) : Bool := c.isAlphanum || c = '_' || c = '-'

def simpleKey (cs : List Char) : Read String :=
  match cs with
  | '"' :: _ | '\'' :: _ => shortString cs
  | _ =>
    match cs.takeWhile isBareKeyChar with
    | [] => none
    | key => some (String.ofList key, cs.dropWhile isBareKeyChar)

/-- Keys joined by dots, with spaces around the dots. The rest starts after trailing spaces. -/
def dottedKey : Nat → List Char → Read (List String)
  | 0, _ => none
  | fuel + 1, cs =>
    match simpleKey (skipSpaces cs) with
    | none => none
    | some (key, rest) =>
      match skipSpaces rest with
      | '.' :: rest => (dottedKey fuel rest).map fun r => (key :: r.1, r.2)
      | rest => some ([key], rest)

end ScopedCommands.Toml
