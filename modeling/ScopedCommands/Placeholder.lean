import ScopedCommands.Name
import ScopedCommands.Text.Basic

/-!
The grammar of template fields: `${name}` stands for a required parameter, `${?name}` for an
optional one and `${@name}` for the items of a list. A backslash before `$` makes it literal; a
pair of backslashes stays a pair, so that what follows the pair is not escaped. All else is text.
-/
namespace ScopedCommands

inductive PlaceholderKind
  | required
  | optional
  | spread
deriving DecidableEq

structure Placeholder where
  kind : PlaceholderKind
  name : String
deriving DecidableEq

inductive PlaceholderError
  | unclosed (fragment : String)
  | emptyName (field : String)
  | badName (name : String) (fault : NameFault)
deriving DecidableEq

def PlaceholderError.message : PlaceholderError → String
  | .unclosed fragment => s!"Unclosed placeholder: {Text.quote fragment}"
  | .emptyName field => s!"Empty placeholder name in {Text.quote field}"
  | .badName name fault => s!"Invalid parameter name {Text.quote name}: {fault.message}"

namespace PlaceholderKind

def mark : PlaceholderKind → List Char
  | required => []
  | optional => ['?']
  | spread => ['@']

def ofToken : List Char → PlaceholderKind × List Char
  | '?' :: rest => (optional, rest)
  | '@' :: rest => (spread, rest)
  | cs => (required, cs)

end PlaceholderKind

inductive FieldPart
  | text (text : String)
  | placeholder (p : Placeholder)
deriving DecidableEq

namespace Placeholder

open Text (untilClose eq_of_untilClose)

def text (p : Placeholder) : String :=
  "$\x7b" ++ String.ofList p.kind.mark ++ p.name ++ "\x7d"

def ofToken (field : String) (token : List Char) : Except PlaceholderError Placeholder :=
  let (kind, cs) := PlaceholderKind.ofToken token
  let name := String.ofList cs
  match Name.checkSyntax name with
  | .ok () => .ok ⟨kind, name⟩
  | .error (.invalid name fault) => .error (.badName name fault)
  | .error _ => .error (.emptyName field)

inductive Item
  | dollar
  | pair
  | plain (c : Char)
  | placeholder (p : Placeholder)
deriving DecidableEq

def scan (field : String) (text : List Char) : Except PlaceholderError (List Item) :=
  match text with
  | [] => .ok []
  | '\\' :: '$' :: rest => (scan field rest).map (.dollar :: ·)
  | '\\' :: '\\' :: rest => (scan field rest).map (.pair :: ·)
  | '$' :: '{' :: rest =>
    match _closed : untilClose rest with
    | none => .error (.unclosed (String.ofList text))
    | some (token, tail) =>
      match ofToken field token with
      | .error e => .error e
      | .ok p => (scan field tail).map (.placeholder p :: ·)
  | c :: rest => (scan field rest).map (.plain c :: ·)
termination_by text.length
decreasing_by
  · simp only [List.length_cons]; omega
  · simp only [List.length_cons]; omega
  · simp only [eq_of_untilClose _closed, List.length_cons, List.length_append]; omega
  · simp

def prepend (cs : List Char) : List FieldPart → List FieldPart
  | .text t :: rest => .text (String.ofList cs ++ t) :: rest
  | parts => .text (String.ofList cs) :: parts

def merge : List Item → List FieldPart
  | [] => []
  | .dollar :: rest => prepend ['$'] (merge rest)
  | .pair :: rest => prepend ['\\', '\\'] (merge rest)
  | .plain c :: rest => prepend [c] (merge rest)
  | .placeholder p :: rest => .placeholder p :: merge rest

def parse (field : String) : Except PlaceholderError (List FieldPart) :=
  (scan field field.toList).map merge

def sole : List FieldPart → Option Placeholder
  | [.placeholder p] => some p
  | _ => none

def allOf : List FieldPart → List Placeholder
  | [] => []
  | .text _ :: rest => allOf rest
  | .placeholder p :: rest => p :: allOf rest

def firstSpread (parts : List FieldPart) : Option Placeholder :=
  (allOf parts).find? (·.kind = .spread)

end Placeholder
end ScopedCommands
