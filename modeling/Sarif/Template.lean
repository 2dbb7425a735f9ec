/-!
# Message templates

A template is text with placeholders: `{n}` stands for the argument with index `n`, and a doubled
brace for a single one. A placeholder that cannot be filled is kept as it is, and what is put in
for a placeholder is not looked at again.
-/

namespace Sarif
namespace Template

/-- The index that the text of a placeholder denotes: decimal digits, with an optional plus sign
in front. -/
def index? (text : List Char) : Option Nat :=
  let digits := match text with
    | '+' :: rest => rest
    | _ => text
  if !digits.isEmpty && digits.all Char.isDigit then some (Nat.ofDigitChars 10 digits 0) else none

/-- What fills the placeholder whose text begins after an opening brace, and how many characters
it takes up, the closing brace included. -/
def placeholder? (arguments : List String) (text : List Char) : Option (List Char × Nat) :=
  let name := text.takeWhile (· != '}')
  if text.contains '}' then
    ((index? name).bind (arguments[·]?)).map fun argument => (argument.toList, name.length + 1)
  else none

/-- Fills a template from the place where `skip` more characters have been dealt with. -/
def fillFrom (arguments : List String) : (skip : Nat) → List Char → List Char
  | _, [] => []
  | skip + 1, _ :: rest => fillFrom arguments skip rest
  | 0, c :: rest =>
    if (c = '{' ∨ c = '}') ∧ rest.head? = some c then c :: fillFrom arguments 1 rest
    else
      match if c = '{' then placeholder? arguments rest else none with
      | some (text, used) => text ++ fillFrom arguments used rest
      | none => c :: fillFrom arguments 0 rest

/-- A template with its placeholders filled. -/
def fill (arguments : List String) (template : String) : String :=
  String.ofList (fillFrom arguments 0 template.toList)

end Template
end Sarif
