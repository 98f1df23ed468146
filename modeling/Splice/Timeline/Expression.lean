import Splice.Number.Scalar

/-!
# Filter expressions

The expressions in one variable that a media filter evaluates for every frame: numbers, the
variable, sums, differences, products and a conditional on "less than". Brackets are part of an
expression, so its text needs no knowledge of precedence.
-/

namespace Splice

/-- An expression over scalars of type `α`. -/
inductive Expression (α : Type) where
  | number (value : α)
  | symbol (name : String)
  | bracket (inner : Expression α)
  | sum (left right : Expression α)
  | difference (left right : Expression α)
  | product (left right : Expression α)
  | ifLess (left right yes no : Expression α)

namespace Expression

variable {α : Type} [Scalar α]

/-- The text of an expression. -/
def text : Expression α → String
  | number value => Scalar.numeral value
  | symbol name => name
  | bracket inner => "(" ++ inner.text ++ ")"
  | sum left right => left.text ++ "+" ++ right.text
  | difference left right => left.text ++ "-" ++ right.text
  | product left right => left.text ++ "*" ++ right.text
  | ifLess left right yes no =>
    "if(lt(" ++ left.text ++ "," ++ right.text ++ ")," ++ yes.text ++ "," ++ no.text ++ ")"

end Expression

end Splice
