import DeskCalculator.Formula.Token

/-!
# Expression trees

An expression by its structure, and its value in double-precision arithmetic. There is no variable
in a tree: the variable is replaced in the line, before the line is read.
-/

namespace DeskCalculator

/-- An arithmetic expression. -/
inductive Tree where
  | number (v : Float)
  | negate (a : Tree)
  | binary (o : Operator) (a b : Tree)
  deriving DecidableEq

/-- The operation of an operator. -/
def Operator.apply : Operator → Float → Float → Float
  | plus, x, y => x + y
  | minus, x, y => x - y
  | times, x, y => x * y
  | divide, x, y => x / y
  | remainder, x, y => Double.remainder x y
  | power, x, y => Float.pow x y

/-- The value of an expression. It may be infinite or undefined. -/
@[simp] def Tree.value : Tree → Float
  | number v => v
  | negate a => -a.value
  | binary o a b => o.apply a.value b.value

end DeskCalculator
