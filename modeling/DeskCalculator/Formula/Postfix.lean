import DeskCalculator.Formula.Tree

/-!
# Postfix listings

The way from tokens to a tree leads through the postfix listing, in which every operator stands
behind its operands and no parentheses are needed.

`Postfix.ofTokens` reads the tokens from left to right. Numbers are listed at once; an operator
waits until its right operand is complete, which is when an operator comes that binds no tighter,
or when the parentheses around it close. A minus sign where a value is due is a negation; it waits
as well and releases nothing, so a power to its right is taken first and a negative exponent needs
no parentheses. A plus sign where a value is due is dropped.

`Tree.ofPostfix` builds the tree of a listing on a stack.
-/

namespace DeskCalculator

namespace Postfix

/-- The elements of a postfix listing: tokens and negations. -/
inductive Item where
  | token (t : Token)
  | negate
  deriving DecidableEq

/-- What waits for its right operand. -/
inductive Waiting where
  | negate
  | binary (o : Operator)
  deriving DecidableEq, Repr

/-! ## From tokens to a listing -/

/-- How tightly an operator binds. -/
def precedence : Operator → Nat
  | .plus | .minus => 1
  | .times | .divide | .remainder => 2
  | .power => 4

namespace Waiting

/-- How tightly a waiting operation binds: a negation tighter than a product, looser than a
power. -/
def precedence : Waiting → Nat
  | negate => 3
  | binary o => Postfix.precedence o

/-- The element that a waiting operation leaves in the listing. -/
def item : Waiting → Item
  | negate => .negate
  | binary o => .token (.operator o)

/-- Whether a waiting operation is complete when the operator `o` comes. Equally tight operators
associate to the left, powers to the right. -/
def isCompletedBy (o : Operator) (w : Waiting) : Bool :=
  match o with
  | .power => Postfix.precedence o < w.precedence
  | _ => Postfix.precedence o ≤ w.precedence

end Waiting

/-- How far the tokens have been read. -/
structure Reading where
  /-- The listing so far, its last element first. -/
  listed : List Item := []
  /-- What waits since the innermost open parenthesis, the latest first. -/
  waiting : List Waiting := []
  /-- What waits outside it, one list for each open parenthesis. -/
  outside : List (List Waiting) := []
  /-- The last token completed a value. -/
  afterValue : Bool := false

namespace Reading

/-- The reading with waiting operations listed, the latest first. -/
def list (r : Reading) (ws : List Waiting) : List Item :=
  ws.foldl (fun listed w ↦ w.item :: listed) r.listed

/-- Reads one token. -/
def next (r : Reading) : Token → Except Malformed Reading
  | .number v =>
    if r.afterValue then .error .missingOperator
    else .ok { r with listed := .token (.number v) :: r.listed, afterValue := true }
  | .openParen =>
    if r.afterValue then .error .missingOperatorBeforeOpen
    else .ok { r with waiting := [], outside := r.waiting :: r.outside }
  | .closeParen =>
    if !r.afterValue then .error .missingOperandBeforeClose
    else match r.outside with
      | [] => .error .unmatchedClose
      | waiting :: outside => .ok { r with listed := r.list r.waiting, waiting, outside }
  | .operator o =>
    if r.afterValue then
      .ok { r with
        listed := r.list (r.waiting.takeWhile (·.isCompletedBy o))
        waiting := .binary o :: r.waiting.dropWhile (·.isCompletedBy o)
        afterValue := false }
    else match o with
      | .plus => .ok r
      | .minus => .ok { r with waiting := .negate :: r.waiting }
      | _ => .error .missingOperand

/-- The listing, once all tokens are read. -/
def finish (r : Reading) : Except Malformed (List Item) :=
  if !r.afterValue then .error .incomplete
  else if r.outside.isEmpty then .ok (r.list r.waiting).reverse
  else .error .unclosedOpen

end Reading

/-- The postfix listing of an expression. -/
def ofTokens (ts : List Token) : Except Malformed (List Item) := do
  let r ← ts.foldlM Reading.next {}
  r.finish

/-! ## From a listing to a tree -/

/-- Reads one element of a listing onto the stack of the trees built so far. -/
def push (stack : List Tree) : Item → Except Malformed (List Tree)
  | .token (.number v) => .ok (.number v :: stack)
  | .negate =>
    match stack with
    | a :: rest => .ok (.negate a :: rest)
    | [] => .error .negatesNothing
  | .token t =>
    match stack with
    | b :: a :: rest =>
      match t with
      | .operator o => .ok (.binary o a b :: rest)
      | _ => .error .parenthesisInListing
    | _ => .error .notOneExpression

end Postfix

/-- The tree of a postfix listing: the one tree that is left when the listing ends. -/
def Tree.ofPostfix (items : List Postfix.Item) : Except Malformed Tree := do
  match ← items.foldlM Postfix.push [] with
  | [t] => .ok t
  | _ => .error .notOneExpression

end DeskCalculator
