import Dataflow.Number.Binary64

/-!
# Operators on numbers

The arithmetic that nodes perform: operators on two numbers, operators on one, and reductions, which
fold a row of numbers into one.  Of a number and something that is no number, maximum and minimum
give the number.
-/

namespace Dataflow

namespace Number

/-- The larger of two numbers, or the only number among the two. -/
def larger (a b : Float) : Float :=
  if a.isNaN then b else if b.isNaN then a else if a < b then b else a

/-- The smaller of two numbers, or the only number among the two. -/
def smaller (a b : Float) : Float :=
  if a.isNaN then b else if b.isNaN then a else if b < a then b else a

end Number

/-- An operator on two numbers. -/
inductive BinaryOp where
  | add
  | sub
  | mul
  | div
  | max
  | min
deriving DecidableEq, Repr

namespace BinaryOp

/-- The operators, in the order in which they are documented. -/
def all : List BinaryOp := [add, sub, mul, div, max, min]

/-- The name of an operator in model texts and listings. -/
def name : BinaryOp → String
  | add => "add"
  | sub => "sub"
  | mul => "mul"
  | div => "div"
  | max => "max"
  | min => "min"

/-- The result of an operator. -/
def apply : BinaryOp → Float → Float → Float
  | add, a, b => a + b
  | sub, a, b => a - b
  | mul, a, b => a * b
  | div, a, b => a / b
  | max, a, b => Number.larger a b
  | min, a, b => Number.smaller a b

end BinaryOp

/-- An operator on one number. -/
inductive UnaryOp where
  | neg
  | abs
  | sqrt
  | exp
  | log
  | relu
  | sigmoid
  | tanh
deriving DecidableEq, Repr

namespace UnaryOp

/-- The operators, in the order in which they are documented. -/
def all : List UnaryOp := [neg, abs, sqrt, exp, log, relu, sigmoid, tanh]

/-- The name of an operator in model texts and listings. -/
def name : UnaryOp → String
  | neg => "neg"
  | abs => "abs"
  | sqrt => "sqrt"
  | exp => "exp"
  | log => "log"
  | relu => "relu"
  | sigmoid => "sigmoid"
  | tanh => "tanh"

/-- The result of an operator. -/
def apply : UnaryOp → Float → Float
  | neg, v => -v
  | abs, v => v.abs
  | sqrt, v => v.sqrt
  | exp, v => v.exp
  | log, v => v.log
  | relu, v => Number.larger v 0
  | sigmoid, v => 1 / (1 + (-v).exp)
  | tanh, v => v.tanh

end UnaryOp

/-- A reduction of a row of numbers to one. -/
inductive ReduceOp where
  | sum
  | product
  | max
  | min
deriving DecidableEq, Repr

namespace ReduceOp

/-- The reductions, in the order in which they are documented. -/
def all : List ReduceOp := [sum, product, max, min]

/-- The name of a reduction in model texts and listings. -/
def name : ReduceOp → String
  | sum => "sum"
  | product => "product"
  | max => "reduce_max"
  | min => "reduce_min"

/-- The value that a reduction starts from. -/
def identity : ReduceOp → Float
  | sum => 0
  | product => 1
  | max => Number.negInfinity
  | min => Number.infinity

/-- One step of a reduction. -/
def combine : ReduceOp → Float → Float → Float
  | sum, acc, v => acc + v
  | product, acc, v => acc * v
  | max, acc, v => Number.larger acc v
  | min, acc, v => Number.smaller acc v

end ReduceOp
end Dataflow
