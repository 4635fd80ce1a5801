import ScopedEval.Builder

namespace ScopedEval

inductive Tree where
  | literal (value : Literal)
  | ident (name : String)
  | print (operand : Tree)
  | binary (op : Operator) (left right : Tree)
  | ifThen (condition consequent : Tree)
  | ifElse (condition consequent alternative : Tree)
  | loop (condition body : Tree)
  | seq (first second : Tree)
  | block (first : Tree) (rest : List Tree)
  | declare (name : String) (init : Tree)
  | assign (name : String) (value : Tree)
  | function (params : List String) (body : Tree)
  | call (callee : Tree) (args : List Tree)

namespace Tree

mutual

/-- Lay a tree out in the builder's arena: subtrees from left to right, then the expression itself,
    whose names are interned last. -/
def build (builder : Builder) : Tree → ExprId × Builder
  | .literal value => builder.literal value
  | .ident name => builder.ident name
  | .print operand =>
    let (operand, builder) := build builder operand
    builder.print operand
  | .binary op left right =>
    let (left, builder) := build builder left
    let (right, builder) := build builder right
    builder.binary op left right
  | .ifThen condition consequent =>
    let (condition, builder) := build builder condition
    let (consequent, builder) := build builder consequent
    builder.branch condition consequent none
  | .ifElse condition consequent alternative =>
    let (condition, builder) := build builder condition
    let (consequent, builder) := build builder consequent
    let (alternative, builder) := build builder alternative
    builder.branch condition consequent (some alternative)
  | .loop condition body =>
    let (condition, builder) := build builder condition
    let (body, builder) := build builder body
    builder.loop condition body
  | .seq first second =>
    let (first, builder) := build builder first
    let (second, builder) := build builder second
    builder.seq first second
  | .block first rest =>
    let (first, builder) := build builder first
    let (rest, builder) := buildAll builder rest
    builder.seqFrom first rest
  | .declare name init =>
    let (init, builder) := build builder init
    builder.declare name init
  | .assign name value =>
    let (value, builder) := build builder value
    builder.assign name value
  | .function params body =>
    let (body, builder) := build builder body
    builder.function params body
  | .call callee args =>
    let (callee, builder) := build builder callee
    let (args, builder) := buildAll builder args
    builder.call callee args

def buildAll (builder : Builder) : List Tree → List ExprId × Builder
  | [] => ([], builder)
  | tree :: rest =>
    let (id, builder) := build builder tree
    let (ids, builder) := buildAll builder rest
    (id :: ids, builder)

end

def buildProgram (builder : Builder) (program : List Tree) : Option ExprId × Builder :=
  let (ids, builder) := buildAll builder program
  builder.seqAll ids

end Tree

end ScopedEval
