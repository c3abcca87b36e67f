import QueryPredicates.Evaluation.Context

/-! Evaluation of expressions. Operands are evaluated from left to right, and those
that cannot matter are not: the right operand under a NULL left one, unless the
comparison is null-safe, and the candidates of an IN list after one that equals its
operand. -/

namespace QueryPredicates

namespace Context

def readColumn (ctx : Context) (c : Column) : Evaluation Value := do
  Run.note [.readColumn c]
  Run.ofExcept ((ctx.column c).elim (.error (.columnWithoutValue c)) .ok)

def readParameter (ctx : Context) (p : Parameter) : Evaluation Value := do
  Run.note [.readParameter p.index]
  Run.ofExcept ((ctx.parameter p.index).elim (.error (.parameterNotSet p.index)) .ok)

def nextValue (s : Sequence) : Evaluation Value := do
  let n ← Run.draw s.counter s.increment
  Run.note [.advance ⟨s, n⟩]
  return .bigInt n

/-- The hook that a comparator puts its question to. -/
def hookCalls (op : Comparator) (l r : Value) : List Act :=
  match op.question with
  | .order mode _ => [.compare mode l r]
  | .same _ => [.same l r]
  | .overlap => []

def test (ctx : Context) (op : Comparator) (l r : Value) : Evaluation Truth := do
  Run.note (hookCalls op l r)
  return op.truthUnder ctx.hooks l r

/-- Compares a value with a right operand, which a NULL may make unnecessary. -/
def against (ctx : Context) (op : Comparator) (l : Value) (right : Evaluation Value) :
    Evaluation Truth :=
  if l.isNull && !op.isNullSafe then pure .unknown
  else do
    let r ← right
    ctx.test op l r

def comparison (ctx : Context) (op : Comparator) (left right : Evaluation Value) :
    Evaluation Truth := do
  let l ← left
  ctx.against op l right

def nullTest (operand : Evaluation Value) (negated : Bool) : Evaluation Truth := do
  let v ← operand
  return .ofBool (v.isNull != negated)

/-- Looks for a candidate equal to a value; `sofar` is the answer if there is none left. -/
def search (ctx : Context) (v : Value) (sofar : Truth) :
    List (Evaluation Value) → Evaluation Truth
  | [] => pure sofar
  | candidate :: candidates => do
    let w ← candidate
    match ← ctx.test .equal v w with
    | .holds => pure .holds
    | .unknown => search ctx v .unknown candidates
    | .fails => search ctx v sofar candidates

def membership (ctx : Context) (operand : Evaluation Value) (candidates : List (Evaluation Value)) :
    Evaluation Truth := do
  let v ← operand
  if v.isNull then pure .unknown else ctx.search v .fails candidates

end Context

namespace Expr

mutual
def eval (ctx : Context) : Expr → Evaluation Value
  | constant c => pure c.value
  | column c => ctx.readColumn c
  | parameter p => ctx.readParameter p
  | nextValue s => Context.nextValue s
  | comparison op left right _ => Truth.toValue <$> ctx.comparison op (left.eval ctx) (right.eval ctx)
  | nullTest operand negated => Truth.toValue <$> Context.nullTest (operand.eval ctx) negated
  | inList operand first rest =>
    Truth.toValue <$> ctx.membership (operand.eval ctx) (first.eval ctx :: evals ctx rest)

/-- The evaluations of some expressions, none of them run yet. -/
def evals (ctx : Context) : List Expr → List (Evaluation Value)
  | [] => []
  | e :: es => e.eval ctx :: evals ctx es
end

theorem evals_eq_map (ctx : Context) (es : List Expr) : evals ctx es = es.map (eval ctx) := by
  induction es with
  | nil => rfl
  | cons e es ih => simp [evals, ih]

end Expr

namespace Comparison

def eval (ctx : Context) (c : Comparison) : Evaluation Truth :=
  ctx.comparison c.op (c.left.eval ctx) (c.right.eval ctx)

/-- Evaluates the test of a case branch: a `WHEN` operand compares the case value with
its right operand, any other comparison is tested for being equal to the case value. -/
def evalWhen (ctx : Context) (c : Comparison) (caseValue : Value) : Evaluation Truth :=
  if c.whenOperand then ctx.against c.op caseValue (c.right.eval ctx)
  else do
    let own ← c.eval ctx
    ctx.test .equal caseValue own.toValue

theorem eval_toExpr (ctx : Context) (c : Comparison) :
    c.toExpr.eval ctx = Truth.toValue <$> c.eval ctx := rfl

end Comparison

def NullTest.eval (ctx : Context) (t : NullTest) : Evaluation Truth :=
  Context.nullTest (t.operand.eval ctx) t.negated

theorem NullTest.eval_toExpr (ctx : Context) (t : NullTest) :
    t.toExpr.eval ctx = Truth.toValue <$> t.eval ctx := rfl

def InList.eval (ctx : Context) (l : InList) : Evaluation Truth :=
  ctx.membership (l.operand.eval ctx) (l.values.map (Expr.eval ctx))

theorem InList.eval_toExpr (ctx : Context) (l : InList) :
    l.toExpr.eval ctx = Truth.toValue <$> l.eval ctx := by
  simp [toExpr, eval, Expr.eval, Expr.evals_eq_map, values]

end QueryPredicates
