import GraphCodec.Schema.Compiler

/-!
# Compiling variables

The variables of an operation form an input object with one property for each variable definition.
-/

set_option autoImplicit false

namespace GraphCodec

def OperationKind.word : OperationKind → String
  | .query => "query"
  | .mutation => "mutation"
  | .subscription => "subscription"

def OperationKind.title : OperationKind → String
  | .query => "Query"
  | .mutation => "Mutation"
  | .subscription => "Subscription"

namespace Operation

/-- The identifier of the codec of the variables: the operation name, the operation type and
`Variables`. -/
def variablesName (op : Operation) : Except CompileError String :=
  match op.name with
  | none => .error (.unsupportedOperation none .unnamed)
  | some name => .ok (name ++ op.kind.title ++ "Variables")

/-- The codec of the variables of an operation, an input object with one property for each
variable definition; `inputs` are the input types in scope. -/
def variablesCodec (op : Operation) (inputs : List (String × Codec)) :
    Except CompileError Codec := do
  let codecName ← op.variablesName
  let lookup (n : String) : Except CompileError Codec :=
    match inputs.lookup n with
    | some c => .ok c
    | none => .error (.unresolved n (some (.vars codecName)))
  let props ← op.vars.mapM fun v => do return (v.name, ← v.type.resolve lookup)
  return .input codecName (Assoc.ofList props)

end Operation

end GraphCodec
