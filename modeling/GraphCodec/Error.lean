import GraphCodec.Document.Basic

/-!
# Compile errors

The errors of compiling a schema or an operation, with their messages.
-/

set_option autoImplicit false

namespace GraphCodec

/-- Where an unresolved type is referred to. -/
inductive Site where
  /-- As a member type of a union. -/
  | member (union : String)
  /-- As the type condition of an inline fragment on a union. -/
  | condition (union : String)
  /-- As the type of a variable, in the variables codec of this name. -/
  | vars (codec : String)
  deriving DecidableEq, Repr

def Site.text : Site → String
  | .member union => "union " ++ union
  | .condition union => "union type: " ++ union
  | .vars codec => codec

/-- The selections that the compiler does not support. -/
inductive Unsupported where
  | spread (name : String)
  | directives (names : List String)
  | renamed (shown name : String)
  | bareFragment
  | fragmentOnType (type : String)
  | fragmentOnRoot (type : String)
  | duplicateField (name : String)
  deriving DecidableEq, Repr

def Unsupported.text : Unsupported → String
  | .spread name => "fragment spread (" ++ name ++ ")"
  | .directives names => "directive (" ++ String.intercalate ", " (names.map ("@" ++ ·)) ++ ")"
  | .renamed shown name => "alias (" ++ shown ++ ": " ++ name ++ ")"
  | .bareFragment => "inline fragment without type condition"
  | .fragmentOnType type => "inline fragment (on non-union type " ++ type ++ ")"
  | .fragmentOnRoot type => "inline fragment (on root type " ++ type ++ ")"
  | .duplicateField name => "duplicate field (" ++ name ++ ")"

/-- The operations that the compiler does not support. -/
inductive OperationFault where
  | unnamed | subscription
  deriving DecidableEq, Repr

def OperationFault.text : OperationFault → String
  | .unnamed => "operations must be named"
  | .subscription => "subscription operations are not supported"

def TypeKind.nodeName : TypeKind → String
  | .object => "ObjectType"
  | .input => "InputObjectType"
  | .union => "UnionType"
  | .enum => "EnumType"
  | .scalar => "ScalarType"

/-- The class of the definition's node in the syntax tree, as error messages print it. -/
def ForeignKind.nodeName : ForeignKind → String
  | .schema => "SchemaDefinitionNode"
  | .interface => "InterfaceTypeDefinitionNode"
  | .directive => "DirectiveDefinitionNode"
  | .fragment => "FragmentDefinitionNode"
  | .operation => "OperationDefinitionNode"
  | .schemaExtension => "SchemaExtensionNode"
  | .interfaceExtension => "InterfaceTypeExtensionNode"
  | .directiveExtension => "DirectiveExtensionNode"
  | .typeExtension kind => kind.nodeName ++ "ExtensionNode"

inductive CompileError where
  /-- No type definition has this name. -/
  | unresolved (name : String) (site : Option Site)
  /-- The type has no field of this name. -/
  | unknownField (field type : String)
  /-- The inline fragments on a union do not cover these member types. -/
  | nonExhaustive (union : String) (missing : List String)
  | unsupportedSelection (what : Unsupported)
  | unsupportedOperation (name : Option String) (fault : OperationFault)
  /-- The type references form this cycle. -/
  | cyclic (path : List String)
  | unsupportedDefinition (kind : ForeignKind)
  deriving DecidableEq, Repr

def CompileError.message : CompileError → String
  | .unresolved name site =>
    "Could not find type definition with name: " ++ name ++
      (match site with
        | some s => " (in " ++ s.text ++ ")"
        | none => "")
  | .unknownField field type => "Field: " ++ field ++ " does not exist on type: " ++ type
  | .nonExhaustive union missing =>
    "Non exhaustive matching on Union: `" ++ union ++ "`.\n\nMissing cases:\n\t- " ++
      String.intercalate "\n\t- " missing
  | .unsupportedSelection what => "Unsupported selection: " ++ what.text
  | .unsupportedOperation name fault =>
    "Cannot compile operation " ++ name.getD "<anonymous>" ++ ": " ++ fault.text
  | .cyclic path => "Cyclic type reference: " ++ String.intercalate " -> " path
  | .unsupportedDefinition kind => "Unsupported type definition: " ++ kind.nodeName

end GraphCodec
