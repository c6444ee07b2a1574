import ScriptCheck.Json.Printer
import ScriptCheck.Scalar.Json

namespace ScriptCheck

-- What a kind is a kind of.
inductive Category where
  | node
  | arg
  deriving DecidableEq

def Category.name : Category → String
  | node => "node"
  | arg  => "arg"

inductive Violation where
  | unknownKind (category : Category) (kind : String)
  | missingArgument (nodeKind argName : String) (present : List String)
  | unexpectedArguments (nodeKind : String) (extra allowed : List String)
  | invalidBodyChild (parentKind childKind : String) (index : Nat) (allowed : List String)
  | invalidLeafType (leafKind parentKind : String) (allowed : List ScalarType) (actual : ScalarType)
  | malformedArgument (argName : String)
  | malformedBody (nodeKind : String) (index : Nat)
  | refused (argName message : String)
  deriving DecidableEq

inductive Violation.Kind where
  | unknownKind
  | missingArgument
  | unexpectedArguments
  | invalidBodyChild
  | invalidLeafType
  | malformedArgument
  | malformedBody
  | refused
  deriving DecidableEq

def Violation.Kind.name : Kind → String
  | unknownKind         => "unknown_kind"
  | missingArgument     => "missing_argument"
  | unexpectedArguments => "unexpected_arguments"
  | invalidBodyChild    => "invalid_body_child"
  | invalidLeafType     => "invalid_leaf_type"
  | malformedArgument   => "malformed_argument"
  | malformedBody       => "malformed_body"
  | refused             => "custom_validation"

namespace Violation

def kind : Violation → Kind
  | unknownKind ..         => .unknownKind
  | missingArgument ..     => .missingArgument
  | unexpectedArguments .. => .unexpectedArguments
  | invalidBodyChild ..    => .invalidBodyChild
  | invalidLeafType ..     => .invalidLeafType
  | malformedArgument ..   => .malformedArgument
  | malformedBody ..       => .malformedBody
  | refused ..             => .refused

def message : Violation → String
  | unknownKind category kind => "unknown " ++ category.name ++ " kind '" ++ kind ++ "'"
  | missingArgument nodeKind argName present =>
    "Expected node '" ++ nodeKind ++ "' to have a '" ++ argName ++ "', but got: " ++ Text.listed present ++ "."
  | unexpectedArguments nodeKind extra allowed =>
    "'" ++ nodeKind ++ "' has unexpected arguments: " ++ Text.listed extra ++ ". Allowed arguments: " ++
      Text.listed allowed
  | invalidBodyChild parentKind childKind index allowed =>
    "Body of '" ++ parentKind ++ "' node contains '" ++ childKind ++ "' node at index " ++ index.repr ++
      ". Expected one of: " ++ Text.listed allowed
  | invalidLeafType leafKind parentKind allowed actual =>
    "Expected leaf '" ++ leafKind ++ "' within '" ++ parentKind ++ "' to be one of: " ++
      Text.listed (allowed.map ScalarType.name) ++ " but got " ++ actual.name
  | malformedArgument argName => "Expected '" ++ argName ++ "' to be a node or leaf, but it was neither"
  | malformedBody nodeKind index =>
    "Body of '" ++ nodeKind ++ "' node refers to a missing node at index " ++ index.repr
  | refused _ message => message

def fields : Violation → List (String × Json)
  | unknownKind category kind => [("category", .text category.name), ("kind", .text kind)]
  | missingArgument nodeKind argName present =>
    [("node_kind", .text nodeKind), ("arg_name", .text argName), ("present_keys", .texts present)]
  | unexpectedArguments nodeKind extra allowed =>
    [("node_kind", .text nodeKind), ("extra_names", .texts extra), ("allowed_names", .texts allowed)]
  | invalidBodyChild parentKind childKind index allowed =>
    [("parent_kind", .text parentKind), ("child_kind", .text childKind), ("index", .nat index),
      ("allowed", .texts allowed)]
  | invalidLeafType leafKind parentKind allowed actual =>
    [("leaf_kind", .text leafKind), ("parent_kind", .text parentKind),
      ("allowed_types", .list (allowed.map ScalarType.toJson)), ("actual_type", actual.toJson)]
  | malformedArgument argName => [("argument_name", .text argName)]
  | malformedBody nodeKind index => [("node_kind", .text nodeKind), ("index", .nat index)]
  | refused argName message => [("arg_name", .text argName), ("message", .text message)]

-- The name of the constructor, in the words of the format that violations are written in.
def label : Violation → String
  | unknownKind ..         => "UnknownKind"
  | missingArgument ..     => "MissingArgument"
  | unexpectedArguments .. => "UnexpectedArguments"
  | invalidBodyChild ..    => "InvalidBodyChild"
  | invalidLeafType ..     => "InvalidLeafType"
  | malformedArgument ..   => "MalformedArgument"
  | malformedBody ..       => "MalformedBody"
  | refused ..             => "CustomValidation"

-- The constructor comes first, and then its fields. The kind of a violation plays no part in this.
def toJson (v : Violation) : Json :=
  .record (("error", .text (Text.snakeCase v.label)) :: v.fields)

def write (v : Violation) : String :=
  v.toJson.write

end Violation
end ScriptCheck
