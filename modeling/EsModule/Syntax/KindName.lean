import EsModule.Syntax.Node

/-!
# The names of the kinds of nodes

Each kind of node has a name under which tools for trees know it.
-/

namespace EsModule.Syntax

/-- The name of a kind of node. -/
def Kind.typeName {α : Type} : Kind α → String
  | .program .. => "Program"
  | .variableDeclaration .. => "VariableDeclaration"
  | .variableDeclarator .. => "VariableDeclarator"
  | .functionDeclaration .. => "FunctionDeclaration"
  | .classDeclaration .. => "ClassDeclaration"
  | .expressionStatement .. => "ExpressionStatement"
  | .blockStatement .. => "BlockStatement"
  | .emptyStatement => "EmptyStatement"
  | .debuggerStatement => "DebuggerStatement"
  | .ifStatement .. => "IfStatement"
  | .switchStatement .. => "SwitchStatement"
  | .switchCase .. => "SwitchCase"
  | .whileStatement .. => "WhileStatement"
  | .doWhileStatement .. => "DoWhileStatement"
  | .forStatement .. => "ForStatement"
  | .forInStatement .. => "ForInStatement"
  | .forOfStatement .. => "ForOfStatement"
  | .returnStatement .. => "ReturnStatement"
  | .breakStatement .. => "BreakStatement"
  | .continueStatement .. => "ContinueStatement"
  | .throwStatement .. => "ThrowStatement"
  | .tryStatement .. => "TryStatement"
  | .catchClause .. => "CatchClause"
  | .labeledStatement .. => "LabeledStatement"
  | .importDeclaration .. => "ImportDeclaration"
  | .importSpecifier .. => "ImportSpecifier"
  | .importDefaultSpecifier .. => "ImportDefaultSpecifier"
  | .importNamespaceSpecifier .. => "ImportNamespaceSpecifier"
  | .exportNamedDeclaration .. => "ExportNamedDeclaration"
  | .exportSpecifier .. => "ExportSpecifier"
  | .exportDefaultDeclaration .. => "ExportDefaultDeclaration"
  | .exportAllDeclaration .. => "ExportAllDeclaration"
  | .identifier .. => "Identifier"
  | .privateName .. => "PrivateName"
  | .literal .. => "Literal"
  | .templateLiteral .. => "TemplateLiteral"
  | .taggedTemplate .. => "TaggedTemplateExpression"
  | .thisExpression => "ThisExpression"
  | .superExpression => "Super"
  | .arrayExpression .. => "ArrayExpression"
  | .objectExpression .. => "ObjectExpression"
  | .property .. => "Property"
  | .spreadElement .. => "SpreadElement"
  | .functionExpression .. => "FunctionExpression"
  | .arrowFunction .. => "ArrowFunctionExpression"
  | .classExpression .. => "ClassExpression"
  | .classBody .. => "ClassBody"
  | .methodDefinition .. => "MethodDefinition"
  | .propertyDefinition .. => "PropertyDefinition"
  | .staticBlock .. => "StaticBlock"
  | .unaryExpression .. => "UnaryExpression"
  | .updateExpression .. => "UpdateExpression"
  | .binaryExpression .. => "BinaryExpression"
  | .assignmentExpression .. => "AssignmentExpression"
  | .conditionalExpression .. => "ConditionalExpression"
  | .callExpression .. => "CallExpression"
  | .newExpression .. => "NewExpression"
  | .memberExpression .. => "MemberExpression"
  | .sequenceExpression .. => "SequenceExpression"
  | .yieldExpression .. => "YieldExpression"
  | .awaitExpression .. => "AwaitExpression"
  | .metaProperty .. => "MetaProperty"
  | .importExpression .. => "ImportExpression"
  | .objectPattern .. => "ObjectPattern"
  | .arrayPattern .. => "ArrayPattern"
  | .restElement .. => "RestElement"
  | .assignmentPattern .. => "AssignmentPattern"
  | .removed => "Removed"

end EsModule.Syntax
