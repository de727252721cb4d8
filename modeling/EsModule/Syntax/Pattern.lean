import EsModule.Syntax.Node

/-!
# Expressions read as patterns

What stands on the left of `=`, in the head of a loop or between the parentheses of an arrow
function is read as an expression first. Once it is known to be a target, the tree is read again as
a pattern: literals of arrays and objects become patterns, spreads become rests, and assignments
become targets with a default. All nodes keep their numbers and spans.

Where variables are bound, a target has to be a name at the end; where values are assigned, it may
be a member of a value too.
-/

namespace EsModule.Syntax

/-- The three ways in which an expression may be read as a part of a pattern, each for binding
(`true`) or assigning (`false`). -/
structure PatternReading where
  /-- As a target. -/
  target : Bool → Option Node
  /-- As an element of a list of targets, where a spread is a rest. -/
  element : Bool → Option Node
  /-- As a member of an object that is taken apart. -/
  member : Bool → Option Node

/-- The readings of a node as a part of a pattern, from those of its children. -/
def PatternReading.ofKind (id : Nat) (span : Span) (kind : Kind (Node × PatternReading)) :
    PatternReading :=
  let whole := Node.mk id span (kind.map (·.1))
  let target (binding : Bool) : Option Node :=
    match kind with
    | .identifier _ | .objectPattern _ | .arrayPattern _ | .restElement _ => some whole
    | .memberExpression .. => if binding then none else some whole
    | .assignmentPattern (_, left) (right, _) => do
      return .mk id span (.assignmentPattern (← left.target binding) right)
    | .assignmentExpression .assign (_, left) (right, _) => do
      return .mk id span (.assignmentPattern (← left.target binding) right)
    | .arrayExpression elements => do
      let elements ← elements.mapM fun e =>
        match e with
        | none => some none
        | some (_, e) => (e.element binding).map some
      return .mk id span (.arrayPattern elements)
    | .objectExpression properties => do
      return .mk id span (.objectPattern (← properties.mapM fun (_, p) => p.member binding))
    | _ => none
  let rest (binding : Bool) (argument : PatternReading) : Option Node := do
    return .mk id span (.restElement (← argument.target binding))
  { target
    element := fun binding =>
      match kind with
      | .spreadElement (_, argument) => rest binding argument
      | _ => target binding
    member := fun binding =>
      match kind with
      | .property (key, _) (_, value) .plain computed shorthand false => do
        return .mk id span
          (.property key (← value.target binding) .plain computed shorthand false)
      | .spreadElement (_, argument) => rest binding argument
      | _ => none }

namespace Node

/-- The readings of a node as a part of a pattern. -/
def patternReading : Node → PatternReading := para PatternReading.ofKind

/-- The node read as a target for assigning. -/
def toTarget? (n : Node) : Option Node := n.patternReading.target false

/-- The node read as a parameter. -/
def toParameter? (n : Node) : Option Node := n.patternReading.element true

/-- Whether a node is a target that can also be read, as updates and compound assignments need. -/
def isSimpleTarget (n : Node) : Bool :=
  match n.kind with
  | .identifier _ | .memberExpression .. => true
  | _ => false

/-- The name of an identifier. -/
def name? (n : Node) : Option String :=
  match n.kind with
  | .identifier name => some name
  | _ => none

end Node

end EsModule.Syntax
