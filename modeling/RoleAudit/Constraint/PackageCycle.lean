import RoleAudit.Constraint.Basic
import RoleAudit.Digraph.Component
import RoleAudit.Projection

/-!
# Packages without circles

Packages do not depend on each other in a circle. One violation is reported for every group of
packages that depend on each other, with the types behind it.
-/

namespace RoleAudit.Constraint

/-- The relations that make one package depend on another. -/
def dependencyKinds : List EdgeKind :=
  [.extends, .implements, .fieldType, .returnType, .parameterType, .usesInSignature]

/-- The dependencies between the packages of a component. -/
def innerEdges (packages : PackageGraph) (component : List String) : List (String × String) :=
  packages.graph.edges.filter fun (source, target) =>
    component.contains source && component.contains target

/-- A dependency between packages with the first type dependency behind it. -/
def dependencyText? (packages : PackageGraph) (edge : String × String) : Option String :=
  ((packages.witnessesFor edge.1 edge.2).head?).map fun w =>
    edge.1 ++ " -> " ++ edge.2 ++ " (via " ++ w.source.value ++ " -> " ++ w.target.value ++ ")"

/-- The violation of a component. -/
def packageCycleViolation (packages : PackageGraph) (component : List String) : Violation :=
  let edges := innerEdges packages component
  let types := edges.flatMap fun (source, target) =>
    (packages.witnessesFor source target).flatMap fun w => [w.source, w.target]
  { constraint := "dependency:package-cycles"
    severity := .major
    message := "Packages form a dependency cycle: "
      ++ ", ".intercalate (edges.filterMap (dependencyText? packages))
      ++ if packages.truncated then " [witnesses truncated]" else ""
    nodes := distinct types }

/-- Packages do not depend on each other in a circle. -/
def packageCycles (settings : CycleSettings) : Constraint where
  id := "dependency:package-cycles"
  severity := .major
  findings g _ :=
    let packages := g.projectPackages (g.projectTypes dependencyKinds settings) settings
    packages.graph.components.map (packageCycleViolation packages)

end RoleAudit.Constraint
