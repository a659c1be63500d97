import RoleAudit.Digraph.Basic
import RoleAudit.Graph.Query
import RoleAudit.Settings.Basic

/-!
# Dependencies between types and between packages

The graph of an application holds members as well as types. Its projection onto types lifts every
edge to the types that declare its ends; the projection onto packages lifts the edges between types
once more and keeps, for every pair of packages, some of the type edges behind it.
-/

namespace RoleAudit

/-- Pairs of texts compare by their first text, then by their second. -/
instance packagePairOrd : Ord (String × String) := lexOrd

instance packagePairTransOrd : Std.TransOrd (String × String) :=
  inferInstanceAs (@Std.TransOrd (String × String) lexOrd)

instance packagePairLawfulEqOrd : Std.LawfulEqOrd (String × String) :=
  inferInstanceAs (@Std.LawfulEqOrd (String × String) lexOrd)

namespace Graph

variable (g : Graph)

/-- The type behind an id: a type itself, or the type that declares a member. -/
def owningType? (id : NodeId) : Option NodeId :=
  (g.node? id).map fun n => n.owner?.getD n.id

/-- Whether an edge counts for a projection onto some relations. -/
def countsFor (kinds : List EdgeKind) (settings : CycleSettings) (e : Edge) : Bool :=
  kinds.contains e.kind && (settings.includeDerived || !e.isDerived)

/-- The types between which an edge leads, when they differ. -/
def liftedEdge? (e : Edge) : Option (NodeId × NodeId) :=
  match g.owningType? e.source, g.owningType? e.target with
  | some source, some target => if source = target then none else some (source, target)
  | _, _ => none

/-- The dependencies between the types that `keep` accepts, along some relations. All those types
are nodes, connected or not; a type does not depend on itself. -/
def projectTypesWhere (kinds : List EdgeKind) (settings : CycleSettings) (keep : NodeId → Bool) :
    Digraph NodeId :=
  let nodes := (g.types.map (·.id)).filter keep
  let edges := (g.edges.toList.filter (countsFor kinds settings)).filterMap g.liftedEdge?
  (edges.filter fun (source, target) => keep source && keep target).foldl
    (fun d (source, target) => d.addEdge source target) (nodes.foldl Digraph.addNode .empty)

/-- The dependencies between all types along some relations. -/
def projectTypes (kinds : List EdgeKind) (settings : CycleSettings) : Digraph NodeId :=
  g.projectTypesWhere kinds settings fun _ => true

/-- The package of a node. -/
def packageOf? (id : NodeId) : Option String := (g.node? id).map (·.package)

end Graph

/-- A dependency between types that stands behind one between their packages. -/
structure Witness where
  /-- The type that depends. -/
  source : NodeId
  /-- The type that it depends on. -/
  target : NodeId
  deriving DecidableEq, Repr

/-- The dependencies between packages. -/
structure PackageGraph where
  /-- The packages and the dependencies between them. -/
  graph : Digraph String := .empty
  /-- The first type dependencies behind every package dependency. -/
  witnesses : Std.TreeMap (String × String) (Array Witness) := .empty
  /-- Whether a package dependency has more type dependencies than were kept. -/
  truncated : Bool := false

namespace PackageGraph

/-- The type dependencies kept for a pair of packages. -/
def witnessesFor (p : PackageGraph) (source target : String) : List Witness :=
  (p.witnesses.getD (source, target) #[]).toList

/-- Adds a dependency between packages with the type dependency behind it; at most `limit` of these
are kept. -/
def addDependency (limit : Nat) (p : PackageGraph) (source target : String) (w : Witness) :
    PackageGraph :=
  let kept := p.witnesses.getD (source, target) #[]
  let room := kept.size < limit
  { graph := p.graph.addEdge source target
    witnesses := p.witnesses.insert (source, target) (if room then kept.push w else kept)
    truncated := p.truncated || !room }

/-- Every pair of packages with its kept type dependencies, in the order of the names. -/
def witnessList (p : PackageGraph) : List ((String × String) × List Witness) :=
  p.witnesses.toList.map fun (pair, ws) => (pair, ws.toList)

end PackageGraph

/-- Lifts dependencies between types to their packages. -/
def Graph.projectPackages (g : Graph) (types : Digraph NodeId) (settings : CycleSettings) :
    PackageGraph :=
  let packages : Digraph String := (types.nodes.filterMap g.packageOf?).foldl Digraph.addNode .empty
  types.edges.foldl (fun p (source, target) =>
    match g.packageOf? source, g.packageOf? target with
    | some sourcePackage, some targetPackage =>
      if sourcePackage = targetPackage then p
      else p.addDependency settings.maxDependenciesPerEdge sourcePackage targetPackage
        { source, target }
    | _, _ => p) { graph := packages }

end RoleAudit
