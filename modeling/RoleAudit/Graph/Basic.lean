import RoleAudit.Element.Node
import RoleAudit.Error
import RoleAudit.Graph.Multimap

/-!
# The graph of an application

The store of all nodes and edges of one analysis. It only grows: `addNode` refuses an id that is
taken, `addEdge` refuses an edge with an end that is no node, and nothing is ever changed or taken
out. Both keep the indexes up to date in the same step, so that every look-up equals a scan of the
nodes and edges so far, in the order of their arrival.
-/

namespace RoleAudit

/-- What is known of an application as a whole. -/
structure Metadata where
  /-- The package that all others stand in. -/
  rootPackage : Option String
  /-- The level of the source language. -/
  languageLevel : Option String
  /-- How many types the source declares. -/
  sourceCount : Nat
  deriving DecidableEq, Repr

/-- Nothing known. -/
def Metadata.empty : Metadata := { rootPackage := none, languageLevel := none, sourceCount := 0 }

/-- Pairs of ids compare by their first id, then by their second. -/
instance : Ord (NodeId × NodeId) := lexOrd

instance : Std.TransOrd (NodeId × NodeId) :=
  inferInstanceAs (@Std.TransOrd (NodeId × NodeId) lexOrd)

instance : Std.LawfulEqOrd (NodeId × NodeId) :=
  inferInstanceAs (@Std.LawfulEqOrd (NodeId × NodeId) lexOrd)

/-- The look-ups of a graph. -/
structure Indexes where
  /-- The types in the order of their arrival. -/
  types : Array NodeId := #[]
  /-- The members in the order of their arrival. -/
  members : Array NodeId := #[]
  /-- The types of a package. -/
  byPackage : Multimap String NodeId := .empty
  /-- The types of a form, by its label. -/
  byForm : Multimap String NodeId := .empty
  /-- The nodes with an annotation, by its qualified name. -/
  byAnnotation : Multimap String NodeId := .empty
  /-- The members that a type declares. -/
  declaredMembers : Multimap NodeId NodeId := .empty
  /-- The type that declares a member, the last one if several do. -/
  declaringType : Std.TreeMap NodeId NodeId := .empty
  /-- The types that extend a type. -/
  subtypes : Multimap NodeId NodeId := .empty
  /-- The types that a type extends. -/
  supertypes : Multimap NodeId NodeId := .empty
  /-- The types that implement an interface. -/
  implementors : Multimap NodeId NodeId := .empty
  /-- The interfaces that a type implements. -/
  implementedInterfaces : Multimap NodeId NodeId := .empty
  /-- The fields whose type mentions a type. -/
  fieldsByType : Multimap NodeId NodeId := .empty
  /-- The methods whose result mentions a type. -/
  methodsByReturnType : Multimap NodeId NodeId := .empty
  /-- The methods and constructors with a parameter that mentions a type. -/
  membersByParameterType : Multimap NodeId NodeId := .empty
  /-- The interfaces whose signatures mention a type. -/
  signatureUsers : Multimap NodeId NodeId := .empty
  /-- The types that the signatures of an interface mention. -/
  signatureTypes : Multimap NodeId NodeId := .empty
  /-- The places where the signatures of an interface mention a type. -/
  signatureProofs : Multimap (NodeId × NodeId) EdgeProof := .empty

namespace Indexes

/-- The look-ups with a new node. -/
def addNode (ix : Indexes) (n : Node) : Indexes :=
  let byAnnotation := n.annotations.foldl (fun m a => m.insert a.name n.id) ix.byAnnotation
  let ix := { ix with byAnnotation }
  match n with
  | .type t =>
    { ix with
      byPackage := ix.byPackage.insert t.package t.id
      byForm := ix.byForm.insert t.form.label t.id
      types := ix.types.push t.id }
  | _ => { ix with members := ix.members.push n.id }

/-- The look-ups with a new edge. -/
def addEdge (ix : Indexes) (e : Edge) : Indexes :=
  match e.kind with
  | .declares =>
    { ix with
      declaringType := ix.declaringType.insert e.target e.source
      declaredMembers := ix.declaredMembers.insert e.source e.target }
  | .extends =>
    { ix with
      subtypes := ix.subtypes.insert e.target e.source
      supertypes := ix.supertypes.insert e.source e.target }
  | .implements =>
    { ix with
      implementors := ix.implementors.insert e.target e.source
      implementedInterfaces := ix.implementedInterfaces.insert e.source e.target }
  | .fieldType => { ix with fieldsByType := ix.fieldsByType.insert e.target e.source }
  | .returnType =>
    { ix with methodsByReturnType := ix.methodsByReturnType.insert e.target e.source }
  | .parameterType =>
    { ix with membersByParameterType := ix.membersByParameterType.insert e.target e.source }
  | .usesInSignature =>
    { ix with
      signatureProofs :=
        match e.proof with
        | some proof => ix.signatureProofs.insert (e.source, e.target) proof
        | none => ix.signatureProofs
      signatureUsers := ix.signatureUsers.insert e.target e.source
      signatureTypes := ix.signatureTypes.insert e.source e.target }

end Indexes

/-- The nodes and edges of an application with their look-ups. -/
structure Graph where
  /-- What is known of the application as a whole. -/
  metadata : Metadata := .empty
  /-- The nodes in the order of their arrival. -/
  nodes : Array Node := #[]
  /-- The edges in the order of their arrival. -/
  edges : Array Edge := #[]
  /-- The node of an id. -/
  byId : Std.TreeMap NodeId Node := .empty
  /-- The edges that leave a node. -/
  outgoing : Multimap NodeId Edge := .empty
  /-- The edges that enter a node. -/
  incoming : Multimap NodeId Edge := .empty
  /-- The edges of a relation, by its label. -/
  byKind : Multimap String Edge := .empty
  /-- The look-ups by property and relation. -/
  indexes : Indexes := {}

namespace Graph

/-- The graph without nodes. -/
def empty : Graph := {}

/-- The graph without nodes of an application. -/
def withMetadata (metadata : Metadata) : Graph := { metadata }

/-- Whether an id is that of a node. -/
def contains (g : Graph) (id : NodeId) : Bool := g.byId.contains id

/-- The node of an id. -/
def node? (g : Graph) (id : NodeId) : Option Node := g.byId.get? id

/-- The type of an id. -/
def type? (g : Graph) (id : NodeId) : Option TypeNode := (g.node? id).bind Node.type?

/-- The graph with one more node, or an error when its id is taken. -/
def addNode (g : Graph) (n : Node) : Except Error Graph :=
  if g.contains n.id then .error (.duplicateNode n.id)
  else
    .ok { g with
      nodes := g.nodes.push n
      byId := g.byId.insert n.id n
      indexes := g.indexes.addNode n }

/-- The graph with one more edge, or an error when one of its ends is no node. -/
def addEdge (g : Graph) (e : Edge) : Except Error Graph :=
  if !g.contains e.source then .error (.danglingEdge e.source e.target e.kind e.source)
  else if !g.contains e.target then .error (.danglingEdge e.source e.target e.kind e.target)
  else
    .ok { g with
      edges := g.edges.push e
      outgoing := g.outgoing.push e.source e
      incoming := g.incoming.push e.target e
      byKind := g.byKind.push e.kind.label e
      indexes := g.indexes.addEdge e }

/-- The edges that leave a node, oldest first. -/
def edgesFrom (g : Graph) (id : NodeId) : List Edge := g.outgoing.get id

/-- The edges that enter a node, oldest first. -/
def edgesTo (g : Graph) (id : NodeId) : List Edge := g.incoming.get id

/-- The edges of a relation, oldest first. -/
def edgesOfKind (g : Graph) (kind : EdgeKind) : List Edge := g.byKind.get kind.label

/-- How many nodes there are. -/
def nodeCount (g : Graph) : Nat := g.nodes.size

/-- How many types there are. -/
def typeCount (g : Graph) : Nat := g.indexes.types.size

/-- How many members there are. -/
def memberCount (g : Graph) : Nat := g.indexes.members.size

/-- How many edges there are. -/
def edgeCount (g : Graph) : Nat := g.edges.size

/-- How many packages have a type. -/
def packageCount (g : Graph) : Nat := g.indexes.byPackage.keyCount

end Graph

/-- A node or an edge that is to join a graph. -/
inductive Insertion where
  /-- A node. -/
  | node (node : Node)
  /-- An edge. -/
  | edge (edge : Edge)
  deriving Repr

namespace Graph

/-- The graph with one more node or edge. -/
def add (g : Graph) : Insertion → Except Error Graph
  | .node n => g.addNode n
  | .edge e => g.addEdge e

/-- The graph with more nodes and edges, one after the other; the first that is refused is the
error. -/
def addAll (g : Graph) (insertions : List Insertion) : Except Error Graph :=
  insertions.foldlM add g

end Graph

end RoleAudit
