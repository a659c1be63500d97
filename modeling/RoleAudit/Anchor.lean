import Std.Data.TreeSet
import RoleAudit.Graph.Query
import RoleAudit.Text.Affix

/-!
# Anchors

Where a type that is no interface stands towards the core of the application. It is an entry point
for the outside, or technical infrastructure, or else part of the domain and its application code.
The first test that holds decides: markers of entry points, markers of infrastructure, the package,
and the types of the fields.

A core class is domain code outside of tests that depends on an interface of the graph.
-/

namespace RoleAudit

/-- Where a type stands towards the core. -/
inductive Anchor where
  /-- An entry point that the outside calls. -/
  | driving
  /-- Technical infrastructure. -/
  | infrastructure
  /-- Domain and application code. -/
  | domain
  deriving DecidableEq, Repr, Inhabited

namespace Anchor

/-- The name of an anchor in reports. -/
def label : Anchor → String
  | driving => "DRIVING"
  | infrastructure => "INFRA"
  | domain => "DOMAIN"

/-- Markers of entry points. -/
def drivingMarkers : List String :=
  ["org.springframework.web.bind.annotation.RestController",
    "org.springframework.stereotype.Controller",
    "org.springframework.kafka.annotation.KafkaListener",
    "org.springframework.amqp.rabbit.annotation.RabbitListener",
    "org.springframework.jms.annotation.JmsListener",
    "org.springframework.scheduling.annotation.Scheduled",
    "jakarta.ws.rs.Path",
    "javax.ws.rs.Path"]

/-- Markers of infrastructure. -/
def infrastructureMarkers : List String :=
  ["org.springframework.stereotype.Repository",
    "org.springframework.data.mongodb.core.mapping.Document",
    "org.springframework.cloud.openfeign.FeignClient",
    "jakarta.persistence.Entity",
    "jakarta.persistence.Table",
    "jakarta.persistence.Embeddable",
    "javax.persistence.Entity",
    "javax.persistence.Table",
    "javax.persistence.Embeddable"]

/-- Types that only infrastructure has in its fields. -/
def infrastructureTypes : List String :=
  ["org.springframework.jdbc.core.JdbcTemplate",
    "org.springframework.jdbc.core.namedparam.NamedParameterJdbcTemplate",
    "jakarta.persistence.EntityManager",
    "javax.persistence.EntityManager",
    "org.springframework.web.client.RestTemplate",
    "org.springframework.web.reactive.function.client.WebClient",
    "org.springframework.kafka.core.KafkaTemplate",
    "org.springframework.amqp.rabbit.core.RabbitTemplate",
    "org.springframework.data.mongodb.core.MongoTemplate",
    "javax.sql.DataSource"]

/-- Beginnings of the names of such types. -/
def infrastructureTypeStarts : List String := ["feign.", "software.amazon.awssdk.", "io.grpc."]

/-- Package parts that say infrastructure. -/
def infrastructureSegments : List String := ["infrastructure", "infra", "adapter", "adapters"]

/-- Whether a package says infrastructure. -/
def isInfrastructurePackage (package : String) : Bool :=
  (Text.segments package).any infrastructureSegments.contains

/-- Whether a type is one that only infrastructure has in its fields. -/
def isInfrastructureType (name : String) : Bool :=
  infrastructureTypes.contains name || infrastructureTypeStarts.any (Text.startsWith · name)

/-- The anchor of a type. -/
def ofType (g : Graph) (t : TypeNode) : Anchor :=
  if t.annotations.any fun a => drivingMarkers.contains a.name then .driving
  else if t.annotations.any fun a => infrastructureMarkers.contains a.name then .infrastructure
  else if isInfrastructurePackage t.package then .infrastructure
  else if (g.fieldsOf t.id).any fun f => isInfrastructureType f.type.name then .infrastructure
  else .domain

end Anchor

/-- Whether a type is test code, by its package. -/
def TypeNode.isTestCode (t : TypeNode) : Bool :=
  Text.contains ".test." t.package || Text.endsWith ".test" t.package
    || Text.contains ".tests." t.package || Text.endsWith ".tests" t.package

/-- Whether a field or constructor parameter of a type is an interface of the graph. -/
def Graph.dependsOnInterface (g : Graph) (t : TypeNode) : Bool :=
  let fields := (g.fieldsOf t.id).map (·.type.name)
  let parameters := (g.constructorsOf t.id).flatMap fun c => c.parameters.map (·.type.name)
  (fields ++ parameters).any fun name => (g.type? (.ofType name)).any (·.isInterface)

/-- The anchors of a graph. -/
structure Anchors where
  /-- The anchor of every type that is no interface. -/
  anchors : Std.TreeMap NodeId Anchor := .empty
  /-- The core classes. -/
  coreClasses : Std.TreeSet NodeId := .empty

namespace Anchors

/-- No anchors at all. -/
def empty : Anchors := {}

/-- The anchor of a type. -/
def get? (a : Anchors) (id : NodeId) : Option Anchor := a.anchors.get? id

/-- Whether a type is domain code. -/
def isDomain (a : Anchors) (id : NodeId) : Bool := a.get? id = some .domain

/-- Whether a type is infrastructure. -/
def isInfrastructure (a : Anchors) (id : NodeId) : Bool := a.get? id = some .infrastructure

/-- Whether a type is an entry point. -/
def isDriving (a : Anchors) (id : NodeId) : Bool := a.get? id = some .driving

/-- Whether a type is a core class. -/
def isCore (a : Anchors) (id : NodeId) : Bool := a.coreClasses.contains id

/-- How many core classes there are. -/
def coreCount (a : Anchors) : Nat := a.coreClasses.size

/-- Whether a type is a core class, by its declaration. -/
def isCoreType (g : Graph) (t : TypeNode) : Bool :=
  !t.isInterface && Anchor.ofType g t = .domain && !t.isTestCode && g.dependsOnInterface t

/-- The anchors of a graph. -/
def ofGraph (g : Graph) : Anchors where
  anchors := (g.types.filter (!·.isInterface)).foldl
    (fun m t => m.insert t.id (Anchor.ofType g t)) .empty
  coreClasses := (g.types.filter (isCoreType g)).foldl (fun s t => s.insert t.id) .empty

end Anchors

end RoleAudit
