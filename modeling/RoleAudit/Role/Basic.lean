import RoleAudit.Error
import RoleAudit.Json.Decoder
import RoleAudit.Text.Affix
import RoleAudit.Text.Blank

/-!
# Roles

The part that a type plays in an architecture: in the model of the domain, as a port between the
application and the outside, or as a carrier of data across a port. A port is driving when the
outside calls the application through it, and driven when the application calls the outside.
-/

namespace RoleAudit

/-- The three groups of roles. -/
inductive Family where
  /-- Roles in the model of the domain. -/
  | domain
  /-- Roles of ports. -/
  | port
  /-- Roles of data carriers. -/
  | model
  deriving DecidableEq, Repr, Inhabited

namespace Family

/-- The name of a family in reports. -/
def label : Family → String
  | domain => "DOMAIN"
  | port => "PORT"
  | model => "MODEL"

/-- Every family. -/
def all : List Family := [domain, port, model]

/-- A family as JSON. -/
def toJson (f : Family) : Json := .string f.label

/-- Reads a family. -/
def decode : Json.Decoder Family := Json.decodeLabel all label

end Family

/-- Who calls whom through a port. -/
inductive Direction where
  /-- The outside calls the application. -/
  | driving
  /-- The application calls the outside. -/
  | driven
  deriving DecidableEq, Repr, Inhabited

namespace Direction

/-- The name of a direction in reports. -/
def label : Direction → String
  | driving => "DRIVING"
  | driven => "DRIVEN"

/-- Every direction. -/
def all : List Direction := [driving, driven]

/-- A direction as JSON. -/
def toJson (d : Direction) : Json := .string d.label

/-- Reads a direction. -/
def decode : Json.Decoder Direction := Json.decodeLabel all label

end Direction

/-- The part that a type plays. -/
inductive Role where
  /-- The entity through which a cluster of objects is reached. -/
  | aggregateRoot
  /-- An object with an identity. -/
  | entity
  /-- An object that is its values. -/
  | valueObject
  /-- The identity of an object. -/
  | identifier
  /-- Something that happened in the domain. -/
  | domainEvent
  /-- An operation of the domain. -/
  | domainService
  /-- A driving port for a use of the application. -/
  | useCase
  /-- A driving port that changes something. -/
  | command
  /-- A driving port that reads something. -/
  | query
  /-- A driven port that keeps objects. -/
  | repository
  /-- A driven port to another system. -/
  | gateway
  /-- A driven port that announces events. -/
  | eventPublisher
  /-- A driven port of no special sort. -/
  | drivenPort
  /-- Data that goes into a command. -/
  | commandModel
  /-- Data that goes into a query. -/
  | queryModel
  /-- Data on its way across a port. -/
  | dto
  deriving DecidableEq, Repr, Inhabited

namespace Role

/-- Every role, domain first, then ports, then data. -/
def all : List Role :=
  [aggregateRoot, entity, valueObject, identifier, domainEvent, domainService,
    useCase, command, query, repository, gateway, eventPublisher, drivenPort,
    commandModel, queryModel, dto]

/-- The name of a role in settings and reports. -/
def label : Role → String
  | aggregateRoot => "AGGREGATE_ROOT"
  | entity => "ENTITY"
  | valueObject => "VALUE_OBJECT"
  | identifier => "IDENTIFIER"
  | domainEvent => "DOMAIN_EVENT"
  | domainService => "DOMAIN_SERVICE"
  | useCase => "USE_CASE"
  | command => "COMMAND"
  | query => "QUERY"
  | repository => "REPOSITORY"
  | gateway => "GATEWAY"
  | eventPublisher => "EVENT_PUBLISHER"
  | drivenPort => "DRIVEN_PORT"
  | commandModel => "COMMAND_MODEL"
  | queryModel => "QUERY_MODEL"
  | dto => "DTO"

/-- The family of a role. -/
def family : Role → Family
  | aggregateRoot | entity | valueObject | identifier | domainEvent | domainService => .domain
  | useCase | command | query | repository | gateway | eventPublisher | drivenPort => .port
  | commandModel | queryModel | dto => .model

/-- The direction of a port; other roles have none. -/
def direction? : Role → Option Direction
  | useCase | command | query => some .driving
  | repository | gateway | eventPublisher | drivenPort => some .driven
  | _ => none

/-- Whether two roles can be those of one type without contradiction. A root is an entity, an
identifier is a value object, driving ports may be several things at once, and a driven port of a
special sort is a driven port. -/
def isCompatibleWith (a b : Role) : Bool :=
  a = b ||
    match a, b with
    | aggregateRoot, entity | entity, aggregateRoot => true
    | valueObject, identifier | identifier, valueObject => true
    | a, b =>
      match a.direction?, b.direction? with
      | some .driving, some .driving => true
      | some .driven, some .driven => a = drivenPort || b = drivenPort
      | _, _ => false

/-- The name in lower case with hyphens, as names of criteria have it. -/
def hyphenated (r : Role) : String :=
  String.ofList ((Text.toLowerAscii r.label).toList.map fun c => if c = '_' then '-' else c)

/-- The spelling that is looked up for a text: no white space around it, Latin capitals, and
underscores for hyphens and blanks. -/
def normalized (text : String) : String :=
  String.ofList
    ((Text.toUpperAscii (Text.trim text)).toList.map fun c => if c = '-' || c = ' ' then '_' else c)

/-- The role that a text names. -/
def ofText (text : String) : Except Error Role :=
  match all.find? (·.label = normalized text) with
  | some r => .ok r
  | none => .error (.unknownRole text)

/-- A role as JSON. -/
def toJson (r : Role) : Json := .string r.label

/-- Reads a role off its exact name. -/
def decode : Json.Decoder Role := Json.decodeLabel all label

end Role

end RoleAudit
