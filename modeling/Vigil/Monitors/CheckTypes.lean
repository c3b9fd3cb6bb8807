import Mathlib.Data.Nat.Notation

/-! The check types of `types/catalog.ts`, as far as their kind goes. -/

namespace Vigil.Monitors.CheckTypes

inductive CheckTypeKind where
  | active
  | passive
  | aggregate
  | manual
  deriving DecidableEq, Repr

def isScheduledKind (kind : CheckTypeKind) : Bool := kind = .active || kind = .passive

/-- An entry of the catalogue. -/
structure CheckTypeDescriptor where
  id : String
  kind : CheckTypeKind
  deriving DecidableEq, Repr

/-- `CHECK_TYPE_DESCRIPTORS`, in the order of the type selector. -/
def checkTypeDescriptors : List CheckTypeDescriptor :=
  [⟨"http", .active⟩, ⟨"tcp", .active⟩, ⟨"ping", .active⟩, ⟨"dns", .active⟩,
    ⟨"tls-expiry", .active⟩, ⟨"domain-expiry", .active⟩, ⟨"postgres", .active⟩,
    ⟨"mysql", .active⟩, ⟨"mongodb", .active⟩, ⟨"redis", .active⟩, ⟨"docker", .active⟩,
    ⟨"mqtt", .active⟩, ⟨"smtp", .active⟩, ⟨"json-query", .active⟩, ⟨"push", .passive⟩,
    ⟨"group", .aggregate⟩, ⟨"manual", .manual⟩, ⟨"sqlserver", .active⟩, ⟨"oracledb", .active⟩,
    ⟨"memcached", .active⟩, ⟨"elasticsearch", .active⟩, ⟨"rabbitmq", .active⟩,
    ⟨"kafka-producer", .active⟩, ⟨"udp", .active⟩, ⟨"ntp", .active⟩, ⟨"radius", .active⟩,
    ⟨"imap", .active⟩, ⟨"ftp", .active⟩, ⟨"ldap", .active⟩, ⟨"ssh", .active⟩,
    ⟨"websocket", .active⟩, ⟨"grpc", .active⟩, ⟨"gamedig", .active⟩, ⟨"steam", .active⟩,
    ⟨"snmp", .active⟩, ⟨"system-service", .active⟩, ⟨"sip", .active⟩,
    ⟨"tailscale-ping", .active⟩, ⟨"real-browser", .active⟩, ⟨"globalping", .active⟩]

/-- The entry of a check type. -/
def findDescriptor (id : String) : Option CheckTypeDescriptor :=
  checkTypeDescriptors.find? fun descriptor => descriptor.id = id

/-- A type that this build does not know is taken for an active one. -/
def unknownDescriptor (id : String) : CheckTypeDescriptor := ⟨id, .active⟩

def describeCheckType (id : String) : CheckTypeDescriptor :=
  (findDescriptor id).getD (unknownDescriptor id)

def checkTypeKind (id : String) : CheckTypeKind := (describeCheckType id).kind

/-- Whether `findSpec` finds the type; the registry of the specs has the ids of the catalog. -/
def hasSpec (id : String) : Bool := (findDescriptor id).isSome

end Vigil.Monitors.CheckTypes
