import UltimateBBSBox.Registry

/-!
# The manifest files of a catalog

What `load_document` yields for a file beneath a catalog root: a document of one
of the four kinds with a schema.  A document is known by its kind and its id, and
`Indexes` holds documents no two of which have both in common; it is
`ids_by_kind` of `ubb_schema.py` and `indexes` of `loader.py` alike.

An artifact is kept to its id: neither checker reads more of it.
-/

namespace UltimateBBSBox.Catalog

/-! ## Documents -/

/-- The keys of `SCHEMAS`. -/
inductive Kind | artifact | endpoint | service | integration
deriving DecidableEq, Repr

/-- The text of a kind. -/
def Kind.name : Kind → String
  | .artifact => "artifact"
  | .endpoint => "endpoint"
  | .service => "service"
  | .integration => "integration"

/-- A document that is valid for the schema of its kind. -/
inductive Document
  | artifact (id : String)
  | endpoint (endpoint : Endpoint)
  | service (service : Service)
  | integration (integration : Integration)
deriving DecidableEq

namespace Document

/-- `document["kind"]`. -/
def kind : Document → Kind
  | .artifact _ => .artifact
  | .endpoint _ => .endpoint
  | .service _ => .service
  | .integration _ => .integration

/-- `document["id"]`. -/
def id : Document → String
  | .artifact name => name
  | .endpoint document => document.id
  | .service document => document.id
  | .integration document => document.id

/-- The document as a service. -/
def service? : Document → Option Service
  | .service document => some document
  | _ => none

/-- The document as an endpoint. -/
def endpoint? : Document → Option Endpoint
  | .endpoint document => some document
  | _ => none

/-- The document as an integration. -/
def integration? : Document → Option Integration
  | .integration document => some document
  | _ => none

theorem service?_eq_some {document : Document} {service : Service} :
    document.service? = some service ↔ document = .service service := by
  cases document <;> simp [service?]

theorem endpoint?_eq_some {document : Document} {endpoint : Endpoint} :
    document.endpoint? = some endpoint ↔ document = .endpoint endpoint := by
  cases document <;> simp [endpoint?]

theorem integration?_eq_some {document : Document} {integration : Integration} :
    document.integration? = some integration ↔ document = .integration integration := by
  cases document <;> simp [integration?]

/-- What the schemas ask of the fields that the checkers read, beyond their types:
an endpoint has one of the listed types, and a reference is not empty. -/
def Conforms : Document → Prop
  | .artifact _ => True
  | .endpoint document => ∀ name, document.type ≠ .other name
  | .service document => document.endpointId ≠ "" ∧ document.integrationId ≠ some ""
  | .integration document => document.target ≠ ""

end Document

/-! ## Files -/

/-- A path beneath the catalog root, name by name. -/
abbrev Path := List String

/-- A file: its path, what `validation_errors` says of it, and the document it
holds where that is nothing. -/
structure File where
  path : Path
  validationErrors : List String
  document : Document
  conforms : validationErrors = [] → document.Conforms

/-- A document and the path it was read from. -/
structure Sourced where
  source : Path
  document : Document
deriving DecidableEq

/-- The file's document with its path. -/
def File.sourced (file : File) : Sourced := ⟨file.path, file.document⟩

/-! ## Documents by kind and id -/

/-- What a document is known by. -/
def Sourced.key (sourced : Sourced) : Kind × String := (sourced.document.kind, sourced.document.id)

/-- The documents seen so far, by kind and id. -/
abbrev Indexes := Index Sourced.key

namespace Indexes

/-- The indexed services. -/
def services (indexes : Indexes) : Index Service.id :=
  indexes.filterMap (fun sourced => sourced.document.service?) (by
    intro first second service service' h h' hid
    rw [Document.service?_eq_some] at h h'
    simpa [Sourced.key, h, h', Document.kind, Document.id] using hid)

/-- The indexed endpoints. -/
def endpoints (indexes : Indexes) : Index Endpoint.id :=
  indexes.filterMap (fun sourced => sourced.document.endpoint?) (by
    intro first second endpoint endpoint' h h' hid
    rw [Document.endpoint?_eq_some] at h h'
    simpa [Sourced.key, h, h', Document.kind, Document.id] using hid)

/-- The indexed integrations. -/
def integrations (indexes : Indexes) : Index Integration.id :=
  indexes.filterMap (fun sourced => sourced.document.integration?) (by
    intro first second integration integration' h h' hid
    rw [Document.integration?_eq_some] at h h'
    simpa [Sourced.key, h, h', Document.kind, Document.id] using hid)

variable {indexes : Indexes}

theorem mem_services {service : Service} :
    service ∈ indexes.services.values ↔
      ∃ sourced ∈ indexes.values, sourced.document = .service service := by
  simp [services, Index.filterMap, Document.service?_eq_some]

theorem mem_endpoints {endpoint : Endpoint} :
    endpoint ∈ indexes.endpoints.values ↔
      ∃ sourced ∈ indexes.values, sourced.document = .endpoint endpoint := by
  simp [endpoints, Index.filterMap, Document.endpoint?_eq_some]

theorem mem_integrations {integration : Integration} :
    integration ∈ indexes.integrations.values ↔
      ∃ sourced ∈ indexes.values, sourced.document = .integration integration := by
  simp [integrations, Index.filterMap, Document.integration?_eq_some]

end Indexes

end UltimateBBSBox.Catalog
