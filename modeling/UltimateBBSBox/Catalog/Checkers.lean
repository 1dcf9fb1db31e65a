import UltimateBBSBox.Catalog.Manifests

/-!
# The two catalog checkers

`load_registry` of `loader.py` raises at the first problem; `cross_reference_errors`
of `ubb_schema.py` goes through all documents and lists every problem against the
first declaration of each id.

The texts of the problems are kept.  `repr` stands for the language's quoting of a
text, and `str` for the text of a path.
-/

namespace UltimateBBSBox.Catalog

variable (repr : String → String) (str : Path → String)

/-! ## `loader.py` -/

/-- `KIND_DIRECTORIES`. -/
def kindDirectory : Kind → Option String
  | .service => some "services"
  | .endpoint => some "endpoints"
  | .integration => some "integrations"
  | .artifact => none

/-- Whether the directory is among the parents of the path. -/
def Path.beneath (path : Path) (directory : String) : Bool :=
  match path with
  | first :: _ :: _ => first = directory
  | _ => false

/-- Whether `rglob` finds the path beneath the directory by the suffix of its name. -/
def Path.globbed (path : Path) (directory suffix : String) : Bool :=
  Path.beneath path directory &&
    (path.getLast?.any fun name => suffix.toList.isSuffixOf name.toList)

/-- `_paths`: the manifest files of a tree, in the order of their paths. -/
def manifestFiles (tree : List File) : List File :=
  (["services", "endpoints", "integrations"].flatMap fun directory =>
    [".yml", ".yaml"].flatMap fun suffix =>
      tree.filter fun file => Path.globbed file.path directory suffix).insertionSort
    fun first second => first.path ≤ second.path

/-- One round of the loop of `load_registry`. -/
def loadDocument (indexes : Indexes) (file : File) : Except RegistryError Indexes := do
  if file.validationErrors ≠ [] then
    let errors := String.intercalate "; " file.validationErrors
    throw ⟨.invalidManifestError, s!"{str file.path}: {errors}"⟩
  let kind := file.document.kind
  match kindDirectory kind with
  | none =>
      throw ⟨.invalidManifestError,
        s!"{str file.path}: {repr kind.name} is not a registry kind"⟩
  | some directory =>
      if !Path.beneath file.path directory then
        throw ⟨.invalidManifestError,
          s!"{str file.path}: {kind.name} belongs under {directory}/"⟩
      match indexes.add file.sourced with
      | .error first =>
          throw ⟨.duplicateIdError,
            s!"duplicate {kind.name} id {repr file.document.id}: " ++
              s!"{str first.source} and {str file.path}"⟩
      | .ok indexes => return indexes

/-- The loop of `load_registry`. -/
def loadDocuments (indexes : Indexes) : List File → Except RegistryError Indexes
  | [] => return indexes
  | file :: rest => do
      let indexes ← loadDocument repr str indexes file
      loadDocuments indexes rest

/-- The endpoint of a service, in `_validate_references`. -/
def validateEndpoint (registry : Registry) (service : Service) : Except RegistryError Unit :=
  if (registry.endpoints.get? service.endpointId).isNone then
    .error ⟨.unknownReferenceError,
      s!"service {repr service.id} references unknown endpoint {repr service.endpointId}"⟩
  else .ok ()

/-- The integration a service names, in `_validate_references`. -/
def validateIntegration (registry : Registry) (service : Service) : Except RegistryError Unit :=
  match service.integrationId with
  | none | some "" => .ok ()
  | some integrationId =>
      match registry.integrations.get? integrationId with
      | none =>
          .error ⟨.unknownReferenceError, s!"service {repr service.id} references unknown " ++
            s!"integration {repr integrationId}"⟩
      | some integration =>
          if integration.target ≠ service.id then
            .error ⟨.unknownReferenceError,
              s!"service {repr service.id} references integration {repr integration.id} " ++
                s!"targeting {repr integration.target}"⟩
          else .ok ()

/-- A `via_bbs` reference, in `_validate_references`. -/
def validateViaBbs (registry : Registry) (service : Service) (bbsId : String) :
    Except RegistryError Unit :=
  match registry.find? bbsId with
  | none =>
      .error ⟨.unknownReferenceError,
        s!"service {repr service.id} has unknown via_bbs reference {repr bbsId}"⟩
  | some bbs =>
      if bbs.type ≠ .bbs then
        .error ⟨.unknownReferenceError,
          s!"service {repr service.id} via_bbs reference {repr bbsId} is not a BBS"⟩
      else .ok ()

/-- The checks of one service, in `_validate_references`. -/
def validateService (registry : Registry) (service : Service) : Except RegistryError Unit := do
  validateEndpoint repr registry service
  validateIntegration repr registry service
  (service.exposure.viaBbs.getD []).forM (validateViaBbs repr registry service)

/-- The check of one integration, in `_validate_references`. -/
def validateTarget (registry : Registry) (integration : Integration) : Except RegistryError Unit :=
  if (registry.find? integration.target).isNone then
    .error ⟨.unknownReferenceError,
      s!"integration {repr integration.id} targets unknown service {repr integration.target}"⟩
  else .ok ()

/-- `_validate_references`. -/
def validateReferences (registry : Registry) : Except RegistryError Unit := do
  registry.services.forM (validateService repr registry)
  registry.integrations.values.forM (validateTarget repr registry)

/-- `load_registry`; `root` is the text of the root. -/
def loadRegistry (root : String) (tree : List File) : Except RegistryError Registry :=
  if manifestFiles tree = [] then
    .error ⟨.invalidManifestError, s!"no registry manifests found beneath {root}"⟩
  else do
    let indexes ← loadDocuments repr str ∅ (manifestFiles tree)
    let registry := Registry.create indexes.services indexes.endpoints indexes.integrations
    validateReferences repr registry
    return registry

/-! ## `cross_reference_errors` -/

/-- The text of a clash: the document that has the id and the one declared later. -/
def duplicateError (clash : Sourced × Sourced) : String :=
  s!"{str clash.2.source}: duplicate {clash.2.document.kind.name} id " ++
    s!"{repr clash.2.document.id}; first declared in {str clash.1.source}"

/-- The integration a service names, against the first declarations. -/
def integrationErrors (indexes : Indexes) (path : Path) (service : Service) : List String :=
  match service.integrationId with
  | none | some "" => []
  | some integrationId =>
      match indexes.integrations.get? integrationId with
      | none => [s!"{str path}: integration {repr integrationId} is not declared"]
      | some integration =>
          if integration.target ≠ service.id then
            [s!"{str path}: integration {repr integrationId} targets {repr integration.target}, " ++
              "not this service"]
          else []

/-- A `via_bbs` reference, against the first declarations. -/
def viaBbsErrors (indexes : Indexes) (path : Path) (bbsId : String) : List String :=
  match indexes.services.get? bbsId with
  | none => [s!"{str path}: via_bbs target {repr bbsId} is not declared"]
  | some bbs =>
      if bbs.type ≠ .bbs then
        [s!"{str path}: via_bbs target {repr bbsId} is not a BBS service"]
      else []

/-- The endpoint of a service, against the first declarations. -/
def endpointErrors (indexes : Indexes) (path : Path) (service : Service) : List String :=
  if (indexes.endpoints.get? service.endpointId).isNone then
    [s!"{str path}: endpoint {repr service.endpointId} is not declared"]
  else []

/-- The references of a service, against the first declarations. -/
def serviceErrors (indexes : Indexes) (path : Path) (service : Service) : List String :=
  endpointErrors repr str indexes path service ++
  integrationErrors repr str indexes path service ++
  (service.exposure.viaBbs.getD []).flatMap (viaBbsErrors repr str indexes path)

/-- The references of a document, against the first declarations. -/
def referenceErrors (indexes : Indexes) (sourced : Sourced) : List String :=
  match sourced.document with
  | .service service => serviceErrors repr str indexes sourced.source service
  | .integration integration =>
      if (indexes.services.get? integration.target).isNone then
        [s!"{str sourced.source}: integration target {repr integration.target} " ++
          "is not a declared service"]
      else []
  | _ => []

/-- `cross_reference_errors` over documents that load and have an id. -/
def crossReferenceErrors (documents : List Sourced) : List String :=
  let (indexes, clashes) := (∅ : Indexes).collect documents
  clashes.map (duplicateError repr str) ++
    documents.flatMap (referenceErrors repr str indexes)

end UltimateBBSBox.Catalog
