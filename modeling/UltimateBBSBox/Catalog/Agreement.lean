import UltimateBBSBox.Library.Check
import UltimateBBSBox.Catalog.Checkers

/-!
# The two checkers agree

Both checkers decide the same thing: whether a set of documents is coherent.  No
two documents have their kind and id in common, and every reference of a document
reaches a declared one of the right sort (`Coherent`).  Nothing in it depends on
an order, so the loader, which sorts the paths, and the cross-reference check,
which takes them as they come, are compared through it:

* `loadRegistry_ok_iff` reads the loader's first problem as a failure of
  coherence;
* `crossReferenceErrors_eq_nil_iff` reads the list of problems as one.

Duplicates are settled first.  Where there are none, the indexes of both checkers
hold all documents, and a lookup is a question about what is declared.
-/

namespace UltimateBBSBox.Catalog

/-! ## Coherent documents -/

/-- The document is among the declared ones. -/
def Declares (documents : List Sourced) (document : Document) : Prop :=
  ∃ sourced ∈ documents, sourced.document = document

/-- The endpoint of a service is declared. -/
def EndpointLinked (documents : List Sourced) (service : Service) : Prop :=
  ∃ endpoint, Declares documents (.endpoint endpoint) ∧ endpoint.id = service.endpointId

/-- The integration a service names is declared and targets the service. -/
def IntegrationLinked (documents : List Sourced) (service : Service) : Prop :=
  ∀ id, service.integrationId = some id → id ≠ "" → ∃ integration,
    Declares documents (.integration integration) ∧ integration.id = id ∧
      integration.target = service.id

/-- The id is that of a declared bulletin board. -/
def BbsLinked (documents : List Sourced) (id : String) : Prop :=
  ∃ bbs, Declares documents (.service bbs) ∧ bbs.id = id ∧ bbs.type = .bbs

/-- The target of an integration is declared. -/
def TargetLinked (documents : List Sourced) (integration : Integration) : Prop :=
  ∃ service, Declares documents (.service service) ∧ service.id = integration.target

/-- The references of a service reach declared documents. -/
structure ServiceLinked (documents : List Sourced) (service : Service) : Prop where
  endpoint : EndpointLinked documents service
  integration : IntegrationLinked documents service
  viaBbs : ∀ id ∈ service.exposure.viaBbs.getD [], BbsLinked documents id

/-- The references of a document reach declared documents. -/
def Linked (documents : List Sourced) : Document → Prop
  | .service service => ServiceLinked documents service
  | .integration integration => TargetLinked documents integration
  | _ => True

/-- No kind and id occur twice, and every reference reaches a declared document. -/
structure Coherent (documents : List Sourced) : Prop where
  distinct : (documents.map Sourced.key).Nodup
  linked : ∀ sourced ∈ documents, Linked documents sourced.document

section Order

variable {documents documents' : List Sourced} (hperm : documents.Perm documents')
include hperm

theorem Declares.perm {document : Document} (h : Declares documents document) :
    Declares documents' document := by
  obtain ⟨sourced, hmem, hdocument⟩ := h
  exact ⟨sourced, hperm.mem_iff.mp hmem, hdocument⟩

theorem Linked.perm {document : Document} (h : Linked documents document) :
    Linked documents' document := by
  cases document with
  | artifact id => trivial
  | endpoint endpoint => trivial
  | integration integration =>
      obtain ⟨service, hservice, hid⟩ := h
      exact ⟨service, hservice.perm hperm, hid⟩
  | service service =>
      constructor
      · obtain ⟨endpoint, hendpoint, hid⟩ := h.endpoint
        exact ⟨endpoint, hendpoint.perm hperm, hid⟩
      · intro id hsome hne
        obtain ⟨integration, hintegration, hid, htarget⟩ := h.integration id hsome hne
        exact ⟨integration, hintegration.perm hperm, hid, htarget⟩
      · intro id hmem
        obtain ⟨bbs, hbbs, hid, htype⟩ := h.viaBbs id hmem
        exact ⟨bbs, hbbs.perm hperm, hid, htype⟩

/-- Coherence does not depend on the order of the documents. -/
theorem Coherent.perm (h : Coherent documents) : Coherent documents' where
  distinct := (hperm.map Sourced.key).nodup_iff.mp h.distinct
  linked sourced hmem := (h.linked sourced (hperm.mem_iff.mpr hmem)).perm hperm

end Order

/-! ## Lookups -/

section Lookups

variable {indexes : Indexes} {id : String}

theorem get?_services_eq_some {service : Service} :
    indexes.services.get? id = some service ↔
      Declares indexes.values (.service service) ∧ service.id = id := by
  rw [Index.get?_eq_some_iff, Indexes.mem_services, Declares]

theorem get?_endpoints_eq_some {endpoint : Endpoint} :
    indexes.endpoints.get? id = some endpoint ↔
      Declares indexes.values (.endpoint endpoint) ∧ endpoint.id = id := by
  rw [Index.get?_eq_some_iff, Indexes.mem_endpoints, Declares]

theorem get?_integrations_eq_some {integration : Integration} :
    indexes.integrations.get? id = some integration ↔
      Declares indexes.values (.integration integration) ∧ integration.id = id := by
  rw [Index.get?_eq_some_iff, Indexes.mem_integrations, Declares]

theorem isNone_get?_services {service? : Option Service} (h : indexes.services.get? id = service?) :
    ¬service?.isNone ↔ ∃ service, Declares indexes.values (.service service) ∧ service.id = id := by
  rw [← h, Option.isNone_iff_eq_none, ← ne_eq, Option.ne_none_iff_exists']
  exact exists_congr fun _ => get?_services_eq_some

theorem isNone_get?_endpoints {endpoint? : Option Endpoint}
    (h : indexes.endpoints.get? id = endpoint?) :
    ¬endpoint?.isNone ↔
      ∃ endpoint, Declares indexes.values (.endpoint endpoint) ∧ endpoint.id = id := by
  rw [← h, Option.isNone_iff_eq_none, ← ne_eq, Option.ne_none_iff_exists']
  exact exists_congr fun _ => get?_endpoints_eq_some

/-- No integration named: nothing to reach. -/
theorem integrationLinked_of_none {documents : List Sourced} {service : Service}
    (h : service.integrationId = none ∨ service.integrationId = some "") :
    IntegrationLinked documents service := by
  intro id hid hne
  rcases h with h | h <;> rw [h] at hid
  · cases hid
  · exact absurd (Option.some.inj hid).symm hne

/-- An integration named: it is the one the index has. -/
theorem integrationLinked_iff_get? {service : Service} (hid : service.integrationId = some id)
    (hne : id ≠ "") :
    IntegrationLinked indexes.values service ↔
      ∃ integration, indexes.integrations.get? id = some integration ∧
        integration.target = service.id := by
  constructor
  · intro h
    obtain ⟨integration, hdeclared, hkey, htarget⟩ := h id hid hne
    exact ⟨integration, get?_integrations_eq_some.mpr ⟨hdeclared, hkey⟩, htarget⟩
  · rintro ⟨integration, hget, htarget⟩ id' hid' _
    obtain rfl : id = id' := Option.some.inj (hid.symm.trans hid')
    obtain ⟨hdeclared, hkey⟩ := get?_integrations_eq_some.mp hget
    exact ⟨integration, hdeclared, hkey, htarget⟩

/-- A bulletin board is the service the index has. -/
theorem bbsLinked_iff_get? :
    BbsLinked indexes.values id ↔
      ∃ bbs, indexes.services.get? id = some bbs ∧ bbs.type = .bbs := by
  constructor
  · rintro ⟨bbs, hdeclared, hkey, htype⟩
    exact ⟨bbs, get?_services_eq_some.mpr ⟨hdeclared, hkey⟩, htype⟩
  · rintro ⟨bbs, hget, htype⟩
    obtain ⟨hdeclared, hkey⟩ := get?_services_eq_some.mp hget
    exact ⟨bbs, hdeclared, hkey, htype⟩

end Lookups

/-! ## The cross-reference check -/

section CrossReferences

variable {repr : String → String} {str : Path → String} {indexes : Indexes} {path : Path}

theorem integrationErrors_eq_nil_iff {service : Service} :
    integrationErrors repr str indexes path service = [] ↔
      IntegrationLinked indexes.values service := by
  unfold integrationErrors
  split
  · rename_i hid
    exact iff_of_true rfl (integrationLinked_of_none (.inl hid))
  · rename_i hid
    exact iff_of_true rfl (integrationLinked_of_none (.inr hid))
  · rename_i id hne hid
    rw [integrationLinked_iff_get? hid (by simpa using hne)]
    cases hget : indexes.integrations.get? id with
    | none => simp
    | some integration => simp

theorem viaBbsErrors_eq_nil_iff {id : String} :
    viaBbsErrors repr str indexes path id = [] ↔ BbsLinked indexes.values id := by
  rw [bbsLinked_iff_get?]
  unfold viaBbsErrors
  cases hget : indexes.services.get? id with
  | none => simp
  | some bbs => simp

theorem endpointErrors_eq_nil_iff {service : Service} :
    endpointErrors repr str indexes path service = [] ↔ EndpointLinked indexes.values service := by
  rw [EndpointLinked, ← isNone_get?_endpoints rfl]
  unfold endpointErrors
  split <;> simp_all

theorem serviceErrors_eq_nil_iff {service : Service} :
    serviceErrors repr str indexes path service = [] ↔
      ServiceLinked indexes.values service := by
  unfold serviceErrors
  simp only [List.append_eq_nil_iff, List.flatMap_eq_nil_iff, endpointErrors_eq_nil_iff,
    integrationErrors_eq_nil_iff, viaBbsErrors_eq_nil_iff]
  constructor
  · rintro ⟨⟨hendpoint, hintegration⟩, hbbs⟩
    exact ⟨hendpoint, hintegration, hbbs⟩
  · rintro ⟨hendpoint, hintegration, hbbs⟩
    exact ⟨⟨hendpoint, hintegration⟩, hbbs⟩

/-- The reference errors of a document are none when its references reach the
first declarations. -/
theorem referenceErrors_eq_nil_iff {sourced : Sourced} :
    referenceErrors repr str indexes sourced = [] ↔ Linked indexes.values sourced.document := by
  unfold referenceErrors
  cases sourced.document with
  | artifact id => simp [Linked]
  | endpoint endpoint => simp [Linked]
  | service service => exact serviceErrors_eq_nil_iff
  | integration integration =>
      simp only [Linked, TargetLinked]
      rw [← isNone_get?_services rfl]
      split <;> simp_all

/-- **The cross-reference check decides coherence.** -/
theorem crossReferenceErrors_eq_nil_iff {documents : List Sourced} :
    crossReferenceErrors repr str documents = [] ↔ Coherent documents := by
  have hdistinct := Index.addAll_ok_iff (∅ : Index Sourced.key) documents
  rw [Index.values_empty, List.nil_append] at hdistinct
  unfold crossReferenceErrors
  simp only [List.append_eq_nil_iff, List.map_eq_nil_iff, List.flatMap_eq_nil_iff,
    referenceErrors_eq_nil_iff]
  constructor
  · rintro ⟨hnil, hlinked⟩
    have hadd := Index.collect_eq_iff.mp (Prod.ext rfl hnil)
    have hvalues := Index.addAll_values hadd
    rw [Index.values_empty, List.nil_append] at hvalues
    rw [hvalues] at hlinked
    exact ⟨hdistinct.mp ⟨_, hadd⟩, hlinked⟩
  · intro hcoherent
    obtain ⟨final, hadd⟩ := hdistinct.mpr hcoherent.distinct
    have hvalues := Index.addAll_values hadd
    rw [Index.values_empty, List.nil_append] at hvalues
    rw [Index.collect_eq_iff.mpr hadd]
    exact ⟨rfl, hvalues ▸ hcoherent.linked⟩

end CrossReferences

/-! ## The loader -/

/-- The file holds a document of a registry kind under the directory of that kind. -/
def File.Placed (file : File) : Prop :=
  ∃ directory, kindDirectory file.document.kind = some directory ∧
    Path.beneath file.path directory

/-- The manifest files of a tree are valid and in place. -/
def Admissible (files : List File) : Prop :=
  ∀ file ∈ files, file.validationErrors = [] ∧ file.Placed

section Loader

variable {repr : String → String} {str : Path → String}

theorem mem_of_mem_manifestFiles {tree : List File} {file : File} (h : file ∈ manifestFiles tree) :
    file ∈ tree := by
  rw [manifestFiles, List.mem_insertionSort] at h
  simp only [List.mem_flatMap, List.mem_filter] at h
  obtain ⟨_, _, _, _, hmem, _⟩ := h
  exact hmem

theorem loadDocument_eq_ok_iff {indexes final : Indexes} {file : File}
    (hvalid : file.validationErrors = []) (hplaced : file.Placed) :
    loadDocument repr str indexes file = .ok final ↔ indexes.add file.sourced = .ok final := by
  obtain ⟨directory, hdirectory, hbeneath⟩ := hplaced
  unfold loadDocument
  simp only [hvalid, hdirectory, hbeneath, ne_eq, not_true_eq_false, if_false, Bool.not_true,
    Bool.false_eq_true]
  cases indexes.add file.sourced with
  | error first => simp [Except.throw_ne_ok]
  | ok indexes' => simp [Except.pure_eq_ok]

/-- Over valid files in place, the loading loop adds the documents to the index. -/
theorem loadDocuments_eq_ok_iff {indexes final : Indexes} {files : List File}
    (h : Admissible files) :
    loadDocuments repr str indexes files = .ok final ↔
      indexes.addAll (files.map File.sourced) = .ok final := by
  induction files generalizing indexes with
  | nil => simp [loadDocuments, Index.addAll, Except.pure_eq_ok]
  | cons file rest ih =>
      obtain ⟨hvalid, hplaced⟩ := h file (List.mem_cons_self ..)
      have hrest : Admissible rest := fun other hmem => h other (List.mem_cons_of_mem _ hmem)
      rw [loadDocuments, Except.bind_eq_ok, List.map_cons, Index.addAll]
      simp only [loadDocument_eq_ok_iff hvalid hplaced, ih hrest]
      cases indexes.add file.sourced with
      | error first => simp
      | ok indexes' => simp

/-- The registry of the indexes. -/
abbrev Indexes.registry (indexes : Indexes) : Registry :=
  Registry.create indexes.services indexes.endpoints indexes.integrations

variable {indexes : Indexes}

theorem find?_registry (id : String) : indexes.registry.find? id = indexes.services.get? id :=
  Index.get?_sorted _ id

theorem get?_registry_endpoints (id : String) :
    indexes.registry.endpoints.get? id = indexes.endpoints.get? id := by
  simp [Indexes.registry, Registry.create, Index.get?_sorted]

theorem get?_registry_integrations (id : String) :
    indexes.registry.integrations.get? id = indexes.integrations.get? id := by
  simp [Indexes.registry, Registry.create, Index.get?_sorted]

theorem mem_registry_services {service : Service} :
    service ∈ indexes.registry.services ↔ Declares indexes.values (.service service) := by
  rw [Indexes.registry, Registry.create, Index.mem_sorted, Indexes.mem_services, Declares]

theorem mem_registry_integrations {integration : Integration} :
    integration ∈ indexes.registry.integrations.values ↔
      Declares indexes.values (.integration integration) := by
  rw [Indexes.registry, Registry.create, Index.values_toDict, Index.mem_sorted,
    Indexes.mem_integrations, Declares]

theorem validateIntegration_eq_ok_iff {service : Service} :
    validateIntegration repr indexes.registry service = .ok () ↔
      IntegrationLinked indexes.values service := by
  unfold validateIntegration
  split
  · rename_i hid
    exact iff_of_true rfl (integrationLinked_of_none (.inl hid))
  · rename_i hid
    exact iff_of_true rfl (integrationLinked_of_none (.inr hid))
  · rename_i id hne hid
    rw [integrationLinked_iff_get? hid (by simpa using hne), get?_registry_integrations]
    cases hget : indexes.integrations.get? id with
    | none => simp
    | some integration => simp

theorem validateViaBbs_eq_ok_iff {service : Service} {id : String} :
    validateViaBbs repr indexes.registry service id = .ok () ↔ BbsLinked indexes.values id := by
  rw [bbsLinked_iff_get?]
  unfold validateViaBbs
  rw [find?_registry]
  cases hget : indexes.services.get? id with
  | none => simp
  | some bbs => simp

theorem validateEndpoint_eq_ok_iff {service : Service} :
    validateEndpoint repr indexes.registry service = .ok () ↔
      EndpointLinked indexes.values service := by
  unfold validateEndpoint
  rw [EndpointLinked, ← isNone_get?_endpoints rfl, get?_registry_endpoints]
  split <;> simp_all

theorem validateService_eq_ok_iff {service : Service} :
    validateService repr indexes.registry service = .ok () ↔
      ServiceLinked indexes.values service := by
  unfold validateService
  simp only [Except.check_bind_eq_ok, Except.forM_eq_ok, validateEndpoint_eq_ok_iff,
    validateIntegration_eq_ok_iff, validateViaBbs_eq_ok_iff]
  constructor
  · rintro ⟨hendpoint, hintegration, hbbs⟩
    exact ⟨hendpoint, hintegration, hbbs⟩
  · rintro ⟨hendpoint, hintegration, hbbs⟩
    exact ⟨hendpoint, hintegration, hbbs⟩

theorem validateTarget_eq_ok_iff {integration : Integration} :
    validateTarget repr indexes.registry integration = .ok () ↔
      TargetLinked indexes.values integration := by
  unfold validateTarget
  rw [TargetLinked, ← isNone_get?_services rfl, find?_registry]
  split <;> simp_all

/-- The reference check goes through when every indexed document is linked. -/
theorem validateReferences_eq_ok_iff :
    validateReferences repr indexes.registry = .ok () ↔
      ∀ sourced ∈ indexes.values, Linked indexes.values sourced.document := by
  unfold validateReferences
  simp only [Except.check_bind_eq_ok, Except.forM_eq_ok, mem_registry_services,
    mem_registry_integrations, validateService_eq_ok_iff, validateTarget_eq_ok_iff]
  constructor
  · rintro ⟨hservices, hintegrations⟩ sourced hmem
    cases hdocument : sourced.document with
    | artifact id => trivial
    | endpoint endpoint => trivial
    | service service => exact hservices service ⟨sourced, hmem, hdocument⟩
    | integration integration => exact hintegrations integration ⟨sourced, hmem, hdocument⟩
  · intro h
    refine ⟨?_, ?_⟩
    · rintro service ⟨sourced, hmem, hdocument⟩
      have hlinked := h sourced hmem
      rwa [hdocument] at hlinked
    · rintro integration ⟨sourced, hmem, hdocument⟩
      have hlinked := h sourced hmem
      rwa [hdocument] at hlinked

/-- **The loader decides coherence**, and what it loads is the registry of an index
that holds the documents of the files. -/
theorem loadRegistry_eq_ok_iff {root : String} {tree : List File} {registry : Registry}
    (hne : manifestFiles tree ≠ []) (hadmissible : Admissible (manifestFiles tree)) :
    loadRegistry repr str root tree = .ok registry ↔
      Coherent ((manifestFiles tree).map File.sourced) ∧
        ∃ indexes : Indexes, indexes.values = (manifestFiles tree).map File.sourced ∧
          indexes.registry = registry := by
  have hdistinct := Index.addAll_ok_iff (∅ : Index Sourced.key)
    ((manifestFiles tree).map File.sourced)
  rw [Index.values_empty, List.nil_append] at hdistinct
  unfold loadRegistry
  rw [if_neg hne]
  simp only [Except.bind_eq_ok, loadDocuments_eq_ok_iff hadmissible, Except.pure_eq_ok]
  constructor
  · rintro ⟨indexes, hadd, _, hreferences, hregistry⟩
    have hvalues := Index.addAll_values hadd
    rw [Index.values_empty, List.nil_append] at hvalues
    refine ⟨⟨hdistinct.mp ⟨_, hadd⟩, ?_⟩, indexes, hvalues, hregistry⟩
    rw [← hvalues]
    exact validateReferences_eq_ok_iff.mp hreferences
  · rintro ⟨hcoherent, indexes, hvalues, hregistry⟩
    obtain ⟨final, hadd⟩ := hdistinct.mpr hcoherent.distinct
    obtain rfl : final = indexes := by
      apply Index.ext
      rw [Index.addAll_values hadd, hvalues, Index.values_empty, List.nil_append]
    refine ⟨final, hadd, (), validateReferences_eq_ok_iff.mpr ?_, hregistry⟩
    rw [hvalues]
    exact hcoherent.linked

end Loader

/-! ## What a loaded registry answers -/

section Answers

variable {indexes : Indexes} (hconforms : ∀ sourced ∈ indexes.values, sourced.document.Conforms)
  (hlinked : ∀ sourced ∈ indexes.values, Linked indexes.values sourced.document)
include hconforms hlinked

/-- The endpoint of a declared service is found: the schema lists the types, so the
lookup does not meet an unsupported one. -/
theorem endpoint_of_declared {service : Service}
    (h : Declares indexes.values (.service service)) :
    ∃ endpoint, indexes.registry.endpoint service.endpointId = .ok endpoint := by
  obtain ⟨sourced, hmem, hdocument⟩ := h
  have hservice := hlinked sourced hmem
  rw [hdocument] at hservice
  obtain ⟨endpoint, hdeclared, hid⟩ := hservice.endpoint
  have hget : indexes.registry.endpoints.get? service.endpointId = some endpoint := by
    rw [get?_registry_endpoints]
    exact get?_endpoints_eq_some.mpr ⟨hdeclared, hid⟩
  obtain ⟨sourced', hmem', hdocument'⟩ := hdeclared
  have hsupported := hconforms sourced' hmem'
  rw [hdocument'] at hsupported
  exact ⟨endpoint, Registry.endpoint_eq_ok hget hsupported⟩

theorem reaches_of_declared {service : Service}
    (h : Declares indexes.values (.service service)) : indexes.registry.Reaches service := by
  refine ⟨endpoint_of_declared hconforms hlinked h, fun id hid hne => ?_⟩
  obtain ⟨sourced, hmem, hdocument⟩ := h
  have hservice := hlinked sourced hmem
  rw [hdocument] at hservice
  obtain ⟨integration, hdeclared, hkey, _⟩ := hservice.integration id hid hne
  refine ⟨integration, Registry.integration_eq_ok ?_⟩
  rw [get?_registry_integrations]
  exact get?_integrations_eq_some.mpr ⟨hdeclared, hkey⟩

end Answers

/-! ## What a loaded registry is made of -/

section Loaded

variable {repr : String → String} {str : Path → String}

/-- A document is taken up from a valid file in place only. -/
theorem placed_of_loadDocument {indexes final : Indexes} {file : File}
    (h : loadDocument repr str indexes file = .ok final) :
    file.validationErrors = [] ∧ file.Placed := by
  by_cases hvalid : file.validationErrors = []
  · refine ⟨hvalid, ?_⟩
    cases hdirectory : kindDirectory file.document.kind with
    | none => simp [loadDocument, hvalid, hdirectory, Except.throw_ne_ok] at h
    | some directory =>
        refine ⟨directory, hdirectory, ?_⟩
        by_contra hbeneath
        rw [Bool.not_eq_true] at hbeneath
        simp [loadDocument, hvalid, hdirectory, hbeneath, Except.bind_eq_ok,
          Except.throw_ne_ok] at h
  · simp [loadDocument, hvalid, Except.bind_eq_ok, Except.throw_ne_ok] at h

/-- The loop gets through valid files in place only. -/
theorem admissible_of_loadDocuments {indexes final : Indexes} {files : List File}
    (h : loadDocuments repr str indexes files = .ok final) : Admissible files := by
  induction files generalizing indexes with
  | nil =>
      intro file hmem
      cases hmem
  | cons file rest ih =>
      rw [loadDocuments, Except.bind_eq_ok] at h
      obtain ⟨indexes', hfile, hrest⟩ := h
      intro other hmem
      rcases List.mem_cons.mp hmem with rfl | hmem
      · exact placed_of_loadDocument hfile
      · exact ih hrest other hmem

/-- A registry is loaded from valid files in place, at least one. -/
theorem admissible_of_loadRegistry {root : String} {tree : List File} {registry : Registry}
    (h : loadRegistry repr str root tree = .ok registry) :
    manifestFiles tree ≠ [] ∧ Admissible (manifestFiles tree) := by
  unfold loadRegistry at h
  split at h
  · cases h
  · rename_i hne
    obtain ⟨indexes, hload, _⟩ := Except.bind_eq_ok.mp h
    exact ⟨hne, admissible_of_loadDocuments hload⟩

/-- The references of every service of a loaded registry are found. -/
theorem reaches_of_loadRegistry {root : String} {tree : List File} {registry : Registry}
    (h : loadRegistry repr str root tree = .ok registry) {service : Service}
    (hservice : service ∈ registry.services) : registry.Reaches service := by
  obtain ⟨hne, hadmissible⟩ := admissible_of_loadRegistry h
  obtain ⟨hcoherent, indexes, hvalues, rfl⟩ := (loadRegistry_eq_ok_iff hne hadmissible).mp h
  rw [← hvalues] at hcoherent
  refine reaches_of_declared ?_ hcoherent.linked (mem_registry_services.mp hservice)
  intro sourced hmem
  rw [hvalues] at hmem
  obtain ⟨file, hfile, rfl⟩ := List.mem_map.mp hmem
  exact file.conforms (hadmissible file hfile).1

end Loaded

/-- What the lookups of a registry answer about the services of some documents:
each resolves, its references are found, and the listing has each once, by id. -/
structure Answers (registry : Registry) (documents : List Sourced) : Prop where
  resolve : ∀ service, Declares documents (.service service) →
    ∃ declaration, registry.resolve service.id = .ok declaration ∧ declaration.service = service
  endpoint : ∀ service, Declares documents (.service service) →
    ∃ endpoint, registry.endpoint service.endpointId = .ok endpoint
  integration : ∀ service id, Declares documents (.service service) →
    service.integrationId = some id → ∃ integration, registry.integration id = .ok integration
  listing : ∃ listed, registry.listServices default = .ok listed ∧
    (listed.Pairwise fun first second => first.id < second.id) ∧
    ∀ service, service ∈ listed ↔ Declares documents (.service service)

theorem answers_of_coherent {documents : List Sourced} {indexes : Indexes}
    (hvalues : indexes.values = documents)
    (hconforms : ∀ sourced ∈ documents, sourced.document.Conforms)
    (hcoherent : Coherent documents) : Answers indexes.registry documents := by
  subst hvalues
  have hreaches : ∀ service, Declares indexes.values (.service service) →
      indexes.registry.Reaches service :=
    fun service h => reaches_of_declared hconforms hcoherent.linked h
  constructor
  · intro service hdeclared
    refine (hreaches service hdeclared).resolve ?_
    unfold Registry.service
    rw [find?_registry, get?_services_eq_some.mpr ⟨hdeclared, rfl⟩]
  · exact fun service hdeclared => (hreaches service hdeclared).endpoint
  · intro service id hdeclared hid
    refine (hreaches service hdeclared).integration id hid ?_
    rintro rfl
    obtain ⟨sourced, hmem, hdocument⟩ := hdeclared
    have hnonempty := hconforms sourced hmem
    rw [hdocument] at hnonempty
    exact hnonempty.2 hid
  · refine ⟨indexes.registry.services, Registry.listServices_default ?_,
      indexes.registry.ordered, fun service => mem_registry_services⟩
    intro service hmem
    exact hreaches service (mem_registry_services.mp hmem)

/-- The answers do not depend on the order of the documents. -/
theorem Answers.perm {registry : Registry} {documents documents' : List Sourced}
    (hperm : documents.Perm documents') (h : Answers registry documents) :
    Answers registry documents' where
  resolve service hdeclared := h.resolve service (hdeclared.perm hperm.symm)
  endpoint service hdeclared := h.endpoint service (hdeclared.perm hperm.symm)
  integration service id hdeclared := h.integration service id (hdeclared.perm hperm.symm)
  listing := by
    obtain ⟨listed, hlisted, hordered, hmem⟩ := h.listing
    refine ⟨listed, hlisted, hordered, fun service => (hmem service).trans ?_⟩
    exact ⟨fun hdeclared => hdeclared.perm hperm, fun hdeclared => hdeclared.perm hperm.symm⟩

/-- **The two checkers agree.**  Over a tree whose manifest files are valid and in
place, the loader succeeds exactly when the cross-reference check of the same files,
in whatever order, finds no error; and a loaded registry answers for every service. -/
theorem checkers_agree (repr : String → String) (str str' : Path → String) (root : String)
    (tree files : List File) (hne : manifestFiles tree ≠ [])
    (hadmissible : Admissible (manifestFiles tree)) (hfiles : files.Perm (manifestFiles tree)) :
    ((∃ registry, loadRegistry repr str root tree = .ok registry) ↔
        crossReferenceErrors repr str' (files.map File.sourced) = []) ∧
      ∀ registry, loadRegistry repr str root tree = .ok registry →
        Answers registry (files.map File.sourced) := by
  have hperm := hfiles.map File.sourced
  constructor
  · rw [crossReferenceErrors_eq_nil_iff]
    constructor
    · rintro ⟨registry, hload⟩
      obtain ⟨hcoherent, _⟩ := (loadRegistry_eq_ok_iff hne hadmissible).mp hload
      exact hcoherent.perm hperm.symm
    · intro hcoherent
      have hsorted := hcoherent.perm hperm
      obtain ⟨indexes, hadd⟩ := (Index.addAll_ok_iff (∅ : Indexes) _).mpr hsorted.distinct
      have hvalues := Index.addAll_values hadd
      rw [Index.values_empty, List.nil_append] at hvalues
      exact ⟨_, (loadRegistry_eq_ok_iff hne hadmissible).mpr ⟨hsorted, indexes, hvalues, rfl⟩⟩
  · intro registry hload
    obtain ⟨hcoherent, indexes, hvalues, rfl⟩ := (loadRegistry_eq_ok_iff hne hadmissible).mp hload
    refine (answers_of_coherent hvalues (fun sourced hmem => ?_) hcoherent).perm hperm.symm
    obtain ⟨file, hfile, rfl⟩ := List.mem_map.mp hmem
    exact file.conforms (hadmissible file hfile).1

/-- Two boards behind one endpoint, one of them with an integration. -/
def twoBoards : List File :=
  let board (id : String) (integrationId : Option String) (viaBbs : List String) : Service :=
    { id := id
      type := .bbs
      endpointId := "line"
      integrationId := integrationId
      exposure := ⟨viaBbs = [], some viaBbs, none⟩
      access := none
      lifecycle := ⟨.onDemand, .multiuser, none, none, none, none, none, none, none⟩
      jobs := [] }
  [⟨["services", "menu.yml"], [], .service (board "menu" none []),
      fun _ => ⟨by decide, by decide⟩⟩,
    ⟨["services", "amiga", "door.yaml"], [], .service (board "door" (some "fs-uae") ["menu"]),
      fun _ => ⟨by decide, by decide⟩⟩,
    ⟨["endpoints", "line.yml"], [],
      .endpoint ⟨"line", .tcp, some "localhost", none⟩, fun _ _ => by simp⟩,
    ⟨["integrations", "door.yml"], [], .integration ⟨"fs-uae", "door", "fs_uae", [], none⟩,
      fun _ => by simp [Document.Conforms]⟩]

theorem twoBoards_admissible : Admissible (manifestFiles twoBoards) := by
  intro file hmem
  have htree := mem_of_mem_manifestFiles hmem
  simp only [twoBoards, List.mem_cons, List.not_mem_nil, or_false] at htree
  rcases htree with rfl | rfl | rfl | rfl
  · exact ⟨rfl, "services", rfl, rfl⟩
  · exact ⟨rfl, "services", rfl, rfl⟩
  · exact ⟨rfl, "endpoints", rfl, rfl⟩
  · exact ⟨rfl, "integrations", rfl, rfl⟩

theorem twoBoards_agree :
    ∃ registry, loadRegistry id "/".intercalate "" twoBoards = .ok registry ∧
      crossReferenceErrors id "/".intercalate
        ((manifestFiles twoBoards).reverse.map File.sourced) = [] ∧
      Answers registry ((manifestFiles twoBoards).reverse.map File.sourced) := by
  have hne : manifestFiles twoBoards ≠ [] := by decide
  have hagree := checkers_agree id "/".intercalate "/".intercalate "" twoBoards
    (manifestFiles twoBoards).reverse hne twoBoards_admissible (List.reverse_perm _)
  have herrors : crossReferenceErrors id "/".intercalate
      ((manifestFiles twoBoards).reverse.map File.sourced) = [] := by decide
  obtain ⟨registry, hload⟩ := hagree.1.mpr herrors
  exact ⟨registry, hload, herrors, hagree.2 registry hload⟩

end UltimateBBSBox.Catalog
