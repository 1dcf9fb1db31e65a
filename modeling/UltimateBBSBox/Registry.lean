import Mathlib.Data.NNRat.Defs
import Mathlib.Data.String.Basic
import UltimateBBSBox.Library.Check
import UltimateBBSBox.Library.Dict
import UltimateBBSBox.Library.Index

/-!
# Validated manifests and registry queries

`models.py` and `registry.py` of `ubb_registry`.  The records keep the fields
of a manifest that the supervisor, the router and the lookups read; an optional
field is an `Option`, and its default is applied where the source applies it.
The field types are the ones `service-v1.schema.json` admits.
-/

namespace UltimateBBSBox

/-! ## Manifests -/

/-- `lifecycle.mode`. -/
inductive Mode | onDemand | alwaysOn
deriving DecidableEq, Repr

/-- `lifecycle.sharing`. -/
inductive Sharing | singleSession | multiuser
deriving DecidableEq, Repr

/-- `lifecycle.restart`. -/
inductive RestartPolicy | never | onFailure | always
deriving DecidableEq, Repr

/-- `lifecycle.readiness.type`. -/
inductive ReadinessType | immediate | processAlive | commandProbe | driverSpecific
deriving DecidableEq, Repr

/-- `lifecycle.readiness`. -/
structure Readiness where
  type : ReadinessType
  command : Option (List String)
deriving DecidableEq

/-- The `lifecycle` section of a service. -/
structure Lifecycle where
  mode : Mode
  sharing : Sharing
  idleTimeoutSeconds : Option ℕ
  startupTimeoutSeconds : Option ℕ
  restart : Option RestartPolicy
  maxRestarts : Option ℕ
  restartWindowSeconds : Option ℕ
  restartBackoffSeconds : Option ℚ≥0
  readiness : Option Readiness
deriving DecidableEq

/-- An entry of `maintenance.jobs`. -/
structure Job where
  name : String
  schedule : String
  action : String
  wakeIfStopped : Option Bool
  shutdownAfter : Option Bool
deriving DecidableEq

/-- The `exposure` section of a service. -/
structure Exposure where
  mainMenu : Bool
  viaBbs : Option (List String)
  adminOnly : Option Bool
deriving DecidableEq

/-- The `access` section of a service. -/
structure Access where
  directAllowed : Option Bool
deriving DecidableEq

/-- `service.type`. -/
inductive ServiceType
  | bbs | infrastructure | door | mudWorld | talker | interactiveFiction | shell | irc | nntp
  | gopher | other
deriving DecidableEq, Repr

/-- The text of a service type. -/
def ServiceType.name : ServiceType → String
  | .bbs => "bbs"
  | .infrastructure => "infrastructure"
  | .door => "door"
  | .mudWorld => "mud_world"
  | .talker => "talker"
  | .interactiveFiction => "interactive_fiction"
  | .shell => "shell"
  | .irc => "irc"
  | .nntp => "nntp"
  | .gopher => "gopher"
  | .other => "other"

/-- A service manifest. -/
structure Service where
  id : String
  type : ServiceType
  endpointId : String
  integrationId : Option String
  exposure : Exposure
  access : Option Access
  lifecycle : Lifecycle
  jobs : List Job
deriving DecidableEq

/-- The endpoint types of `ENDPOINT_TYPES`, and any other text. -/
inductive EndpointType
  | localProcess | tcp | udp | ssh | serial | supervisor | remoteSupervisor
  | other (name : String)
deriving DecidableEq

/-- The text of an endpoint type. -/
def EndpointType.name : EndpointType → String
  | .localProcess => "local_process"
  | .tcp => "tcp"
  | .udp => "udp"
  | .ssh => "ssh"
  | .serial => "serial"
  | .supervisor => "supervisor"
  | .remoteSupervisor => "remote_supervisor"
  | .other name => name

/-- An endpoint manifest. -/
structure Endpoint where
  id : String
  type : EndpointType
  host : Option String
  connectTimeoutSeconds : Option ℚ≥0
deriving DecidableEq

/-- `location` of a normalized endpoint. -/
inductive Location | local | remote
deriving DecidableEq, Repr

/-- What `Endpoint.normalized` returns. -/
structure NormalizedEndpoint where
  id : String
  type : EndpointType
  host : Option String
  connectTimeoutSeconds : Option ℚ≥0
  location : Location
deriving DecidableEq

/-- `Endpoint.normalized`. -/
def Endpoint.normalized (endpoint : Endpoint) : NormalizedEndpoint :=
  let localHost := endpoint.host ∈ [none, some "localhost", some "127.0.0.1", some "::1"]
  { id := endpoint.id
    type := if endpoint.type = .supervisor then .remoteSupervisor else endpoint.type
    host := endpoint.host
    connectTimeoutSeconds := endpoint.connectTimeoutSeconds
    location :=
      if endpoint.type ∈ [.localProcess, .serial] ∨
          (endpoint.type ∈ [.tcp, .udp] ∧ localHost) then .local else .remote }

/-- An integration manifest. -/
structure Integration where
  id : String
  target : String
  runtime : String
  /-- `artifact_id` of the entries of `artifacts`. -/
  artifacts : List String
  recommendedLifecycle : Option Mode
deriving DecidableEq

/-! ## The registry -/

/-- `RegistryError` and its subclasses. -/
inductive RegistryErrorClass
  | unknownReferenceError | unsupportedEndpointTypeError | duplicateIdError | invalidManifestError
deriving DecidableEq, Repr

/-- A raised registry error: its class and its text. -/
structure RegistryError where
  cls : RegistryErrorClass
  message : String
deriving DecidableEq, Repr

/-- `Registry`: the services in the order of their ids, and the two indexes
they refer to. -/
structure Registry where
  services : List Service
  ordered : services.Pairwise fun first second => first.id < second.id
  endpoints : Dict String Endpoint
  integrations : Dict String Integration

/-- What `resolve` returns. -/
structure Declaration where
  service : Service
  endpoint : NormalizedEndpoint
  integration : Option Integration
deriving DecidableEq

namespace Registry

/-- `Registry.create`: each index in the order of its ids. -/
def create (services : Index Service.id) (endpoints : Index Endpoint.id)
    (integrations : Index Integration.id) : Registry where
  services := services.sorted.values
  ordered := services.sorted_pairwise
  endpoints := endpoints.sorted.toDict
  integrations := integrations.sorted.toDict

/-- `services.get(service_id)`. -/
def find? (registry : Registry) (serviceId : String) : Option Service :=
  registry.services.find? fun service => service.id = serviceId

/-- `Registry.service`. -/
def service (registry : Registry) (serviceId : String) : Except RegistryError Service :=
  match registry.find? serviceId with
  | some service => .ok service
  | none => .error ⟨.unknownReferenceError, s!"unknown service: {serviceId}"⟩

/-- `Registry.endpoint`. -/
def endpoint (registry : Registry) (endpointId : String) : Except RegistryError Endpoint :=
  match registry.endpoints.get? endpointId with
  | none => .error ⟨.unknownReferenceError, s!"unknown endpoint: {endpointId}"⟩
  | some endpoint =>
      match endpoint.type with
      | .other name =>
          .error ⟨.unsupportedEndpointTypeError, s!"unsupported endpoint type: {name}"⟩
      | _ => .ok endpoint

/-- `Registry.integration`. -/
def integration (registry : Registry) (integrationId : String) : Except RegistryError Integration :=
  match registry.integrations.get? integrationId with
  | some integration => .ok integration
  | none => .error ⟨.unknownReferenceError, s!"unknown integration: {integrationId}"⟩

/-- `Registry.resolve`. -/
def resolve (registry : Registry) (serviceId : String) : Except RegistryError Declaration := do
  let service ← registry.service serviceId
  let endpoint ← registry.endpoint service.endpointId
  -- an absent or empty integration id resolves to no integration
  match service.integrationId with
  | none | some "" => return ⟨service, endpoint.normalized, none⟩
  | some integrationId =>
      let integration ← registry.integration integrationId
      return ⟨service, endpoint.normalized, some integration⟩

/-- The filters of `list_services`. -/
structure Filters where
  serviceType : Option String
  mainMenu : Option Bool
  viaBbs : Option String
  bbsOnly : Bool
  endpointType : Option String
  runtime : Option String

/-- `list_services()`: no filter. -/
instance : Inhabited Filters := ⟨⟨none, none, none, false, none, none⟩⟩

/-- A text filter that is set: absent and empty ones do not filter. -/
def textFilter : Option String → Option String
  | none | some "" => none
  | some text => some text

/-- Whether `list_services` keeps a service. -/
def Filters.keeps (filters : Filters) (service : Service) (endpoint : Endpoint)
    (integration : Option Integration) : Bool :=
  (textFilter filters.serviceType).all (service.type.name = ·) &&
  filters.mainMenu.all (service.exposure.mainMenu = ·) &&
  (textFilter filters.viaBbs).all (· ∈ service.exposure.viaBbs.getD []) &&
  !(filters.bbsOnly &&
    (service.exposure.mainMenu || service.exposure.viaBbs.getD [] = [])) &&
  (textFilter filters.endpointType).all (endpoint.normalized.type.name = ·) &&
  (textFilter filters.runtime).all fun runtime =>
    integration.any fun integration => integration.runtime = runtime

/-- What `list_services` reads for one service, and whether it keeps it. -/
def lists (registry : Registry) (filters : Filters) (service : Service) :
    Except RegistryError Bool := do
  let endpoint ← registry.endpoint service.endpointId
  match service.integrationId with
  | none | some "" => return filters.keeps service endpoint none
  | some integrationId =>
      let integration ← registry.integration integrationId
      return filters.keeps service endpoint (some integration)

/-- The loop of `list_services`. -/
def listFrom (registry : Registry) (filters : Filters) :
    List Service → Except RegistryError (List Service)
  | [] => return []
  | service :: rest => do
      let kept ← registry.lists filters service
      let values ← listFrom registry filters rest
      return if kept then service :: values else values

/-- `Registry.list_services`. -/
def listServices (registry : Registry) (filters : Filters) :
    Except RegistryError (List Service) :=
  registry.listFrom filters registry.services

/-! ## Lookups that succeed -/

theorem endpoint_eq_ok {registry : Registry} {endpointId : String} {endpoint : Endpoint}
    (h : registry.endpoints.get? endpointId = some endpoint)
    (hsupported : ∀ name, endpoint.type ≠ .other name) :
    registry.endpoint endpointId = .ok endpoint := by
  unfold Registry.endpoint
  rw [h]
  dsimp only
  split
  · rename_i name htype
    exact absurd htype (hsupported name)
  · rfl

theorem integration_eq_ok {registry : Registry} {integrationId : String}
    {integration : Integration} (h : registry.integrations.get? integrationId = some integration) :
    registry.integration integrationId = .ok integration := by
  unfold Registry.integration
  rw [h]

/-- The endpoint and the integration of a service are found. -/
structure Reaches (registry : Registry) (service : Service) : Prop where
  endpoint : ∃ endpoint, registry.endpoint service.endpointId = .ok endpoint
  integration : ∀ id, service.integrationId = some id → id ≠ "" →
    ∃ integration, registry.integration id = .ok integration

/-- A service whose references are found resolves to itself. -/
theorem Reaches.resolve {registry : Registry} {service : Service}
    (h : registry.Reaches service) (hservice : registry.service service.id = .ok service) :
    ∃ declaration, registry.resolve service.id = .ok declaration ∧
      declaration.service = service := by
  obtain ⟨endpoint, hendpoint⟩ := h.endpoint
  unfold Registry.resolve
  simp only [hservice, hendpoint, bind, Except.bind]
  split
  · exact ⟨_, rfl, rfl⟩
  · exact ⟨_, rfl, rfl⟩
  · rename_i id hne hid
    obtain ⟨integration, hintegration⟩ := h.integration id hid (by simpa using hne)
    rw [hintegration]
    exact ⟨_, rfl, rfl⟩

theorem Reaches.lists {registry : Registry} {service : Service} (h : registry.Reaches service) :
    registry.lists default service = .ok true := by
  obtain ⟨endpoint, hendpoint⟩ := h.endpoint
  unfold Registry.lists
  simp only [hendpoint, bind, Except.bind]
  split
  · rfl
  · rfl
  · rename_i id hne hid
    obtain ⟨integration, hintegration⟩ := h.integration id hid (by simpa using hne)
    rw [hintegration]
    rfl

/-- Without filters the listing is all services, where all references are found. -/
theorem listServices_default {registry : Registry}
    (h : ∀ service ∈ registry.services, registry.Reaches service) :
    registry.listServices default = .ok registry.services := by
  have hlist : ∀ services : List Service, (∀ service ∈ services, registry.Reaches service) →
      registry.listFrom default services = .ok services := by
    intro services
    induction services with
    | nil => exact fun _ => rfl
    | cons service rest ih =>
        intro h
        rw [listFrom, (h service (List.mem_cons_self ..)).lists]
        have hrest := ih fun other hmem => h other (List.mem_cons_of_mem _ hmem)
        simp [hrest, bind, Except.bind, pure, Except.pure]
  exact hlist registry.services h

/-- What an unfiltered listing returns are all services. -/
theorem eq_of_listServices_default {registry : Registry} {listed : List Service}
    (h : registry.listServices default = .ok listed) : listed = registry.services := by
  have hlist : ∀ services listed : List Service,
      registry.listFrom default services = .ok listed → listed = services := by
    intro services
    induction services with
    | nil =>
        intro listed h
        exact (Except.ok.inj h).symm
    | cons service rest ih =>
        intro listed h
        rw [listFrom] at h
        obtain ⟨kept, hkept, h⟩ := Except.bind_eq_ok.mp h
        obtain ⟨values, hvalues, h⟩ := Except.bind_eq_ok.mp h
        have htrue : kept = true := by
          unfold lists at hkept
          obtain ⟨endpoint, _, hkept⟩ := Except.bind_eq_ok.mp hkept
          split at hkept
          · exact (Except.ok.inj hkept).symm
          · exact (Except.ok.inj hkept).symm
          · obtain ⟨integration, _, hkept⟩ := Except.bind_eq_ok.mp hkept
            exact (Except.ok.inj hkept).symm
        rw [htrue, if_pos rfl] at h
        rw [← Except.pure_eq_ok.mp h, ih values hvalues]
  exact hlist registry.services listed h

theorem find?_of_service (registry : Registry) {serviceId : String} {service : Service}
    (h : registry.service serviceId = .ok service) : registry.find? serviceId = some service := by
  unfold Registry.service at h
  split at h <;> simp_all

theorem mem_services_of_find? {registry : Registry} {serviceId : String} {service : Service}
    (h : registry.find? serviceId = some service) :
    service ∈ registry.services ∧ service.id = serviceId :=
  ⟨List.mem_of_find?_eq_some h, by simpa using List.find?_some h⟩

/-- A service is found under its own id: no id occurs twice. -/
theorem find?_of_mem {registry : Registry} {service : Service}
    (h : service ∈ registry.services) : registry.find? service.id = some service := by
  obtain ⟨services, ordered, _, _⟩ := registry
  unfold find?
  simp only at h ⊢
  induction services with
  | nil => simp at h
  | cons first rest ih =>
      rw [List.pairwise_cons] at ordered
      rcases List.mem_cons.mp h with rfl | hmem
      · simp
      · rw [List.find?_cons_of_neg (by simpa using (ordered.1 service hmem).ne)]
        exact ih ordered.2 hmem

/-- A declaration is that of the service it was asked for. -/
theorem service_of_resolve {registry : Registry} {serviceId : String} {declaration : Declaration}
    (h : registry.resolve serviceId = .ok declaration) :
    declaration.service ∈ registry.services ∧ declaration.service.id = serviceId := by
  unfold resolve at h
  obtain ⟨service, hservice, h⟩ := Except.bind_eq_ok.mp h
  obtain ⟨endpoint, _, h⟩ := Except.bind_eq_ok.mp h
  have hfound := mem_services_of_find? (find?_of_service registry hservice)
  split at h
  · rw [← Except.pure_eq_ok.mp h]
    exact hfound
  · rw [← Except.pure_eq_ok.mp h]
    exact hfound
  · obtain ⟨integration, _, h⟩ := Except.bind_eq_ok.mp h
    rw [← Except.pure_eq_ok.mp h]
    exact hfound

/-- Services of one id are one service. -/
theorem eq_of_id_eq {registry : Registry} {first second : Service}
    (hfirst : first ∈ registry.services) (hsecond : second ∈ registry.services)
    (h : first.id = second.id) : first = second := by
  have hfind := find?_of_mem hfirst
  rw [h, find?_of_mem hsecond] at hfind
  exact (Option.some.inj hfind).symm

end Registry

end UltimateBBSBox
