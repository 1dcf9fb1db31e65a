import UltimateBBSBox.Router.Session

/-!
# Exposure and route-path authorization

`policy.py`.  `Permits` states the policy; `authorize_eq_ok` says that the code
authorizes nothing else.
-/

namespace UltimateBBSBox.Router

/-- `access.get("direct_allowed", True)`. -/
def directAllowed (service : Service) : Bool :=
  ((service.access.getD ⟨none⟩).directAllowed).getD true

/-- `exposure.get("admin_only", False)`. -/
def adminOnly (service : Service) : Bool := service.exposure.adminOnly.getD false

/-- `exposure.get("via_bbs", [])`. -/
def viaBbs (service : Service) : List String := service.exposure.viaBbs.getD []

/-- `RoutePolicy.list_direct_services`. -/
def listDirectServices (registry : Registry) : List Service :=
  registry.services.filter fun service =>
    service.exposure.mainMenu && directAllowed service && !adminOnly service

/-- `RoutePolicy.authorize`. -/
def authorize (registry : Registry) (request : RouteRequest) : Except Exn Declaration :=
  match registry.service request.targetService with
  | .error _ => .error ⟨.unknownServiceError, s!"unknown target service: {request.targetService}"⟩
  | .ok service =>
      let resolution := (registry.resolve service.id).mapError Exn.ofRegistry
      if adminOnly service = true then
        .error ⟨.authorizationError,
          s!"service {service.id} requires an administrative assertion not implemented in M4"⟩
      else
        match request.routeType, request.originService with
        | .direct, some _ =>
            .error ⟨.authorizationError, "direct routes cannot declare an origin service"⟩
        | .direct, none =>
            if service.exposure.mainMenu = false ∨ directAllowed service = false then
              .error ⟨.authorizationError, s!"direct route denied for service {service.id}"⟩
            else resolution
        | .viaService, none | .viaService, some "" =>
            .error ⟨.authorizationError, "via_service routes require an origin service"⟩
        | .viaService, some origin =>
            match registry.service origin with
            | .error _ => .error ⟨.unknownServiceError, s!"unknown origin service: {origin}"⟩
            | .ok _ =>
                if origin ∉ viaBbs service then
                  .error ⟨.authorizationError,
                    s!"route to {service.id} is not allowed via {origin}"⟩
                else resolution

/-- What the exposure of a service permits: no administrative service; a direct
route without origin where main menu and access admit it; a route via a service
that the target lists. -/
def Permits (service : Service) (request : RouteRequest) : Prop :=
  adminOnly service = false ∧
    ((request.routeType = .direct ∧ request.originService = none ∧
        service.exposure.mainMenu = true ∧ directAllowed service = true) ∨
      (request.routeType = .viaService ∧
        ∃ origin, request.originService = some origin ∧ origin ∈ viaBbs service))

/-- Only what the exposure of the target permits is authorized. -/
theorem authorize_eq_ok {registry : Registry} {request : RouteRequest} {declaration : Declaration}
    (h : authorize registry request = .ok declaration) :
    ∃ service, registry.find? request.targetService = some service ∧ Permits service request := by
  unfold authorize at h
  split at h
  · cases h
  · rename_i service hservice
    refine ⟨service, registry.find?_of_service hservice, ?_⟩
    dsimp only at h
    split at h
    · cases h
    · rename_i hadmin
      refine ⟨by simpa using hadmin, ?_⟩
      split at h
      · cases h
      · rename_i hdirect horigin
        split at h
        · cases h
        · rename_i hexposed
          rw [not_or] at hexposed
          exact .inl ⟨hdirect, horigin, by simpa using hexposed.1, by simpa using hexposed.2⟩
      · cases h
      · cases h
      · rename_i origin _ hvia horigin
        split at h
        · cases h
        · split at h
          · cases h
          · rename_i hlisted
            exact .inr ⟨hvia, origin, horigin, not_not.mp hlisted⟩

/-- A service is listed if and only if a direct route to it is permitted. -/
theorem mem_listDirectServices_iff {registry : Registry} {service : Service} :
    service ∈ listDirectServices registry ↔
      service ∈ registry.services ∧ Permits service { targetService := service.id } := by
  simp only [listDirectServices, List.mem_filter, Bool.and_eq_true, Bool.not_eq_true']
  constructor
  · rintro ⟨hmem, ⟨hmenu, hallowed⟩, hadmin⟩
    exact ⟨hmem, hadmin, .inl ⟨rfl, rfl, hmenu, hallowed⟩⟩
  · rintro ⟨hmem, hadmin, ⟨_, _, hmenu, hallowed⟩ | ⟨hvia, _⟩⟩
    · exact ⟨hmem, ⟨hmenu, hallowed⟩, hadmin⟩
    · cases hvia

end UltimateBBSBox.Router
