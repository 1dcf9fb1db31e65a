import UltimateBBSBox.Catalog.Agreement
import UltimateBBSBox.Router.Policy

/-!
# The menu and the gate

`list_direct_services` and `authorize` decide about exposure and access each in
its own words.  `authorize` also resolves the declaration of the service, which
cannot fail in a registry that `load_registry` has accepted
(`Catalog.reaches_of_loadRegistry`); so the menu shows what the gate lets through.
-/

namespace UltimateBBSBox.Router

open Catalog

/-- The gate decides a direct request without origin by the exposure and the access of
the target, where the references of the target are found. -/
theorem authorize_direct_iff {registry : Registry} {request : RouteRequest} {service : Service}
    (hdirect : request.routeType = .direct) (horigin : request.originService = none)
    (hfound : registry.find? request.targetService = some service)
    (hreaches : registry.Reaches service) :
    (∃ declaration, authorize registry request = .ok declaration) ↔ Permits service request := by
  constructor
  · intro ⟨declaration, hauthorized⟩
    obtain ⟨service', hfound', hpermits⟩ := authorize_eq_ok hauthorized
    rw [hfound] at hfound'
    cases hfound'
    exact hpermits
  · intro hpermits
    obtain ⟨hadmin, ⟨-, -, hmenu, hallowed⟩ | ⟨hvia, -⟩⟩ := hpermits
    · have hid : service.id = request.targetService := (registry.mem_services_of_find? hfound).2
      have hservice : registry.service request.targetService = .ok service := by
        unfold Registry.service
        rw [hfound]
      obtain ⟨declaration, hresolve, -⟩ := hreaches.resolve (hid ▸ hservice)
      refine ⟨declaration, ?_⟩
      unfold authorize
      simp [hservice, hadmin, hdirect, horigin, hmenu, hallowed, hresolve, Except.mapError]
    · rw [hdirect] at hvia
      cases hvia

/-- What the gate lets through is the declaration of the target. -/
theorem service_of_authorize {registry : Registry} {request : RouteRequest}
    {declaration : Declaration} (hdirect : request.routeType = .direct)
    (h : authorize registry request = .ok declaration) :
    declaration.service ∈ registry.services ∧
      declaration.service.id = request.targetService := by
  unfold authorize at h
  split at h
  · cases h
  · rename_i service hservice
    have hid := (registry.mem_services_of_find? (registry.find?_of_service hservice)).2
    simp only [hdirect] at h
    split at h
    · cases h
    · split at h
      · cases h
      · split at h
        · cases h
        · cases hresolve : registry.resolve service.id with
          | error e => simp [hresolve, Except.mapError] at h
          | ok resolved =>
              simp only [hresolve, Except.mapError, Except.ok.injEq] at h
              rw [← h, ← hid]
              exact Registry.service_of_resolve hresolve
      all_goals simp_all

/-- **The menu and the gate agree.**  In a registry that `load_registry` has accepted the
menu lists services in the order of their ids, none twice, and it lists exactly those to
which a direct request without origin is authorized. -/
theorem menu_agrees_with_gate (repr : String → String) (str : Path → String) (root : String)
    (tree : List File) (registry : Registry) (h : loadRegistry repr str root tree = .ok registry) :
    ((listDirectServices registry).Pairwise fun first second => first.id < second.id) ∧
      ∀ request : RouteRequest, request.routeType = .direct → request.originService = none →
        ∀ service, service ∈ listDirectServices registry ∧ service.id = request.targetService ↔
          ∃ declaration, authorize registry request = .ok declaration ∧
            declaration.service = service := by
  refine ⟨registry.ordered.sublist List.filter_sublist, ?_⟩
  intro request hdirect horigin service
  constructor
  · intro ⟨hlisted, hid⟩
    obtain ⟨hmem, hpermits⟩ := mem_listDirectServices_iff.mp hlisted
    have hfound : registry.find? request.targetService = some service := by
      rw [← hid]
      exact Registry.find?_of_mem hmem
    have hsame : Permits service request := by
      unfold Permits at hpermits ⊢
      simpa [hdirect, horigin] using hpermits
    obtain ⟨declaration, hauthorized⟩ :=
      (authorize_direct_iff hdirect horigin hfound (reaches_of_loadRegistry h hmem)).mpr hsame
    obtain ⟨hdeclared, hdeclaredId⟩ := service_of_authorize hdirect hauthorized
    exact ⟨declaration, hauthorized,
      Registry.eq_of_id_eq hdeclared hmem (hdeclaredId.trans hid.symm)⟩
  · intro ⟨declaration, hauthorized, hservice⟩
    obtain ⟨hmem, hid⟩ := service_of_authorize hdirect hauthorized
    rw [hservice] at hmem hid
    obtain ⟨service', hfound, hpermits⟩ := authorize_eq_ok hauthorized
    obtain ⟨hmem', hid'⟩ := registry.mem_services_of_find? hfound
    obtain rfl := Registry.eq_of_id_eq hmem' hmem (hid'.trans hid.symm)
    refine ⟨mem_listDirectServices_iff.mpr ⟨hmem, ?_⟩, hid⟩
    unfold Permits at hpermits ⊢
    simpa [hdirect, horigin] using hpermits

/-- The board behind the menu of `twoBoards` is let through, the door is not. -/
theorem menu_agrees_with_gate_of_twoBoards :
    ∃ registry, loadRegistry id "/".intercalate "" twoBoards = .ok registry ∧
      (listDirectServices registry).map Service.id = ["menu"] ∧
      ∀ service, service ∈ listDirectServices registry ∧ service.id = "menu" ↔
        ∃ declaration, authorize registry { targetService := "menu" } = .ok declaration ∧
          declaration.service = service := by
  have hmenu : (loadRegistry id "/".intercalate "" twoBoards).toOption.map
      (fun registry => (listDirectServices registry).map Service.id) = some ["menu"] := by
    decide +kernel
  obtain ⟨registry, hsome, hmenu⟩ := Option.map_eq_some_iff.mp hmenu
  have hload := Except.toOption_eq_some.mp hsome
  refine ⟨registry, hload, hmenu, ?_⟩
  exact (menu_agrees_with_gate id "/".intercalate "" twoBoards registry hload).2
    { targetService := "menu" } rfl rfl

end UltimateBBSBox.Router
