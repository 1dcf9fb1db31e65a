import UltimateBBSBox.Backup.RoundTrip
import UltimateBBSBox.Library.Retention
import UltimateBBSBox.Observatory.Collector

/-!
# The evidence of a backup

The observatory finds backups by the pattern `backup*/backup-manifest.json` and
takes the newest file, whatever target it is of.  The manager names a directory
after its target.

`attributed_iff` says when a service is shown its own latest backup: when the ids
decide so, because `backup*` reaches exactly the targets whose id starts with
`backup`.  The order in which a directory is read is left open.
-/

namespace UltimateBBSBox.Backup

open Observatory

/-! ## The store and its evidence -/

/-- The root, and the ids of the backups that were begun, newest first. -/
structure Store where
  root : Root
  order : List String

namespace Store

/-- No backup yet. -/
def empty : Store := ⟨∅, []⟩

/-- A call of `create`. -/
def step (sha256 : List (Tar.Member Bytes) → String) (store : Store) (call : Call) :
    Option (Outcome × Store) :=
  if store.root.get? call.env.staging ≠ none then none
  else
    let (outcome, root) := create sha256 call.declarations call.request call.env store.root
    let bid := backupId call.request call.env
    some (outcome, ⟨root, if store.root.get? bid = none then bid :: store.order else store.order⟩)

/-- The target of a listed backup. -/
def targetOf (store : Store) (bid : String) : Option String :=
  (showBackup store.root bid).toOption.map (·.targetId)

/-- The most recently created backup of a target. -/
def latest (store : Store) (target : String) : Option String :=
  store.order.find? fun bid => store.targetOf bid = some target

end Store

/-- `backup-manifest.json` of a directory, as the observatory reads it. -/
def evidenceFile (bid : String) (folder : Folder) : Option EvidenceFile :=
  match folder.evidence with
  | .missing => none
  | .torn => some ⟨[bid, "backup-manifest.json"], folder.mtime, none⟩
  | .whole manifest =>
      some ⟨[bid, "backup-manifest.json"], folder.mtime, some ⟨some manifest.createdAt, none⟩⟩

/-- The evidence beneath the backup root, in some order. -/
def evidenceFiles (root : Root) : List EvidenceFile :=
  root.entries.filterMap fun entry => evidenceFile entry.1 entry.2

/-- The targets that the dashboard declares: services with an integration. -/
def DeclaresServices (registry : Registry) (call : Call) : Prop :=
  ∀ target declaration, call.declarations.get? target = some declaration →
    ∃ service ∈ registry.services, service.id = target ∧ given service.integrationId ≠ none

instance (registry : Registry) (call : Call) : Decidable (DeclaresServices registry call) :=
  inferInstanceAs (Decidable (∀ target declaration,
    call.declarations.get? target = some declaration →
      ∃ service ∈ registry.services, service.id = target ∧ given service.integrationId ≠ none))

/-- The service is shown its latest backup, and the alert if there is none. -/
structure Attributed (store : Store) (item : ServiceSummary) : Prop where
  shown : item.backup.map (·.manifest) =
    (store.latest item.id).map fun bid => [bid, "backup-manifest.json"]
  alert : (∃ alert ∈ alertsOf item, alert.message = "no backup evidence recorded") ↔
    store.latest item.id = none

/-! ## What the calls keep -/

/-- A directory with evidence is that of a listed backup, which is named after its
target and was begun by a call for a declared one. -/
structure Filed (registry : Registry) (order : List String) (bid : String) (folder : Folder) :
    Prop where
  listed : folder.evidence ≠ .missing → ∃ manifest, folder.manifest = .whole manifest
  named : ∀ manifest, folder.manifest = .whole manifest →
    ∃ stamp suffix : String, bid = s!"{manifest.targetId}-{stamp}-{suffix}"
  begun : ∀ manifest, folder.manifest = .whole manifest → bid ∈ order
  declared : ∀ manifest, folder.manifest = .whole manifest →
    ∃ service ∈ registry.services, service.id = manifest.targetId ∧
      given service.integrationId ≠ none

theorem declared_of_checkRequest {declarations : Dict String Declaration} {request : Request}
    {checked : Declaration × String × Tree}
    (h : checkRequest declarations request = .ok checked) :
    ∃ declaration, declarations.get? request.target = some declaration := by
  unfold checkRequest at h
  cases hget : declarations.get? request.target with
  | none => rw [hget] at h; cases h
  | some declaration => exact ⟨declaration, rfl⟩

/-- The store of a run. -/
def Store.Sound (registry : Registry) (store : Store) : Prop :=
  Everywhere (Filed registry store.order) store.root

theorem Store.Sound.step {registry : Registry} {sha256 : List (Tar.Member Bytes) → String}
    {store store' : Store} (h : store.Sound registry) {call : Call} {outcome : Outcome}
    (hdeclares : DeclaresServices registry call)
    (hstep : store.step sha256 call = some (outcome, store')) : store'.Sound registry := by
  unfold Store.step at hstep
  split at hstep
  · cases hstep
  · obtain ⟨_, rfl⟩ := Prod.mk.inj (Option.some.inj hstep)
    set bid := backupId call.request call.env with hbid
    set order := if store.root.get? bid = none then bid :: store.order else store.order with horder
    have hsub : ∀ other ∈ store.order, other ∈ order := by
      intro other hmem
      rw [horder]
      split
      · exact List.mem_cons_of_mem _ hmem
      · exact hmem
    have hold : Everywhere (Filed registry order) store.root := by
      intro other folder hget
      have hfiled := h other folder hget
      exact ⟨hfiled.listed, hfiled.named,
        fun manifest hmanifest => hsub other (hfiled.begun manifest hmanifest), hfiled.declared⟩
    -- either the folder is left without a manifest, or it gets the one of this call
    refine hold.create (fun other folder hunfinished => ?_)
      fun declaration mode tree members hcheck _ hnone folder _ hmanifest => ?_
    · have hno : ∀ manifest, folder.manifest ≠ .whole manifest := by
        intro manifest hmanifest
        have hnone := hunfinished.1
        rw [hmanifest] at hnone
        cases hnone
      exact ⟨fun hevidence => absurd hunfinished.2 hevidence,
        fun manifest hmanifest => absurd hmanifest (hno manifest),
        fun manifest hmanifest => absurd hmanifest (hno manifest),
        fun manifest hmanifest => absurd hmanifest (hno manifest)⟩
    · have hself : ∀ manifest, folder.manifest = .whole manifest →
          manifest.targetId = call.request.target := by
        intro manifest hwhole
        rw [← JsonFile.whole.inj (hmanifest.symm.trans hwhole)]
        rfl
      refine ⟨fun _ => ⟨_, hmanifest⟩, fun manifest hwhole => ?_, fun _ _ => ?_,
        fun manifest hwhole => ?_⟩
      · rw [hself manifest hwhole]
        exact ⟨call.env.stamp, call.env.suffix, rfl⟩
      · rw [horder, if_pos hnone]
        exact List.mem_cons_self ..
      · obtain ⟨declaration, hdeclared⟩ := declared_of_checkRequest hcheck
        obtain ⟨service, hservice, hid, hintegration⟩ := hdeclares _ _ hdeclared
        exact ⟨service, hservice, hid.trans (hself manifest hwhole).symm, hintegration⟩

theorem Store.sound_of_run {registry : Registry} {sha256 : List (Tar.Member Bytes) → String}
    {store : Store}
    (hrun : Machine.Run (Store.step sha256) (fun _ call => DeclaresServices registry call)
      .empty store) : store.Sound registry :=
  hrun.invariant Everywhere.empty fun _ _ _ _ h hdeclares hstep => h.step hdeclares hstep

/-! ## What the pattern finds -/

/-- The id of a target that the pattern reaches. -/
def Globbed (target : String) : Prop := "backup".toList <+: target.toList

instance (target : String) : Decidable (Globbed target) := inferInstanceAs (Decidable (_ <+: _))

/-- A prefix without a character ends before it. -/
theorem isPrefix_append_cons_iff {α : Type} {p l rest : List α} {c : α} (hc : c ∉ p) :
    p <+: l ++ c :: rest ↔ p <+: l := by
  constructor
  · intro h
    rcases List.prefix_or_prefix_of_prefix h (List.prefix_append l (c :: rest)) with hp | hl
    · exact hp
    · obtain ⟨tail, rfl⟩ := hl
      rw [List.prefix_append_right_inj] at h
      cases tail with
      | nil => simp
      | cons d tail =>
          obtain ⟨rfl, _⟩ := List.cons_prefix_cons.mp h
          exact absurd (by simp) hc
  · exact fun h => h.trans (List.prefix_append l _)

/-- The pattern reaches a directory exactly where it reaches the target. -/
theorem globbed_backupId (target stamp suffix : String) :
    Globbed s!"{target}-{stamp}-{suffix}" ↔ Globbed target := by
  have hlist : s!"{target}-{stamp}-{suffix}".toList =
      target.toList ++ '-' :: (stamp ++ "-" ++ suffix).toList := by
    change (target ++ "-" ++ stamp ++ "-" ++ suffix).toList = _
    simp
  rw [Globbed, hlist, isPrefix_append_cons_iff (by decide)]
  exact Iff.rfl

theorem path_of_evidenceFile {bid : String} {folder : Folder} {file : EvidenceFile}
    (h : evidenceFile bid folder = some file) :
    folder.evidence ≠ .missing ∧ file.path = [bid, "backup-manifest.json"] ∧
      file.mtime = folder.mtime := by
  unfold evidenceFile at h
  split at h
  · cases h
  · rename_i hevidence
    rw [← Option.some.inj h, hevidence]
    exact ⟨by simp, rfl, rfl⟩
  · rename_i hevidence
    rw [← Option.some.inj h, hevidence]
    exact ⟨by simp, rfl, rfl⟩

theorem exists_evidenceFile {bid : String} {folder : Folder} (h : folder.evidence ≠ .missing) :
    ∃ file, evidenceFile bid folder = some file := by
  unfold evidenceFile
  split
  · contradiction
  · exact ⟨_, rfl⟩
  · exact ⟨_, rfl⟩

theorem mem_evidenceFiles {root : Root} {file : EvidenceFile} :
    file ∈ evidenceFiles root ↔
      ∃ bid folder, root.get? bid = some folder ∧ evidenceFile bid folder = some file := by
  rw [evidenceFiles, List.mem_filterMap]
  constructor
  · rintro ⟨⟨bid, folder⟩, hmem, hfile⟩
    exact ⟨bid, folder, Dict.get?_of_mem_entries hmem, hfile⟩
  · rintro ⟨bid, folder, hget, hfile⟩
    exact ⟨(bid, folder), Dict.mem_entries_of_get? hget, hfile⟩

/-- A file with evidence of a target that the pattern reaches. -/
def Reached (store : Store) (bid : String) (folder : Folder) : Prop :=
  store.root.get? bid = some folder ∧ folder.evidence ≠ .missing ∧
    ∃ target, store.targetOf bid = some target ∧ Globbed target

/-- The id of the target decides: it is reached, its latest backup has evidence, and
every other evidence that is reached is older; or there is neither. -/
def LatestReached (store : Store) (target : String) : Prop :=
  (store.latest target = none ∧ ∀ bid folder, ¬ Reached store bid folder) ∨
    ∃ bid folder, store.latest target = some bid ∧ Reached store bid folder ∧
      ∀ other folder', Reached store other folder' → other ≠ bid → folder'.mtime < folder.mtime

section Search

variable {registry : Registry} {store : Store} {files : List EvidenceFile}

/-- The files that the pattern finds. -/
theorem mem_filter_besideRoot (h : store.Sound registry)
    (hfiles : files.Perm (evidenceFiles store.root)) {file : EvidenceFile} :
    file ∈ files.filter EvidenceFile.besideRoot ↔
      ∃ bid folder, Reached store bid folder ∧ evidenceFile bid folder = some file := by
  rw [List.mem_filter, hfiles.mem_iff, mem_evidenceFiles]
  have hreached : ∀ bid folder, store.root.get? bid = some folder →
      evidenceFile bid folder = some file →
        (file.besideRoot ↔ ∃ target, store.targetOf bid = some target ∧ Globbed target) := by
    intro bid folder hget hfile
    obtain ⟨hevidence, hpath, _⟩ := path_of_evidenceFile hfile
    have hfiled := h bid folder hget
    obtain ⟨manifest, hmanifest⟩ := hfiled.listed hevidence
    obtain ⟨stamp, suffix, hbid⟩ := hfiled.named manifest hmanifest
    have htarget : store.targetOf bid = some manifest.targetId := by
      rw [Store.targetOf, showBackup_of_get? hget hmanifest]
      rfl
    have hbeside : file.besideRoot = "backup".toList.isPrefixOf bid.toList := by
      rw [EvidenceFile.besideRoot, hpath]
    rw [hbeside, List.isPrefixOf_iff_prefix, htarget]
    simp only [Option.some.injEq, exists_eq_left']
    rw [← globbed_backupId manifest.targetId stamp suffix, ← hbid]
    rfl
  constructor
  · rintro ⟨⟨bid, folder, hget, hfile⟩, hbeside⟩
    exact ⟨bid, folder, ⟨hget, (path_of_evidenceFile hfile).1,
      (hreached bid folder hget hfile).mp hbeside⟩, hfile⟩
  · rintro ⟨bid, folder, ⟨hget, _, htarget⟩, hfile⟩
    exact ⟨⟨bid, folder, hget, hfile⟩, (hreached bid folder hget hfile).mpr htarget⟩

/-- What the observatory finds beneath the backup root. -/
theorem backup_eq (hfiles : files.Perm (evidenceFiles store.root)) (sources : Sources)
    (integrationId : String) :
    backup { sources with backupRoot := some files } integrationId =
      (Retention.newest EvidenceFile.mtime (files.filter EvidenceFile.besideRoot)).map
        EvidenceFile.summary := by
  have hnone : files.filter EvidenceFile.inBackups = [] := by
    refine List.filter_eq_nil_iff.mpr fun file hmem => ?_
    obtain ⟨bid, folder, _, hfile⟩ := mem_evidenceFiles.mp (hfiles.mem_iff.mp hmem)
    rw [EvidenceFile.inBackups, (path_of_evidenceFile hfile).2.1]
    simp
  change (evidence files).head?.map _ = _
  rw [evidence, hnone, List.append_nil]
  rfl

/-- A file that the pattern finds, by its path. -/
theorem reached_of_path (h : store.Sound registry)
    (hfiles : files.Perm (evidenceFiles store.root)) {file : EvidenceFile}
    (hmem : file ∈ files.filter EvidenceFile.besideRoot) {bid : String}
    (hpath : file.path = [bid, "backup-manifest.json"]) :
    ∃ folder, Reached store bid folder ∧ file.mtime = folder.mtime := by
  obtain ⟨bid', folder, hreached, hmade⟩ := (mem_filter_besideRoot h hfiles).mp hmem
  obtain ⟨_, hpath', hmtime⟩ := path_of_evidenceFile hmade
  rw [hpath'] at hpath
  obtain rfl := (List.cons.inj hpath).1
  exact ⟨folder, hreached, hmtime⟩

/-- A directory that is reached has a file that the pattern finds. -/
theorem Reached.exists_file {bid : String} {folder : Folder} (hreached : Reached store bid folder)
    (h : store.Sound registry) :
    ∃ file ∈ (evidenceFiles store.root).filter EvidenceFile.besideRoot,
      file.path = [bid, "backup-manifest.json"] ∧ file.mtime = folder.mtime := by
  obtain ⟨file, hmade⟩ := exists_evidenceFile hreached.2.1
  exact ⟨file, (mem_filter_besideRoot h (List.Perm.refl _)).mpr ⟨bid, folder, hreached, hmade⟩,
    (path_of_evidenceFile hmade).2⟩

theorem Reached.unique {bid : String} {folder folder' : Folder} (h : Reached store bid folder)
    (h' : Reached store bid folder') : folder = folder' :=
  Option.some.inj (h.1.symm.trans h'.1)

/-- The path of the newest file that the pattern finds. -/
def newestPath (files : List EvidenceFile) : Option (List String) :=
  (Retention.newest EvidenceFile.mtime (files.filter EvidenceFile.besideRoot)).map
    EvidenceFile.path

/-- The newest file is that of the latest backup, in whatever order the directory is
read, exactly where the latest backup is reached and newer than the rest. -/
theorem newestPath_iff (h : store.Sound registry) (target : String) :
    (∀ files : List EvidenceFile, files.Perm (evidenceFiles store.root) →
      newestPath files = (store.latest target).map fun bid => [bid, "backup-manifest.json"]) ↔
        LatestReached store target := by
  constructor
  · intro hall
    cases hlatest : store.latest target with
    | none =>
        refine .inl ⟨hlatest, fun bid folder hreached => ?_⟩
        obtain ⟨file, hmem, _⟩ := hreached.exists_file h
        have hnone := hall _ (List.Perm.refl _)
        rw [hlatest, newestPath, Option.map_none, Option.map_eq_none_iff,
          Retention.newest_eq_none_iff] at hnone
        rw [hnone] at hmem
        cases hmem
    | some bid =>
        have hfound : ∀ files : List EvidenceFile, files.Perm (evidenceFiles store.root) →
            ∃ file folder, Retention.newest EvidenceFile.mtime
              (files.filter EvidenceFile.besideRoot) = some file ∧
              file.path = [bid, "backup-manifest.json"] ∧ Reached store bid folder ∧
              file.mtime = folder.mtime := by
          intro files hfiles
          have hpath := hall files hfiles
          rw [hlatest, newestPath] at hpath
          obtain ⟨file, hnewest, hpath⟩ := Option.map_eq_some_iff.mp hpath
          obtain ⟨folder, hreached, hmtime⟩ :=
            reached_of_path h hfiles (Retention.le_of_newest hnewest).1 hpath
          exact ⟨file, folder, hnewest, hpath, hreached, hmtime⟩
        obtain ⟨_, folder, _, _, hreached, _⟩ := hfound _ (List.Perm.refl _)
        refine .inr ⟨bid, folder, hlatest, hreached, fun other folder' hother hne => ?_⟩
        -- a directory that is read with the other file first
        obtain ⟨file', hmem', hpath', hmtime'⟩ := hother.exists_file h
        obtain ⟨hin, hbeside⟩ := List.mem_filter.mp hmem'
        obtain ⟨file, folder'', hnewest, hpath, hreached'', hmtime⟩ :=
          hfound _ (List.perm_cons_erase hin).symm
        rw [List.filter_cons_of_pos hbeside] at hnewest
        have hdistinct : file ≠ file' := by
          rintro rfl
          rw [hpath'] at hpath
          exact hne (List.cons.inj hpath).1
        have hlt := Retention.lt_of_newest_cons hnewest hdistinct
        rwa [hmtime', hmtime, hreached''.unique hreached] at hlt
  · rintro (⟨hlatest, hnone⟩ | ⟨bid, folder, hlatest, hreached, hnewer⟩) files hfiles
    · have hempty : files.filter EvidenceFile.besideRoot = [] := by
        rw [List.eq_nil_iff_forall_not_mem]
        intro file hmem
        obtain ⟨bid, folder, hreached, _⟩ := (mem_filter_besideRoot h hfiles).mp hmem
        exact hnone bid folder hreached
      rw [hlatest, newestPath, (Retention.newest_eq_none_iff _).mpr hempty]
      rfl
    · obtain ⟨file, hmade⟩ := exists_evidenceFile hreached.2.1
      have hmem := (mem_filter_besideRoot h hfiles).mpr ⟨bid, folder, hreached, hmade⟩
      have hnewest := Retention.newest_eq_of_lt EvidenceFile.mtime hmem
        fun other hother hne => by
          obtain ⟨bid', folder', hreached', hmade'⟩ := (mem_filter_besideRoot h hfiles).mp hother
          have hbid : bid' ≠ bid := by
            rintro rfl
            rw [hreached'.unique hreached] at hmade'
            exact hne (Option.some.inj (hmade'.symm.trans hmade))
          rw [(path_of_evidenceFile hmade').2.2, (path_of_evidenceFile hmade).2.2]
          exact hnewer bid' folder' hreached' hbid
      rw [hlatest, newestPath, hnewest, Option.map_some, (path_of_evidenceFile hmade).2.1]
      rfl

end Search

/-! ## What a service is shown -/

/-- With the right backup, the alert is right. -/
theorem attributed_iff_shown {store : Store} {item : ServiceSummary} :
    Attributed store item ↔ item.backup.map (·.manifest) =
      (store.latest item.id).map fun bid => [bid, "backup-manifest.json"] := by
  refine ⟨Attributed.shown, fun hshown => ⟨hshown, ?_⟩⟩
  rw [noBackup_alert_iff, ← Option.map_eq_none_iff (f := BackupSummary.manifest), hshown,
    Option.map_eq_none_iff]

/-- Backups are of services with an integration. -/
theorem latest_eq_none {registry : Registry} {store : Store} (h : store.Sound registry)
    {service : Service} (hservice : service ∈ registry.services)
    (hintegration : given service.integrationId = none) : store.latest service.id = none := by
  cases hlatest : store.latest service.id with
  | none => rfl
  | some bid =>
      have htarget : store.targetOf bid = some service.id := by
        simpa using List.find?_some hlatest
      obtain ⟨manifest, hshow, hid⟩ := Option.map_eq_some_iff.mp htarget
      have hshow := Except.toOption_eq_some.mp hshow
      unfold showBackup at hshow
      split at hshow
      · cases hshow
      · rename_i folder hget
        split at hshow
        · cases hshow
        · cases hshow
        · rename_i manifest' hmanifest
          obtain rfl := Except.ok.inj hshow
          obtain ⟨owner, howner, howned, hgiven⟩ := (h bid folder hget).declared manifest' hmanifest
          obtain rfl := Registry.eq_of_id_eq howner hservice (howned.trans hid)
          exact absurd hintegration hgiven

/-- What every snapshot of the observatory shows for a service. -/
def ShownIn (registry : Registry) (sources : Sources) (service : Service)
    (p : ServiceSummary → Prop) : Prop :=
  ∀ summaries item, services registry sources = .ok summaries → item ∈ summaries →
    item.id = service.id → p item

section Attribution

variable {registry : Registry} {store : Store} {sources : Sources} {service : Service}

/-- The backup that a snapshot shows, where snapshots can be taken. -/
theorem shownIn_attributed_iff (hservice : service ∈ registry.services)
    {summaries : List ServiceSummary} (hsummaries : services registry sources = .ok summaries)
    {files : List EvidenceFile} (hfiles : files.Perm (evidenceFiles store.root)) :
    ShownIn registry { sources with backupRoot := some files } service (Attributed store) ↔
      ((given service.integrationId).bind fun _ => newestPath files) =
        (store.latest service.id).map fun bid => [bid, "backup-manifest.json"] := by
  have hshown : ∀ declaration : UltimateBBSBox.Declaration, declaration.service = service →
      (Attributed store (summarize { sources with backupRoot := some files } declaration) ↔
        ((given service.integrationId).bind fun _ => newestPath files) =
          (store.latest service.id).map fun bid => [bid, "backup-manifest.json"]) := by
    rintro declaration rfl
    rw [attributed_iff_shown]
    change ((given declaration.service.integrationId).bind
      (backup { sources with backupRoot := some files })).map _ = _ ↔ _
    cases given declaration.service.integrationId with
    | none => rfl
    | some integrationId =>
        rw [Option.bind_some, Option.bind_some, backup_eq hfiles, Option.map_map]
        rfl
  obtain ⟨summaries', hsummaries'⟩ := services_ok hsummaries
  constructor
  · intro hall
    obtain ⟨item, hitem, hid⟩ := exists_summary hsummaries' hservice
    obtain ⟨declaration, _, hdeclaration, rfl⟩ := summary_of_id hsummaries' hitem hservice hid
    exact (hshown declaration hdeclaration).mp (hall summaries' _ hsummaries' hitem hid)
  · intro heq summaries item hsummaries hitem hid
    obtain ⟨declaration, _, hdeclaration, rfl⟩ := summary_of_id hsummaries hitem hservice hid
    exact (hshown declaration hdeclaration).mpr heq

end Attribution

/-- The backup of a service is listed, but the snapshot shows none. -/
theorem listed_backup_not_shown :
    ¬ ∀ (registry : Registry) (service : Service), service ∈ registry.services →
      ∀ (sources : Sources) (summaries : List ServiceSummary),
        services registry sources = .ok summaries →
        ∀ store : Store, Machine.Run (Store.step fun _ => "")
            (fun _ call => DeclaresServices registry call) .empty store →
          ∀ files : List EvidenceFile, files.Perm (evidenceFiles store.root) →
            ShownIn registry { sources with backupRoot := some files } service
              (Attributed store) := by
  intro hall
  have hexec : (Machine.exec (Store.step fun _ => "")
      (fun _ call => DeclaresServices (doorRegistry "door") call) .empty
      [backupCall "door" (twoNames false)]).map (fun store =>
        (newestPath (evidenceFiles store.root), (store.latest "door").isSome)) =
      some (none, true) := by decide
  have hservices : (services (doorRegistry "door") (pendingSources "running")).toOption.isSome :=
    by decide
  obtain ⟨store, hstore, hobserved⟩ := Option.map_eq_some_iff.mp hexec
  obtain ⟨hpath, hlatest⟩ := Prod.mk.inj hobserved
  obtain ⟨summaries, hsummaries⟩ := Option.isSome_iff_exists.mp hservices
  have hok := Except.toOption_eq_some.mp hsummaries
  obtain ⟨service, hservice, hid⟩ : ∃ service ∈ (doorRegistry "door").services,
      service.id = "door" ∧ given service.integrationId ≠ none := by decide
  have hshown := hall (doorRegistry "door") service hservice _ _ hok store
    (Machine.run_of_exec hstore) _ (List.Perm.refl _)
  rw [shownIn_attributed_iff hservice hok (List.Perm.refl _), hpath, hid.1] at hshown
  obtain ⟨bid, hbid⟩ := Option.isSome_iff_exists.mp hlatest
  rw [hbid] at hshown
  cases hgiven : given service.integrationId with
  | none => exact hid.2 hgiven
  | some integrationId =>
      rw [hgiven] at hshown
      cases hshown

/-- **The attribution of evidence.**  A service is shown its latest backup, in whatever
order the backup root is read, exactly where it has no integration or `LatestReached`. -/
theorem attributed_iff (sha256 : List (Tar.Member Bytes) → String) (registry : Registry)
    {service : Service} (hservice : service ∈ registry.services) {sources : Sources}
    {summaries : List ServiceSummary} (hsummaries : services registry sources = .ok summaries)
    {store : Store} (hrun : Machine.Run (Store.step sha256)
      (fun _ call => DeclaresServices registry call) .empty store) :
    (∀ files : List EvidenceFile, files.Perm (evidenceFiles store.root) →
      ShownIn registry { sources with backupRoot := some files } service (Attributed store)) ↔
      given service.integrationId = none ∨ LatestReached store service.id := by
  have hsound := Store.sound_of_run hrun
  have hshown := fun (files : List EvidenceFile) (hfiles : files.Perm (evidenceFiles store.root)) =>
    shownIn_attributed_iff hservice hsummaries hfiles
  cases hintegration : given service.integrationId with
  | none =>
      refine iff_of_true (fun files hfiles => (hshown files hfiles).mpr ?_) (.inl rfl)
      rw [hintegration, latest_eq_none hsound hservice hintegration]
      rfl
  | some integrationId =>
      rw [← newestPath_iff hsound]
      simp only [reduceCtorEq, false_or]
      refine forall₂_congr fun files hfiles => ?_
      rw [hshown files hfiles, hintegration]
      rfl

/-- A service whose id the pattern reaches, with one backup that is found. -/
theorem attributed_iff_of_reached :
    ∃ (service : Service) (store : Store), service.id = "backup-door" ∧
      (newestPath (evidenceFiles store.root)).isSome ∧
      ((∀ files : List EvidenceFile, files.Perm (evidenceFiles store.root) →
        ShownIn (doorRegistry "backup-door")
          { pendingSources "running" with backupRoot := some files } service (Attributed store)) ↔
        given service.integrationId = none ∨ LatestReached store service.id) := by
  have hexec : (Machine.exec (Store.step fun _ => "")
      (fun _ call => DeclaresServices (doorRegistry "backup-door") call) .empty
      [backupCall "backup-door" (twoNames false)]).map (fun store =>
        (newestPath (evidenceFiles store.root)).isSome) = some true := by decide
  have hservices :
      (services (doorRegistry "backup-door") (pendingSources "running")).toOption.isSome := by
    decide
  obtain ⟨store, hstore, hfound⟩ := Option.map_eq_some_iff.mp hexec
  obtain ⟨summaries, hsummaries⟩ := Option.isSome_iff_exists.mp hservices
  obtain ⟨service, hservice, hid⟩ : ∃ service ∈ (doorRegistry "backup-door").services,
      service.id = "backup-door" := by decide
  exact ⟨service, store, hid, hfound,
    attributed_iff (fun _ => "") (doorRegistry "backup-door") hservice
      (Except.toOption_eq_some.mp hsummaries) (Machine.run_of_exec hstore)⟩

end UltimateBBSBox.Backup
