import UltimateBBSBox.Backup.Operations
import UltimateBBSBox.Library.Check
import UltimateBBSBox.Library.Machine

/-!
# Backups and what they restore

Calls of `create` follow one another, each with its own declarations and living
state, and each may fail or be cut off after any of its file operations.  `World`
remembers beside the root what every backup was made of.

A backup that is listed has its payload complete and under its digest (`Genuine`),
whatever happened to the calls.  It passes `verify` and restores what it was made
of exactly where no two files of that are hard links of one another
(`roundTrip_iff`): the archive stores the second one as a link, which `verify` and
`restore` refuse.
-/

namespace UltimateBBSBox.Backup

open Tar

/-! ## What a backup is made of -/

/-- A living state, with the names that its declaration excludes. -/
structure Source where
  excluded : List String
  tree : Tree

namespace Source

/-- The regular files that are not excluded. -/
def File (source : Source) (path : Parts) (inode : ℕ) : Prop :=
  source.tree.entries.get? path = some (.regular inode) ∧ ∀ part ∈ path, part ∉ source.excluded

/-- No two files are hard links of one another. -/
def Separate (source : Source) : Prop :=
  ∀ path path' inode, source.File path inode → source.File path' inode → path = path'

/-- The files that the loop of `create` adds. -/
def kept (excluded : List String) (entries : List (Parts × Entry)) : List (Parts × ℕ) :=
  entries.filterMap fun entry =>
    match entry.2 with
    | .regular inode => if passedOver excluded entry.1 then none else some (entry.1, inode)
    | .directory | .symlink => none

/-- The files of a source, in the order of the archive. -/
def files (source : Source) : List (Parts × ℕ) := kept source.excluded source.tree.sorted

end Source

/-- An archive has the files that are kept. -/
theorem archive_eq_ok {content : ℕ → Bytes} {excluded : List String} {inodes : Dict ℕ Parts}
    {entries : List (Parts × Entry)} {members : List (Member Bytes)}
    (h : archive content excluded inodes entries = .ok members) :
    members = addAll content inodes (Source.kept excluded entries) := by
  induction entries generalizing inodes members with
  | nil => exact (Except.ok.inj h).symm
  | cons entry rest ih =>
      obtain ⟨path, entry⟩ := entry
      cases entry with
      | symlink => cases h
      | directory => exact ih h
      | regular inode =>
          rw [archive] at h
          split at h
          · rename_i hpassed
            rw [ih h]
            simp [Source.kept, hpassed]
          · rename_i hpassed
            generalize hadd : add inodes path inode (content inode) = added at h
            obtain ⟨others, hothers, h⟩ := Except.bind_eq_ok.mp h
            rw [← Except.pure_eq_ok.mp h, ih hothers]
            simp [Source.kept, hpassed, addAll, hadd]

/-- The names of a tree are neither absolute nor do they lead upwards. -/
theorem Tree.passedOver_iff (tree : Tree) {path : Parts} {entry : Entry}
    (h : tree.entries.get? path = some entry) (excluded : List String) :
    passedOver excluded path ↔ ∃ part ∈ path, part ∈ excluded := by
  have hnames := tree.names path entry h
  have hrelative : isAbsolute path = false := by
    cases path with
    | nil => rfl
    | cons name rest =>
        have hname := (hnames name (List.mem_cons_self ..)).2
        simp only [isAbsolute, List.head?_cons, Option.some.injEq, decide_eq_false_iff_not]
        rintro rfl
        exact hname (by decide)
  have hdots : ".." ∉ path := fun hmem => (hnames ".." hmem).1 (by decide)
  simp [passedOver, hrelative, hdots]

namespace Source

variable {source : Source} {path : Parts} {inode : ℕ}

theorem mem_files : (path, inode) ∈ source.files ↔ source.File path inode := by
  have hentry : ∀ entry : Parts × Entry, entry ∈ source.tree.sorted ↔
      source.tree.entries.get? entry.1 = some entry.2 := by
    intro entry
    rw [Tree.sorted, List.mem_insertionSort]
    exact ⟨Dict.get?_of_mem_entries, Dict.mem_entries_of_get?⟩
  unfold files kept File
  rw [List.mem_filterMap]
  constructor
  · rintro ⟨⟨path', entry⟩, hmem, hkept⟩
    have hget := (hentry _).mp hmem
    cases entry with
    | directory => cases hkept
    | symlink => cases hkept
    | regular inode' =>
        dsimp only at hkept
        split at hkept
        · cases hkept
        · rename_i hpassed
          obtain ⟨rfl, rfl⟩ := Prod.mk.inj (Option.some.inj hkept)
          rw [source.tree.passedOver_iff hget] at hpassed
          exact ⟨hget, fun part hpart hexcluded => hpassed ⟨part, hpart, hexcluded⟩⟩
  · rintro ⟨hget, hexcluded⟩
    refine ⟨(path, .regular inode), (hentry _).mpr hget, ?_⟩
    have hpassed : ¬ passedOver source.excluded path := by
      rw [source.tree.passedOver_iff hget]
      rintro ⟨part, hpart, hmem⟩
      exact hexcluded part hpart hmem
    exact if_neg hpassed

/-- No path comes twice. -/
theorem nodup_files (source : Source) : (source.files.map Prod.fst).Nodup := by
  have hsorted : (source.tree.sorted.map Prod.fst).Nodup :=
    ((List.perm_insertionSort _ _).map _).nodup_iff.mpr source.tree.entries.nodup
  refine hsorted.sublist ?_
  unfold files kept
  generalize source.tree.sorted = entries
  induction entries with
  | nil => simp
  | cons entry rest ih =>
      obtain ⟨path, entry⟩ := entry
      cases entry with
      | directory => simpa using ih.cons path
      | symlink => simpa using ih.cons path
      | regular inode =>
          by_cases hpassed : passedOver source.excluded path
          · simpa [hpassed] using ih.cons path
          · simpa [hpassed] using ih.cons_cons path

/-- No inode comes twice exactly where the files are separate. -/
theorem nodup_inodes_iff : (source.files.map Prod.snd).Nodup ↔ source.Separate := by
  have hfiles : source.files.Nodup := List.Nodup.of_map _ source.nodup_files
  rw [List.nodup_map_iff_inj_on hfiles]
  constructor
  · intro hinj path path' inode hfile hfile'
    exact (Prod.mk.inj (hinj _ (mem_files.mpr hfile) _ (mem_files.mpr hfile') rfl)).1
  · rintro hseparate ⟨path, inode⟩ hmem ⟨path', inode'⟩ hmem' rfl
    rw [hseparate path path' _ (mem_files.mp hmem) (mem_files.mp hmem')]

instance (source : Source) : Decidable source.Separate := decidable_of_iff _ nodup_inodes_iff

end Source

/-! ## Complete backups -/

variable {sha256 : List (Member Bytes) → String}

/-- A directory with the complete backup of a source. -/
structure Genuine (sha256 : List (Member Bytes) → String) (source : Source) (bid : String)
    (folder : Folder) (manifest : Manifest) : Prop where
  backupId : manifest.backupId = bid
  payloadName : manifest.payload = "payload.tar"
  payload : folder.payload = some (.whole (addAll source.tree.content ∅ source.files))
  digest : manifest.payloadSha256 = sha256 (addAll source.tree.content ∅ source.files)

/-- A backup passes `verify`, and restoring it into an empty directory gives exactly
the files of its source back. -/
structure RoundTrip (sha256 : List (Member Bytes) → String) (root : Root) (manifest : Manifest)
    (source : Source) : Prop where
  verified : verify sha256 root manifest.backupId = .ok { manifest with verification := "PASS" }
  restored : ∀ verified, ∃ files,
    restore sha256 root manifest.backupId manifest.targetId verified ∅ = .ok files ∧
      ∀ path content, files.get? path = some content ↔
        ∃ inode, source.File path inode ∧ source.tree.content inode = content

section Genuine

variable {root : Root} {bid : String} {folder : Folder} {manifest : Manifest} {source : Source}

theorem showBackup_of_get? (h : root.get? bid = some folder)
    (hmanifest : folder.manifest = .whole manifest) : showBackup root bid = .ok manifest := by
  rw [showBackup, h]
  dsimp only
  rw [hmanifest]

/-- The members of a genuine backup are refused exactly where one is a link. -/
theorem unsafe_iff : (addAll source.tree.content ∅ source.files).any unsafeMember = false ↔
    source.Separate := by
  have hnames : ∀ member ∈ addAll source.tree.content ∅ source.files,
      unsafeMember member = member.isLink := by
    intro member hmem
    have hname : member.name ∈ source.files.map Prod.fst := by
      rw [← name_of_addAll source.tree.content ∅]
      exact List.mem_map_of_mem hmem
    obtain ⟨⟨path, inode⟩, hfile, hpath⟩ := List.mem_map.mp hname
    obtain ⟨hget, hexcluded⟩ := Source.mem_files.mp hfile
    have hpassed : passedOver source.excluded path = false := by
      rw [Bool.eq_false_iff, ne_eq, source.tree.passedOver_iff hget]
      rintro ⟨part, hpart, hmem⟩
      exact hexcluded part hpart hmem
    rw [passedOver, Bool.or_eq_false_iff] at hpassed
    rw [unsafeMember, ← hpath, hpassed.1, Bool.false_or]
  have hfresh : Fresh (∅ : Dict ℕ Parts) source.files := fun inode first hget => by cases hget
  have hlinks : (∀ member ∈ addAll source.tree.content ∅ source.files, member.isLink = false) ↔
      (source.files.map Prod.snd).Nodup := by
    simpa using noLink_addAll_iff source.nodup_files hfresh
  rw [List.any_eq_false, ← Source.nodup_inodes_iff, ← hlinks]
  refine forall₂_congr fun member hmem => ?_
  rw [hnames member hmem, Bool.not_eq_true]

theorem payloadMembers_of_get? (h : root.get? bid = some folder)
    (hgenuine : Genuine sha256 source bid folder manifest) :
    payloadMembers root bid "payload.tar" =
      some (addAll source.tree.content ∅ source.files) := by
  simp [payloadMembers, h, hgenuine.payload]

/-- What `verify` says about a genuine backup. -/
theorem verify_genuine (h : root.get? bid = some folder)
    (hmanifest : folder.manifest = .whole manifest)
    (hgenuine : Genuine sha256 source bid folder manifest) :
    verify sha256 root bid =
      if (addAll source.tree.content ∅ source.files).any unsafeMember then
        .error (.backupError "unsafe backup payload")
      else .ok { manifest with verification := "PASS" } := by
  have hpayload := payloadMembers_of_get? h hgenuine
  simp [verify, showBackup_of_get? h hmanifest, hgenuine.payloadName, hpayload, hgenuine.digest,
    bind, Except.bind]

/-- The members of separate files come back from the archive. -/
theorem extractAll_files (hseparate : source.Separate) :
    ∃ files, extractAll ∅ (addAll source.tree.content ∅ source.files) = some files ∧
      ∀ path content, files.get? path = some content ↔
        ∃ inode, source.File path inode ∧ source.tree.content inode = content := by
  set members := source.files.map fun file => (file.1, source.tree.content file.2) with hmembers
  have harchive : addAll source.tree.content ∅ source.files =
      members.map fun member => ⟨member.1, .regular member.2⟩ := by
    rw [hmembers, List.map_map]
    exact addAll_eq_of_nodup _ (Source.nodup_inodes_iff.mpr hseparate) fun inode _ => rfl
  have hpaths : members.map Prod.fst = source.files.map Prod.fst := by
    rw [hmembers, List.map_map]
    rfl
  -- a file is a leaf, so no file is beneath another
  have hbeneath : ∀ path ∈ source.files.map Prod.fst, ∀ above ∈ source.files.map Prod.fst,
      ¬ Beneath path above := by
    intro path hpath above habove
    obtain ⟨⟨_, inode⟩, hfile, rfl⟩ := List.mem_map.mp hpath
    obtain ⟨⟨_, inode'⟩, hfile', rfl⟩ := List.mem_map.mp habove
    exact source.tree.leaves _ _ (Source.mem_files.mp hfile').1 (by simp) _ _
      (Source.mem_files.mp hfile).1
  have hnames : (members.map Prod.fst).Nodup := by
    rw [hpaths]
    exact source.nodup_files
  have hapart : ∀ path ∈ members.map Prod.fst, ∀ above, above ∈ members.map Prod.fst ∨
      above ∈ (∅ : Dict Parts Bytes).entries.map Prod.fst →
        ¬ Beneath path above ∧ ¬ Beneath above path := by
    rw [hpaths]
    rintro path hpath above (habove | hnone)
    · exact ⟨hbeneath path hpath above habove, hbeneath above habove path hpath⟩
    · cases hnone
  obtain ⟨files, hextracted, hget⟩ := get?_extractAll ∅ hnames hapart
  refine ⟨files, ?_, fun path content => ?_⟩
  · rw [harchive]
    exact hextracted
  · rw [hget, hmembers]
    simp only [Dict.get?_empty, reduceCtorEq, and_false, or_false, List.mem_map, Prod.mk.injEq,
      Prod.exists]
    constructor
    · rintro ⟨_, inode, hfile, rfl, hcontent⟩
      exact ⟨inode, Source.mem_files.mp hfile, hcontent⟩
    · rintro ⟨inode, hfile, hcontent⟩
      exact ⟨path, inode, Source.mem_files.mpr hfile, rfl, hcontent⟩

/-- A genuine backup makes the round trip exactly where its files are separate. -/
theorem roundTrip_iff (h : root.get? bid = some folder)
    (hmanifest : folder.manifest = .whole manifest)
    (hgenuine : Genuine sha256 source bid folder manifest) :
    RoundTrip sha256 root manifest source ↔ source.Separate := by
  obtain rfl := hgenuine.backupId
  have hverify := verify_genuine h hmanifest hgenuine
  constructor
  · intro htrip
    have hverified := htrip.verified
    rw [hverify] at hverified
    split at hverified
    · cases hverified
    · rename_i hsafe
      exact unsafe_iff.mp (Bool.eq_false_iff.mpr hsafe)
  · intro hseparate
    have hsafe := unsafe_iff.mpr hseparate
    rw [hsafe] at hverify
    obtain ⟨files, hextracted, hget⟩ := extractAll_files hseparate
    have hplan : restorePlan root manifest.backupId manifest.targetId = .ok manifest.components := by
      rw [restorePlan, showBackup_of_get? h hmanifest]
      exact if_neg (not_not.mpr rfl)
    refine ⟨hverify, fun verified => ⟨files, ?_, hget⟩⟩
    cases verified <;>
      simp [restore, hverify, hplan, payloadMembers_of_get? h hgenuine, hsafe, hextracted, discard,
        bind, Except.bind, Functor.mapConst, Except.map]

end Genuine

/-! ## What calls leave in the root -/

/-- The folder of a genuine backup, if it has a manifest. -/
def Backed (sha256 : List (Member Bytes) → String) (made : String → Option Source) (bid : String)
    (folder : Folder) : Prop :=
  ∀ manifest, folder.manifest = .whole manifest →
    ∃ source, made bid = some source ∧ Genuine sha256 source bid folder manifest

/-! ## Calls one after the other -/

/-- The root, and what its backups were made of. -/
structure World where
  root : Root
  made : String → Option Source

/-- A call of `create` on a manager with these declarations. -/
structure Call where
  declarations : Dict String Declaration
  request : Request
  env : Environment

/-- What a call that passes the tests backs up. -/
def Call.source? (call : Call) : Option Source :=
  match checkRequest call.declarations call.request with
  | .ok (declaration, _, tree) => some ⟨declaration.excluded, tree⟩
  | .error _ => none

namespace World

/-- No backup yet. -/
def empty : World := ⟨∅, fun _ => none⟩

/-- What a call makes its backup of, where the name is free. -/
def remember (w : World) (call : Call) : String → Option Source :=
  let bid := backupId call.request call.env
  if w.root.get? bid = none ∧ call.source? ≠ none then Function.update w.made bid call.source?
  else w.made

/-- A call; `mkdtemp` draws a name that is not in use. -/
def step (sha256 : List (Member Bytes) → String) (w : World) (call : Call) :
    Option (Outcome × World) :=
  if w.root.get? call.env.staging ≠ none then none
  else
    let (outcome, root) := create sha256 call.declarations call.request call.env w.root
    some (outcome, ⟨root, w.remember call⟩)

theorem step_cases {w w' : World} {call : Call} {outcome : Outcome}
    (h : w.step sha256 call = some (outcome, w')) :
    w'.root = (create sha256 call.declarations call.request call.env w.root).2 ∧
      w'.made = w.remember call := by
  unfold World.step at h
  split at h
  · cases h
  · rw [← (Prod.mk.inj (Option.some.inj h)).2]
    exact ⟨rfl, rfl⟩

/-- Every listed backup is genuine. -/
def Sound (sha256 : List (Member Bytes) → String) (w : World) : Prop :=
  Everywhere (Backed sha256 w.made) w.root

/-- Whatever becomes of a call, the listed backups are genuine. -/
theorem Sound.step {w w' : World} (h : w.Sound sha256) {call : Call} {outcome : Outcome}
    (hstep : w.step sha256 call = some (outcome, w')) : w'.Sound sha256 := by
  obtain ⟨hroot, hmade'⟩ := step_cases hstep
  have hkept : Everywhere (Backed sha256 (w.remember call)) w.root := by
    intro bid folder hget manifest hmanifest
    obtain ⟨source, hmade, hgenuine⟩ := h bid folder hget manifest hmanifest
    refine ⟨source, ?_, hgenuine⟩
    unfold remember
    split
    · rename_i hfree
      have hne : bid ≠ backupId call.request call.env := by
        rintro rfl
        rw [hfree.1] at hget
        cases hget
      rw [Function.update_of_ne hne, hmade]
    · exact hmade
  unfold Sound
  rw [hroot, hmade']
  refine hkept.create (fun bid folder hunfinished manifest hmanifest => ?_)
    fun declaration mode tree members hcheck harchive hnone folder hpayload hmanifest => ?_
  · have hnone := hunfinished.1
    rw [hmanifest] at hnone
    cases hnone
  · intro manifest hwhole
    obtain rfl := JsonFile.whole.inj (hmanifest.symm.trans hwhole)
    have hsource : call.source? = some ⟨declaration.excluded, tree⟩ := by
      rw [Call.source?, hcheck]
    have hfree : w.root.get? (backupId call.request call.env) = none ∧ call.source? ≠ none :=
      ⟨hnone, by rw [hsource]; simp⟩
    have hmembers : members = addAll tree.content ∅ (Source.files ⟨declaration.excluded, tree⟩) :=
      archive_eq_ok harchive
    refine ⟨⟨declaration.excluded, tree⟩, ?_, rfl, rfl, ?_, congrArg sha256 hmembers⟩
    · rw [remember, if_pos hfree, Function.update_self, hsource]
    · rw [hpayload, hmembers]

/-- Where every call finds separate files, so has every backup. -/
def Separate (w : World) : Prop := ∀ bid source, w.made bid = some source → source.Separate

theorem Separate.step {w w' : World} (h : w.Separate) {call : Call} {outcome : Outcome}
    (hcall : ∀ source ∈ call.source?, source.Separate)
    (hstep : w.step sha256 call = some (outcome, w')) : w'.Separate := by
  intro bid source hmade
  rw [(step_cases hstep).2] at hmade
  unfold remember at hmade
  split at hmade
  · rw [Function.update_apply] at hmade
    split at hmade
    · exact hcall source hmade
    · exact h bid source hmade
  · exact h bid source hmade

end World

/-- What `list` returns are the manifests that parse. -/
theorem mem_list {root : Root} {manifest : Manifest} :
    manifest ∈ list root none ↔
      ∃ bid folder, root.get? bid = some folder ∧ folder.manifest = .whole manifest := by
  have hwhole : ∀ file : JsonFile, file.manifest? = some manifest ↔ file = .whole manifest := by
    intro file
    cases file <;> simp [JsonFile.manifest?]
  simp only [list, true_or, decide_true, List.filter_true, List.mem_filterMap, Dict.mem_values_iff,
    Dict.get?_sortKeys, hwhole]
  constructor
  · rintro ⟨folder, ⟨bid, hget⟩, hmanifest⟩
    exact ⟨bid, folder, hget, hmanifest⟩
  · rintro ⟨bid, folder, hget, hmanifest⟩
    exact ⟨folder, ⟨bid, hget⟩, hmanifest⟩

/-- Two names in the living state of a BBS, of one file or of two. -/
def twoNames (linked : Bool) : Tree where
  entries := Dict.ofList [(["users"], .directory), (["users", "db"], .regular 7),
    (["users", "db.bak"], .regular (if linked then 7 else 8))]
  content inode := [inode.toUInt8]
  names := by cases linked <;> decide
  leaves := by cases linked <;> decide

/-- A backup of this living state that runs to its end. -/
def backupCall (target : String) (tree : Tree) : Call where
  declarations := Dict.ofList [(target, Declaration.default)]
  request := ⟨target, 0, none, some tree⟩
  env := ⟨"20260101T000000Z", "0a1b2c3d", ".backup-x", "2026-01-01T00:00:00+00:00", 0, .completes⟩

/-- A backup with a hard link is listed, but does not pass `verify`. -/
theorem hardLink_not_verified :
    ¬ ∀ (w : World), Machine.Run (World.step fun _ => "") (fun _ _ => True) .empty w →
      ∀ manifest ∈ list w.root none, ∀ source, w.made manifest.backupId = some source →
        RoundTrip (fun _ => "") w.root manifest source := by
  intro hall
  have hexec : (Machine.exec (World.step fun _ => "") (fun _ _ => True) .empty
      [backupCall "mystic" (twoNames true)]).bind (fun w => (list w.root none).head?.map fun manifest =>
        (verify (fun _ => "") w.root manifest.backupId, (w.made manifest.backupId).isSome)) =
      some (.error (.backupError "unsafe backup payload"), true) := by decide
  obtain ⟨w, hw, hobserved⟩ := Option.bind_eq_some_iff.mp hexec
  obtain ⟨manifest, hlisted, hobserved⟩ := Option.map_eq_some_iff.mp hobserved
  obtain ⟨hverify, hmade⟩ := Prod.mk.inj hobserved
  obtain ⟨source, hsource⟩ := Option.isSome_iff_exists.mp hmade
  have htrip := hall w (Machine.run_of_exec hw) manifest (List.mem_of_mem_head? hlisted) source
    hsource
  rw [htrip.verified] at hverify
  cases hverify

/-- **The round trip.**  After any calls, whatever became of them, a listed backup
makes the round trip exactly where no two files that it was made of are hard links
of one another; and where every call finds such files only, every listed backup
makes it. -/
theorem backups_round_trip (sha256 : List (Member Bytes) → String) :
    (∀ w, Machine.Run (World.step sha256) (fun _ _ => True) .empty w →
      ∀ manifest ∈ list w.root none, ∃ source, w.made manifest.backupId = some source ∧
        (RoundTrip sha256 w.root manifest source ↔ source.Separate)) ∧
    (∀ w, Machine.Run (World.step sha256)
        (fun _ call => ∀ source ∈ call.source?, source.Separate) .empty w →
      ∀ manifest ∈ list w.root none, ∃ source, w.made manifest.backupId = some source ∧
        RoundTrip sha256 w.root manifest source) := by
  have hexact : ∀ w : World, w.Sound sha256 → ∀ manifest ∈ list w.root none, ∃ source,
      w.made manifest.backupId = some source ∧
        (RoundTrip sha256 w.root manifest source ↔ source.Separate) := by
    intro w hsound manifest hmem
    obtain ⟨bid, folder, hget, hmanifest⟩ := mem_list.mp hmem
    obtain ⟨source, hmade, hgenuine⟩ := hsound bid folder hget manifest hmanifest
    have hiff := roundTrip_iff hget hmanifest hgenuine
    rw [← hgenuine.backupId] at hmade
    exact ⟨source, hmade, hiff⟩
  have hempty : World.empty.Sound sha256 := Everywhere.empty
  constructor
  · intro w hrun
    exact hexact w (hrun.invariant hempty fun w call outcome w' h _ hstep => h.step hstep)
  · intro w hrun manifest hmem
    have hboth : w.Sound sha256 ∧ w.Separate :=
      hrun.invariant (P := fun w => w.Sound sha256 ∧ w.Separate)
        ⟨hempty, fun bid source hmade => by cases hmade⟩
        fun w call outcome w' h hcall hstep => ⟨h.1.step hstep, h.2.step hcall hstep⟩
    obtain ⟨source, hmade, hiff⟩ := hexact w hboth.1 manifest hmem
    exact ⟨source, hmade, hiff.mpr (hboth.2 _ source hmade)⟩

/-- A call that is cut off, and one that runs to its end. -/
theorem backups_round_trip_of_two_calls :
    ∃ (w : World) (manifest : Manifest) (source : Source), list w.root none = [manifest] ∧
      w.made manifest.backupId = some source ∧ RoundTrip (fun _ => "") w.root manifest source := by
  have hexec : (Machine.exec (World.step fun _ => "")
      (fun _ call => ∀ source ∈ call.source?, source.Separate) .empty
      [{ backupCall "mystic" (twoNames false) with
          env := ⟨"20251231T000000Z", "4e5f6071", ".backup-y", "", 0, .crashes 6⟩ },
        backupCall "mystic" (twoNames false)]).bind (fun w => (list w.root none).head?.map fun manifest =>
          list w.root none == [manifest]) = some true := by decide
  obtain ⟨w, hw, hobserved⟩ := Option.bind_eq_some_iff.mp hexec
  obtain ⟨manifest, hlisted, hone⟩ := Option.map_eq_some_iff.mp hobserved
  obtain ⟨source, hmade, htrip⟩ := (backups_round_trip fun _ => "").2 w (Machine.run_of_exec hw)
    manifest (List.mem_of_mem_head? hlisted)
  exact ⟨w, manifest, source, beq_iff_eq.mp hone, hmade, htrip⟩

end UltimateBBSBox.Backup
