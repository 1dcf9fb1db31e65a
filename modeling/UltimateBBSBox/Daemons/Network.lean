import UltimateBBSBox.Daemons.Fields
import UltimateBBSBox.Library.Check
import UltimateBBSBox.Library.Networks

/-!
# DNS and NTP

`DNSConfig` and `NTPConfig` of `ubb_network.py`.  The upstreams of DNS, which neither
construction nor rendering reads, are left out; the values of records are texts.
-/

namespace UltimateBBSBox.Daemons

open CodePoint (ofChar)
open Url (Unicode)
open Except (refuse)
open Hostname (isLabel withoutDots)

namespace Network

/-- `NetworkConfigError`. -/
structure NetworkConfigError where
  message : String
deriving DecidableEq

def domain (U : Unicode) (value : Text) : Except NetworkConfigError Text :=
  let value := withoutDots (U.lower value)
  if value = [] ∨ 253 < value.length ∨
      ∃ label ∈ value.splitOn (ofChar '.'), isLabel label = false then
    .error ⟨"invalid DNS domain"⟩
  else .ok value

def address (value : Text) : Except NetworkConfigError Text :=
  match Address.ipAddress value with
  | some text => .ok text
  | none => .error ⟨"invalid IP address"⟩

def network (value : Text) : Except NetworkConfigError Text :=
  match Address.ipNetwork value with
  | some text => .ok text
  | none => .error ⟨"invalid trusted network"⟩

/-! ## DNS -/

/-- A record. -/
structure DNSRecord where
  name : Text
  type : Text
  value : Text
deriving DecidableEq

/-- `(x['name'], x['type'], x['value'])` in order. -/
def DNSRecord.before (x y : DNSRecord) : Prop :=
  x.name < y.name ∨ (x.name = y.name ∧
    (x.type < y.type ∨ (x.type = y.type ∧ x.value ≤ y.value)))

instance : DecidableRel DNSRecord.before := fun x y =>
  inferInstanceAs (Decidable (x.name < y.name ∨ (x.name = y.name ∧
    (x.type < y.type ∨ (x.type = y.type ∧ x.value ≤ y.value)))))

/-- The type of a record, and its value for that type. -/
def DNSRecord.check (U : Unicode) (record : DNSRecord) : Except NetworkConfigError Unit :=
  if record.type ∈ [Text.of "A", .of "AAAA"] then do
    let _ ← address record.value
  else if record.type = .of "CNAME" then do
    let _ ← domain U record.value
  else .error ⟨"unsupported DNS record type"⟩

/-- The loop over the records, with the names and types seen so far. -/
def checkRecords (U : Unicode) (names : List (Text × Text)) :
    List DNSRecord → Except NetworkConfigError Unit
  | [] => .ok ()
  | record :: rest => do
      let name ← domain U record.name
      refuse ((name, record.type) ∈ names) ⟨"duplicate DNS record"⟩
      record.check U
      checkRecords U ((name, record.type) :: names) rest

/-- `DNSConfig`. -/
structure DNSConfig where
  internalDomain : Text
  listen : List Text
  trustedNetworks : List Text
  recursion : Bool
  records : List DNSRecord

namespace DNSConfig

/-- `DNSConfig.__post_init__`: what is constructed of the fields as they are written. -/
def postInit (U : Unicode) (config : DNSConfig) : Except NetworkConfigError DNSConfig := do
  let internalDomain ← domain U config.internalDomain
  let listen ← config.listen.mapM address
  let trustedNetworks ← config.trustedNetworks.mapM network
  checkRecords U [] config.records
  return { config with
    internalDomain := internalDomain
    listen := listen
    trustedNetworks := trustedNetworks }

/-- The line of a record, with its name in normal form. -/
def localLine (name : Text) (record : DNSRecord) : Text :=
  Text.of "local-data: \"" ++ name ++ .of " " ++ record.type ++ .of " " ++ record.value ++ .of "\""

def localData (U : Unicode) (record : DNSRecord) : Except NetworkConfigError Text := do
  return localLine (← domain U record.name) record

/-- The lines in front of the records. -/
def serverLines (config : DNSConfig) : List Text :=
  [Text.of "server:", Text.of "  interface: " ++ (Text.of ", ").intercalate config.listen] ++
    config.trustedNetworks.map (fun cidr => Text.of "  access-control: " ++ cidr ++ Text.of " allow") ++
    [Text.of "  access-control: 0.0.0.0/0 refuse", Text.of "  access-control: ::/0 refuse",
      Text.of "  do-ip4: yes", Text.of "  do-ip6: yes"] ++
    if config.recursion then [] else [Text.of "  do-not-query-localhost: no"]

def render (U : Unicode) (config : DNSConfig) : Except NetworkConfigError Text := do
  let records ← (config.records.insertionSort DNSRecord.before).mapM (localData U)
  return Daemons.render (config.serverLines ++ records)

/-- The configuration is one that construction makes. -/
def Accepted (U : Unicode) (config : DNSConfig) : Prop :=
  ∃ written : DNSConfig, written.postInit U = .ok config

end DNSConfig

/-! ## NTP -/

/-- `NTPConfig`. -/
structure NTPConfig where
  mode : Text
  trustedNetworks : List Text
  upstreams : List Text

namespace NTPConfig

/-- `NTPConfig.__post_init__`. -/
def postInit (config : NTPConfig) : Except NetworkConfigError NTPConfig := do
  refuse (config.mode ∉ [.of "client_only", .of "client_and_server"]) ⟨"invalid NTP mode"⟩
  let trustedNetworks ← config.trustedNetworks.mapM network
  return { config with trustedNetworks := trustedNetworks }

/-- The networks that are allowed. -/
def allowed (config : NTPConfig) : List Text :=
  if config.mode = .of "client_and_server" then config.trustedNetworks else []

def lines (config : NTPConfig) : List Text :=
  config.upstreams.map (fun x => .of "pool " ++ x ++ .of " iburst") ++
    config.allowed.map (fun x => .of "allow " ++ x)

def render (config : NTPConfig) : Text := Daemons.render config.lines

/-- The configuration is one that construction makes. -/
def Accepted (config : NTPConfig) : Prop :=
  ∃ written : NTPConfig, written.postInit = .ok config

end NTPConfig

/-! ## Lines -/

section Lines

variable {U : Unicode} {c : CodePoint} {value normal : Text} {record : DNSRecord}

theorem domain_eq_ok (h : domain U value = .ok normal) :
    normal = withoutDots (U.lower value) ∧
      ∀ label ∈ normal.splitOn (ofChar '.'), isLabel label = true := by
  unfold domain at h
  dsimp only at h
  split at h
  · cases h
  · rename_i hlabels
    cases h
    refine ⟨rfl, fun label hlabel => ?_⟩
    by_contra hnot
    exact hlabels (.inr (.inr ⟨label, hlabel, Bool.eq_false_of_not_eq_true hnot⟩))

/-- What construction asks of a record. -/
structure DNSRecord.Admitted (U : Unicode) (record : DNSRecord) : Prop where
  name : domain U record.name = .ok (withoutDots (U.lower record.name))
  value : record.type ∈ [Text.of "A", .of "AAAA"] ∨
    (record.type = .of "CNAME" ∧ ∃ normal, domain U record.value = .ok normal)

theorem admitted_of_checkRecords {names : List (Text × Text)} {records : List DNSRecord}
    (h : checkRecords U names records = .ok ()) : ∀ record ∈ records, record.Admitted U := by
  induction records generalizing names with
  | nil => exact fun record hrecord => absurd hrecord List.not_mem_nil
  | cons record rest ih =>
      simp only [checkRecords, Except.bind_eq_ok] at h
      obtain ⟨name, hname, _, -, _, hcheck, hrest⟩ := h
      refine List.forall_mem_cons.mpr ⟨⟨?_, ?_⟩, ih hrest⟩
      · rw [hname, (domain_eq_ok hname).1]
      · unfold DNSRecord.check at hcheck
        split at hcheck
        · rename_i htype
          exact .inl htype
        · split at hcheck
          · rename_i htype
            obtain ⟨normal, hnormal, -⟩ := Except.bind_eq_ok.mp hcheck
            exact .inr ⟨htype, normal, hnormal⟩
          · cases hcheck

/-- An address as a record gives it, which is neither rendered in normal form nor checked for
separators. -/
def DNSRecord.IsClean (record : DNSRecord) : Prop :=
  record.type ∈ [Text.of "A", .of "AAAA"] → newline ∉ record.value ∧ quote ∉ record.value

namespace DNSRecord.Admitted

variable (h : record.Admitted U)

include h

/-- Only the value of a record may have a separator. -/
theorem not_mem_name_type (hc : IsSeparator c) :
    c ∉ withoutDots (U.lower record.name) ∧ c ∉ record.type := by
  refine ⟨hc.not_mem_of_labels (domain_eq_ok h.name).2, ?_⟩
  rcases h.value with htype | ⟨htype, -⟩
  · simp only [List.mem_cons, List.not_mem_nil, or_false] at htype
    rcases htype with htype | htype
    · rw [htype]
      cases hc with
      | newline => decide
      | quote => decide
    · rw [htype]
      cases hc with
      | newline => decide
      | quote => decide
  · rw [htype]
    cases hc with
    | newline => decide
    | quote => decide

theorem isClean_iff : record.IsClean ↔ newline ∉ record.value ∧ quote ∉ record.value := by
  refine ⟨fun hclean => ?_, fun hclean _ => hclean⟩
  rcases h.value with htype | ⟨-, normal, hnormal⟩
  · exact hclean htype
  · have hlabels : ∀ label ∈ (withoutDots (U.lower record.value)).splitOn (ofChar '.'),
        isLabel label = true := by
      rw [← (domain_eq_ok hnormal).1]
      exact (domain_eq_ok hnormal).2
    exact ⟨IsSeparator.newline.not_mem_of_domain hlabels,
      IsSeparator.quote.not_mem_of_domain hlabels⟩

theorem newline_not_mem_localLine :
    newline ∉ DNSConfig.localLine (withoutDots (U.lower record.name)) record ↔
      newline ∉ record.value := by
  obtain ⟨hname, htype⟩ := h.not_mem_name_type .newline
  unfold DNSConfig.localLine
  rw [not_mem_before (by decide), not_mem_after]
  have hblank : newline ∉ Text.of " " := by decide
  exact not_mem_append.mpr ⟨not_mem_append.mpr ⟨not_mem_append.mpr ⟨not_mem_append.mpr
    ⟨by decide, hname⟩, hblank⟩, htype⟩, hblank⟩

/-- A value without quotation marks stays between the two of its line. -/
theorem count_quote_localLine :
    (DNSConfig.localLine (withoutDots (U.lower record.name)) record).count quote = 2 ↔
      quote ∉ record.value := by
  obtain ⟨hname, htype⟩ := h.not_mem_name_type .quote
  have hopen : (Text.of "local-data: \"").count quote = 1 := by decide
  have hblank : (Text.of " ").count quote = 0 := by decide
  have hclose : (Text.of "\"").count quote = 1 := by decide
  unfold DNSConfig.localLine
  simp only [List.count_append, hopen, hblank, hclose, List.count_eq_zero_of_not_mem hname,
    List.count_eq_zero_of_not_mem htype]
  rw [← List.count_eq_zero]
  omega

theorem localData_eq : DNSConfig.localData U record =
    .ok (DNSConfig.localLine (withoutDots (U.lower record.name)) record) := by
  unfold DNSConfig.localData
  rw [h.name]
  rfl

end DNSRecord.Admitted

namespace DNSConfig

variable {config : DNSConfig}

theorem Accepted.admitted (h : config.Accepted U) :
    ∀ record ∈ config.records, record.Admitted U := by
  obtain ⟨written, h⟩ := h
  simp only [postInit, Except.bind_eq_ok, Except.pure_eq_ok] at h
  obtain ⟨name, -, listen, -, networks, -, _, hrecords, rfl⟩ := h
  exact admitted_of_checkRecords hrecords

theorem serverLines_clean_iff : (∀ line ∈ config.serverLines, newline ∉ line) ↔
    (∀ x ∈ config.listen, newline ∉ x) ∧ ∀ x ∈ config.trustedNetworks, newline ∉ x := by
  have hserver : newline ∉ Text.of "server:" := by decide
  have hpolicy : ∀ line ∈ [Text.of "  access-control: 0.0.0.0/0 refuse",
      .of "  access-control: ::/0 refuse", .of "  do-ip4: yes", .of "  do-ip6: yes"],
      newline ∉ line := by decide
  have hrecursion : ∀ line ∈ (if config.recursion then []
      else [Text.of "  do-not-query-localhost: no"]), newline ∉ line := by
    cases config.recursion with
    | true => decide
    | false => decide
  unfold serverLines
  rw [List.forall_mem_append, and_iff_left hrecursion, List.forall_mem_append, and_iff_left hpolicy,
    List.forall_mem_append, List.forall_mem_cons, and_iff_right hserver, List.forall_mem_singleton,
    List.forall_mem_map, not_mem_after (by decide), not_mem_intercalate (by decide)]
  refine and_congr_right fun _ => forall₂_congr fun x _ => ?_
  rw [not_mem_before (by decide), not_mem_after (by decide)]

/-- How many lines are meant. -/
def lineCount (config : DNSConfig) : ℕ :=
  6 + config.trustedNetworks.length + (if config.recursion then 0 else 1) + config.records.length

theorem length_serverLines : config.serverLines.length =
    6 + config.trustedNetworks.length + if config.recursion then 0 else 1 := by
  unfold serverLines
  rw [List.length_append, apply_ite List.length]
  simp only [List.length_append, List.length_cons, List.length_map, List.length_nil, Nat.zero_add]
  omega

/-- The lines of DNS are those that are meant if and only if no scope and no value of a record
has an end of line. -/
theorem Accepted.count_render (h : config.Accepted U) : ∃ text, config.render U = .ok text ∧
    (text.count newline = config.lineCount ↔
      (∀ x ∈ config.listen, newline ∉ x) ∧ (∀ x ∈ config.trustedNetworks, newline ∉ x) ∧
        ∀ record ∈ config.records, newline ∉ record.value) := by
  have hrecords : (config.records.insertionSort DNSRecord.before).mapM (localData U) = .ok _ :=
    Except.mapM_eq_ok fun record hrecord =>
      (h.admitted record ((List.mem_insertionSort _).mp hrecord)).localData_eq
  unfold render
  rw [hrecords]
  refine ⟨_, rfl, ?_⟩
  have hcount : config.lineCount = max 1 (config.serverLines ++
      (config.records.insertionSort DNSRecord.before).map fun record =>
        localLine (withoutDots (U.lower record.name)) record).length := by
    rw [List.length_append, List.length_map, List.length_insertionSort, length_serverLines]
    unfold lineCount
    omega
  rw [hcount, Lines.count_joined_iff, List.forall_mem_append, serverLines_clean_iff, and_assoc,
    List.forall_mem_map]
  refine and_congr_right fun _ => and_congr_right fun _ => ?_
  simp only [List.mem_insertionSort]
  exact forall₂_congr fun record hrecord => (h.admitted record hrecord).newline_not_mem_localLine

end DNSConfig

namespace NTPConfig

variable {config : NTPConfig}

/-- How many lines are meant. -/
def lineCount (config : NTPConfig) : ℕ := max 1 (config.upstreams.length + config.allowed.length)

/-- The lines of NTP are those that are meant if and only if no upstream, and of a server no
scope of a network, has an end of line. -/
theorem count_render : config.render.count newline = config.lineCount ↔
    (∀ x ∈ config.upstreams, newline ∉ x) ∧ ∀ x ∈ config.allowed, newline ∉ x := by
  have hcount : config.lineCount = max 1 config.lines.length := by
    unfold lineCount lines
    rw [List.length_append, List.length_map, List.length_map]
  unfold render
  rw [hcount, Lines.count_joined_iff]
  unfold lines
  rw [List.forall_mem_append, List.forall_mem_map, List.forall_mem_map]
  refine and_congr (forall₂_congr fun x _ => ?_) (forall₂_congr fun x _ => ?_)
  · rw [not_mem_before (by decide), not_mem_after (by decide)]
  · rw [not_mem_after (by decide)]

end NTPConfig

end Lines

end Network

end UltimateBBSBox.Daemons
