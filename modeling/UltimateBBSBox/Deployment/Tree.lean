import Mathlib.Data.List.Lex
import Mathlib.Data.List.Sort
import UltimateBBSBox.Archive.Store
import UltimateBBSBox.Library.FileSystem
import UltimateBBSBox.Library.Utf8

/-!
# The digest of a directory

`_tree_digest` of `ubb_deployment/manager.py`, over directories of regular files and
directories.  Two directories have one digest if and only if they have the same files
with the same content (`treeDigest_eq_iff`): each name ends before the null character,
each content is hashed to 32 bytes, and the files come in the order of their paths.
A directory is a file system without links (`Directory.stat_toFileSystem`); what is
digested is the one tree below it, so it is kept as a value here.

SHA-256 is taken as it is.  That it has no collision is asked for the byte strings that
are hashed in the two directories only (`Directory.hashed`).
-/

namespace UltimateBBSBox.Deployment

open Archive (Bytes)
open CodePoint (ofChar)
open PrefixCode

/-- A `DeploymentError` with its text, or an exception of what the manager calls. -/
inductive Exn
  | deploymentError (message : String)
  | other (e : Archive.Exn)
deriving DecidableEq

/-! ## Directories -/

/-- The names on the way to a file. -/
abbrev Path : Type := List Text

/-- What a name in a directory can be. -/
def IsName (name : Text) : Prop := name ≠ [] ∧ ofChar '/' ∉ name ∧ ofChar '\x00' ∉ name

instance (name : Text) : Decidable (IsName name) := instDecidableAnd

/-- The entries of a directory, in the order in which they are found. -/
inductive Listing
  | done
  | file (name : Text) (data : Bytes) (rest : Listing)
  | directory (name : Text) (below : Listing) (rest : Listing)
deriving DecidableEq

namespace Listing

/-- The names in the directory itself. -/
def names : Listing → List Text
  | done => []
  | file name _ rest => name :: rest.names
  | directory name _ rest => name :: rest.names

/-- Every entry has a name that is none of another entry. -/
def Proper : Listing → Prop
  | done => True
  | file name _ rest => IsName name ∧ name ∉ rest.names ∧ rest.Proper
  | directory name below rest => IsName name ∧ name ∉ rest.names ∧ below.Proper ∧ rest.Proper

instance decidableProper : (listing : Listing) → Decidable listing.Proper
  | done => isTrue trivial
  | file name _ rest =>
      have := decidableProper rest
      inferInstanceAs (Decidable (IsName name ∧ name ∉ rest.names ∧ rest.Proper))
  | directory name below rest =>
      have := decidableProper below
      have := decidableProper rest
      inferInstanceAs
        (Decidable (IsName name ∧ name ∉ rest.names ∧ below.Proper ∧ rest.Proper))

/-- The files that `rglob("*")` finds. -/
def paths : Listing → List Path
  | done => []
  | file name _ rest => [name] :: rest.paths
  | directory name below rest => below.paths.map (name :: ·) ++ rest.paths

/-- The content of the file at a path. -/
def read : Listing → Path → Option Bytes
  | done, _ => none
  | file name data rest, path => if path = [name] then some data else rest.read path
  | directory _ _ rest, [] => rest.read []
  | directory name below rest, first :: others =>
      if first = name then below.read others else rest.read (first :: others)

variable {listing : Listing}

theorem exists_head_of_mem_paths {path : Path} (h : path ∈ listing.paths) :
    ∃ name others, path = name :: others ∧ name ∈ listing.names := by
  induction listing with
  | done => cases h
  | file name data rest ih =>
      rcases List.mem_cons.mp h with rfl | h
      · exact ⟨name, [], rfl, List.mem_cons_self⟩
      · obtain ⟨first, others, rfl, hfirst⟩ := ih h
        exact ⟨first, others, rfl, List.mem_cons_of_mem _ hfirst⟩
  | directory name below rest _ ih =>
      rcases List.mem_append.mp h with h | h
      · obtain ⟨others, _, rfl⟩ := List.mem_map.mp h
        exact ⟨name, others, rfl, List.mem_cons_self⟩
      · obtain ⟨first, others, rfl, hfirst⟩ := ih h
        exact ⟨first, others, rfl, List.mem_cons_of_mem _ hfirst⟩

theorem notMem_paths_of_notMem_names {name : Text} (h : name ∉ listing.names) (others : Path) :
    name :: others ∉ listing.paths := by
  intro hmem
  obtain ⟨first, rest, heq, hfirst⟩ := exists_head_of_mem_paths hmem
  exact h ((List.cons.inj heq).1 ▸ hfirst)

/-- The files that are found are those that can be read. -/
theorem mem_paths (h : listing.Proper) {path : Path} :
    path ∈ listing.paths ↔ listing.read path ≠ none := by
  induction listing generalizing path with
  | done => exact iff_of_false List.not_mem_nil fun h => h rfl
  | file name data rest ih =>
      rw [paths, read, List.mem_cons]
      by_cases hpath : path = [name]
      · simp [hpath]
      · rw [if_neg hpath, ← ih h.2.2]
        exact or_iff_right hpath
  | directory name below rest ihbelow ih =>
      obtain ⟨_, hfresh, hbelow, hrest⟩ := h
      rw [paths, List.mem_append]
      cases path with
      | nil =>
          rw [read, ← ih hrest]
          exact or_iff_right (by simp)
      | cons first others =>
          rw [read]
          -- the name of the directory comes once, so a path under it is in no other entry
          by_cases hfirst : first = name
          · rw [if_pos hfirst, ← ihbelow hbelow, hfirst]
            rw [or_iff_left (notMem_paths_of_notMem_names hfresh others)]
            simp
          · rw [if_neg hfirst, ← ih hrest]
            apply or_iff_right
            intro hmem
            obtain ⟨_, _, heq⟩ := List.mem_map.mp hmem
            exact hfirst (List.cons.inj heq).1.symm

/-- Each file is found once. -/
theorem nodup_paths (h : listing.Proper) : listing.paths.Nodup := by
  induction listing with
  | done => exact List.nodup_nil
  | file name data rest ih =>
      obtain ⟨_, hfresh, hrest⟩ := h
      exact List.nodup_cons.mpr ⟨notMem_paths_of_notMem_names hfresh [], ih hrest⟩
  | directory name below rest ihbelow ih =>
      obtain ⟨_, hfresh, hbelow, hrest⟩ := h
      apply List.nodup_append.mpr
      refine ⟨(ihbelow hbelow).map (List.cons_injective), ih hrest, ?_⟩
      intro path hpath path' hpath' heq
      obtain ⟨others, _, rfl⟩ := List.mem_map.mp hpath
      exact notMem_paths_of_notMem_names hfresh others (heq ▸ hpath')

theorem ne_nil_of_mem_paths {path : Path} (h : path ∈ listing.paths) : path ≠ [] := by
  obtain ⟨_, _, rfl, _⟩ := exists_head_of_mem_paths h
  exact List.cons_ne_nil _ _

theorem isName_of_mem_paths (h : listing.Proper) {path : Path} (hpath : path ∈ listing.paths) :
    ∀ name ∈ path, IsName name := by
  induction listing generalizing path with
  | done => cases hpath
  | file name data rest ih =>
      rcases List.mem_cons.mp hpath with rfl | hpath
      · exact List.forall_mem_singleton.mpr h.1
      · exact ih h.2.2 hpath
  | directory name below rest ihbelow ih =>
      obtain ⟨hname, _, hbelow, hrest⟩ := h
      rcases List.mem_append.mp hpath with hpath | hpath
      · obtain ⟨others, hothers, rfl⟩ := List.mem_map.mp hpath
        exact List.forall_mem_cons.mpr ⟨hname, ihbelow hbelow hothers⟩
      · exact ih hrest hpath

/-- What is at a path below the directory. -/
def node : Listing → Path → Option (Node Text Bytes)
  | _, [] => some .directory
  | done, _ :: _ => none
  | file name data rest, first :: others =>
      if first :: others = [name] then some (.file data) else rest.node (first :: others)
  | directory name below rest, first :: others =>
      if first = name then below.node others else rest.node (first :: others)

theorem node_nil (listing : Listing) : listing.node [] = some .directory := by
  cases listing <;> rfl

theorem node_eq_none_of_notMem_names {name : Text} (h : name ∉ listing.names) (others : Path) :
    listing.node (name :: others) = none := by
  induction listing with
  | done => rfl
  | file name' data rest ih =>
      obtain ⟨hne, hrest⟩ := List.ne_and_not_mem_of_not_mem_cons h
      have hpath : name :: others ≠ [name'] := fun heq => hne (List.cons.inj heq).1
      rw [node, if_neg hpath, ih hrest]
  | directory name' below rest _ ih =>
      obtain ⟨hne, hrest⟩ := List.ne_and_not_mem_of_not_mem_cons h
      rw [node, if_neg hne, ih hrest]

/-- What something is in is a directory. -/
theorem node_dropLast (h : listing.Proper) {path : Path} (hpath : listing.node path ≠ none) :
    listing.node path.dropLast = some .directory := by
  induction listing generalizing path with
  | done =>
      cases path with
      | nil => rfl
      | cons first others => exact absurd rfl hpath
  | file name data rest ih =>
      cases path with
      | nil => rfl
      | cons first others =>
          by_cases hothers : others = []
          · rw [hothers]
            rfl
          have hlong : first :: others ≠ [name] := fun heq => hothers (List.cons.inj heq).2
          rw [node, if_neg hlong] at hpath
          have hrest := ih h.2.2 hpath
          rw [List.dropLast_cons_of_ne_nil hothers] at hrest ⊢
          -- the name of a file comes once, so nothing in it is found
          have hother : first :: others.dropLast ≠ [name] := by
            intro heq
            rw [(List.cons.inj heq).1] at hpath
            exact hpath (node_eq_none_of_notMem_names h.2.1 others)
          rw [node, if_neg hother, hrest]
  | directory name below rest ihbelow ih =>
      cases path with
      | nil => rfl
      | cons first others =>
          by_cases hothers : others = []
          · rw [hothers]
            rfl
          rw [List.dropLast_cons_of_ne_nil hothers]
          rw [node] at hpath ⊢
          by_cases hfirst : first = name
          · rw [if_pos hfirst] at hpath ⊢
            exact ihbelow h.2.2.1 hpath
          · rw [if_neg hfirst] at hpath ⊢
            have hrest := ih h.2.2.2 hpath
            rwa [List.dropLast_cons_of_ne_nil hothers] at hrest

theorem node_ne_link (path : Path) (target : Route Text) : listing.node path ≠ some (.link target) := by
  induction listing generalizing path with
  | done => cases path <;> simp [node]
  | file name data rest ih =>
      cases path with
      | nil => simp [node]
      | cons first others =>
          rw [node]
          split
          · simp
          · exact ih _
  | directory name below rest ihbelow ih =>
      cases path with
      | nil => simp [node]
      | cons first others =>
          rw [node]
          split
          · exact ihbelow _
          · exact ih _

/-- The files are those that can be read. -/
theorem node_eq_file_iff {path : Path} {data : Bytes} :
    listing.node path = some (.file data) ↔ listing.read path = some data := by
  induction listing generalizing path with
  | done => cases path <;> simp [node, read]
  | file name data' rest ih =>
      cases path with
      | nil =>
          rw [read, if_neg (List.cons_ne_nil name []).symm, ← ih, node_nil, node_nil]
      | cons first others =>
          rw [node, read]
          split
          · simp
          · exact ih
  | directory name below rest ihbelow ih =>
      cases path with
      | nil => rw [read, ← ih, node_nil, node_nil]
      | cons first others =>
          rw [node, read]
          split
          · exact ihbelow
          · exact ih

end Listing

/-- A directory: its entries have names, each its own. -/
structure Directory where
  listing : Listing
  proper : listing.Proper

namespace Directory

def paths (root : Directory) : List Path := root.listing.paths

/-- The content of the file at a path below the directory. -/
def read (root : Directory) (path : Path) : Option Bytes := root.listing.read path

/-- `sorted` over the files. -/
def sortedPaths (root : Directory) : List Path := root.paths.insertionSort (· ≤ ·)

theorem mem_sortedPaths {root : Directory} {path : Path} :
    path ∈ root.sortedPaths ↔ root.read path ≠ none := by
  unfold sortedPaths
  rw [List.mem_insertionSort]
  exact Listing.mem_paths root.proper

theorem mem_paths_of_mem_sortedPaths {root : Directory} {path : Path} (h : path ∈ root.sortedPaths) :
    path ∈ root.listing.paths := (List.mem_insertionSort _).mp h

/-- The order in which the files are found does not matter. -/
theorem sortedPaths_congr {root root' : Directory} (h : ∀ path, root'.read path = root.read path) :
    root'.sortedPaths = root.sortedPaths := by
  have hperm : root'.paths.Perm root.paths := by
    apply (List.perm_ext_iff_of_nodup (Listing.nodup_paths root'.proper)
      (Listing.nodup_paths root.proper)).mpr
    intro path
    rw [Listing.mem_paths root'.proper, Listing.mem_paths root.proper]
    exact not_congr (by rw [show root'.listing.read path = root.listing.read path from h path])
  apply List.Perm.eq_of_sortedLE List.sortedLE_insertionSort List.sortedLE_insertionSort
  exact (List.perm_insertionSort _ _).trans (hperm.trans (List.perm_insertionSort _ _).symm)

/-- The directory as a file system, of which it is the root. -/
def toFileSystem (root : Directory) : FileSystem Text Bytes where
  node := root.listing.node
  root := root.listing.node_nil
  inDirectory _ h := Listing.node_dropLast root.proper h

/-- In it a path is read as it is below the directory. -/
theorem stat_toFileSystem (root : Directory) (path : Path) (data : Bytes) :
    root.toFileSystem.stat (FileSystem.named path) = some (.file data) ↔ root.read path = some data := by
  have hlinks : ∀ place, ¬ root.toFileSystem.IsLink place := by
    rintro place ⟨target, hlink⟩
    exact Listing.node_ne_link place target hlink
  rw [FileSystem.stat_named hlinks]
  exact Listing.node_eq_file_iff

end Directory

/-! ## The digest -/

/-- `hashlib.sha256`: the digest has 32 bytes. -/
structure Sha256 where
  digest : Bytes → Bytes
  length_digest : ∀ data, (digest data).length = 32

/-- A hexadecimal digit, in lower case. -/
def hexDigit (n : ℕ) : CodePoint := ofChar (Nat.digitChar n)

/-- The two digits of a byte. -/
def hexByte (byte : UInt8) : Text := [hexDigit (byte.toNat / 16), hexDigit (byte.toNat % 16)]

/-- `hexdigest` of a hash that was fed with `data`. -/
def Sha256.hexdigest (sha256 : Sha256) (data : Bytes) : Text := (sha256.digest data).flatMap hexByte

theorem hexDigit_inj : ∀ m < 16, ∀ n < 16, hexDigit m = hexDigit n → m = n := by decide

theorem prefixFreeOn_hexByte : PrefixFreeOn hexByte Set.univ := by
  have hlength : ∀ byte, (hexByte byte).length = 2 := fun _ => rfl
  apply prefixFreeOn_of_length hlength
  intro byte _ byte' _ heq
  obtain ⟨hhigh, hlow⟩ := List.cons.inj heq
  have hbound := byte.toNat_lt
  have hbound' := byte'.toNat_lt
  have hhigh := hexDigit_inj _ (by omega) _ (by omega) hhigh
  have hlow := hexDigit_inj _ (by omega) _ (by omega) (List.cons.inj hlow).1
  apply UInt8.toNat_inj.mp
  omega

/-- The digits are those of one digest. -/
theorem Sha256.digest_eq_of_hexdigest_eq {sha256 : Sha256} {data data' : Bytes}
    (h : sha256.hexdigest data = sha256.hexdigest data') :
    sha256.digest data = sha256.digest data' :=
  prefixFreeOn_hexByte.flatMap_injOn (fun _ _ => List.cons_ne_nil _ _) (fun _ _ => Set.mem_univ _)
    (fun _ _ => Set.mem_univ _) h

/-- `as_posix` of a relative path. -/
def asPosix (path : Path) : Text := (Text.of "/").intercalate path

/-- `rel.encode()`. -/
def encoded (rel : Text) : Except Exn Bytes :=
  if rel.Encodable then .ok rel.encode else .error (.other (.foreign .unicodeEncodeError))

/-- `p.read_bytes()`. -/
def readBytes (root : Directory) (path : Path) : Except Exn Bytes :=
  match root.read path with
  | some data => .ok data
  | none => .error (.other (.foreign .osError))

section Digest

variable (sha256 : Sha256)

/-- What the loop of `_tree_digest` feeds to the hash. -/
def fed (root : Directory) : List Path → Except Exn Bytes
  | [] => return []
  | path :: rest => do
      let rel ← encoded (asPosix path)
      let data ← readBytes root path
      let others ← fed root rest
      return (rel ++ [0]) ++ sha256.digest data ++ others

/-- `_tree_digest`. -/
def treeDigest (root : Directory) : Except Exn Text := do
  let bytes ← fed sha256 root root.sortedPaths
  return sha256.hexdigest bytes

/-- The byte strings that are hashed on the way to the digest of a directory. -/
def Directory.hashed (root : Directory) : Set Bytes :=
  {data | ∃ path, root.read path = some data} ∪
    {bytes | fed sha256 root root.sortedPaths = .ok bytes}

end Digest

/-! ## What is read from a digest -/

section Reading

/-- The bytes of one file. -/
def word (sha256 : Sha256) (entry : Path × Bytes) : Bytes :=
  ((asPosix entry.1).encode ++ [0]) ++ sha256.digest entry.2

/-- The paths that files below a directory have. -/
def ProperPath (path : Path) : Prop := path ≠ [] ∧ ∀ name ∈ path, IsName name

theorem asPosix_injOn : Set.InjOn asPosix {path | ProperPath path} := by
  intro path hpath path' hpath' heq
  have hsplit : ∀ {path : Path}, ProperPath path → (asPosix path).splitOn (ofChar '/') = path :=
    fun h => List.splitOn_intercalate (ofChar '/') (fun name hname => (h.2 name hname).2.1) h.1
  calc path = (asPosix path).splitOn (ofChar '/') := (hsplit hpath).symm
    _ = (asPosix path').splitOn (ofChar '/') := by rw [heq]
    _ = path' := hsplit hpath'

/-- No name has the null character. -/
theorem null_notMem_asPosix {path : Path} (h : ∀ name ∈ path, IsName name) :
    ofChar '\x00' ∉ asPosix path := by
  unfold asPosix
  induction path with
  | nil => exact List.not_mem_nil
  | cons name rest ih =>
      obtain ⟨hname, hrest⟩ := List.forall_mem_cons.mp h
      cases rest with
      | nil =>
          rw [List.intercalate_singleton]
          exact hname.2.2
      | cons name' rest =>
          rw [List.intercalate_cons_cons, List.mem_append, List.mem_append]
          rintro ((hmem | hmem) | hmem)
          · exact hname.2.2 hmem
          · exact absurd hmem (by decide)
          · exact ih hrest hmem

/-- The name, the null character and the digest of the content say which file it is. -/
theorem prefixFreeOn_word {sha256 : Sha256} {hashed : Set Bytes}
    (hinj : Set.InjOn sha256.digest hashed) :
    PrefixFreeOn (word sha256) ({path | ProperPath path} ×ˢ hashed) := by
  have hname : PrefixFreeOn ((fun bytes : Bytes => bytes ++ [0]) ∘ fun path => (asPosix path).encode)
      {path | ProperPath path} := by
    apply (prefixFreeOn_terminated (0 : UInt8)).comp
    · exact Text.encode_injective.comp_injOn asPosix_injOn
    · intro path hpath
      exact fun hzero => null_notMem_asPosix hpath.2 (Text.zero_mem_encode.mp hzero)
  exact hname.append (prefixFreeOn_of_length sha256.length_digest hinj)

theorem word_ne_nil (sha256 : Sha256) (entry : Path × Bytes) : word sha256 entry ≠ [] := by
  unfold word
  simp

variable {sha256 : Sha256} {root root' : Directory}

/-- The files at `paths` with their content. -/
def entriesOf (root : Directory) (paths : List Path) : List (Path × Bytes) :=
  paths.filterMap fun path => (root.read path).map (path, ·)

/-- What is fed are the words of the files, where their names are in UTF-8. -/
theorem fed_eq_ok_iff {paths : List Path} (hfound : ∀ path ∈ paths, root.read path ≠ none)
    {bytes : Bytes} :
    fed sha256 root paths = .ok bytes ↔
      (∀ path ∈ paths, (asPosix path).Encodable) ∧
        bytes = (entriesOf root paths).flatMap (word sha256) := by
  induction paths generalizing bytes with
  | nil =>
      rw [fed, Except.pure_eq_ok]
      simp [entriesOf, eq_comm]
  | cons path rest ih =>
      obtain ⟨hpath, hrest⟩ := List.forall_mem_cons.mp hfound
      obtain ⟨data, hdata⟩ := Option.ne_none_iff_exists'.mp hpath
      have hentries : entriesOf root (path :: rest) = (path, data) :: entriesOf root rest := by
        unfold entriesOf
        rw [List.filterMap_cons_some (by rw [hdata]; rfl)]
      rw [List.forall_mem_cons, hentries, List.flatMap_cons, fed, Except.bind_eq_ok]
      constructor
      · rintro ⟨rel, hrel, h⟩
        obtain ⟨data', hdata', h⟩ := Except.bind_eq_ok.mp h
        obtain ⟨others, hothers, h⟩ := Except.bind_eq_ok.mp h
        obtain ⟨hencodable, rfl⟩ := (ih hrest).mp hothers
        -- the name is fed first, and a surrogate in it is a `UnicodeEncodeError`
        unfold encoded at hrel
        split at hrel
        · rename_i hutf8
          rw [readBytes, hdata] at hdata'
          obtain rfl := Except.ok.inj hrel
          obtain rfl := Except.ok.inj hdata'
          exact ⟨⟨hutf8, hencodable⟩, (Except.pure_eq_ok.mp h).symm⟩
        · cases hrel
      · rintro ⟨⟨hutf8, hencodable⟩, rfl⟩
        refine ⟨(asPosix path).encode, if_pos hutf8, ?_⟩
        refine Except.bind_eq_ok.mpr ⟨data, by rw [readBytes, hdata], ?_⟩
        exact Except.bind_eq_ok.mpr ⟨_, (ih hrest).mpr ⟨hencodable, rfl⟩, rfl⟩

theorem mem_entriesOf {paths : List Path} {entry : Path × Bytes} :
    entry ∈ entriesOf root paths ↔ entry.1 ∈ paths ∧ root.read entry.1 = some entry.2 := by
  obtain ⟨path, data⟩ := entry
  unfold entriesOf
  simp only [List.mem_filterMap, Option.map_eq_some_iff, Prod.mk.injEq]
  constructor
  · rintro ⟨path', hmem, data', hread, rfl, rfl⟩
    exact ⟨hmem, hread⟩
  · rintro ⟨hmem, hread⟩
    exact ⟨path, hmem, data, hread, rfl, rfl⟩

/-- The files of a directory with their content say what is read at each path. -/
theorem read_eq_some_iff {path : Path} {data : Bytes} :
    root.read path = some data ↔ (path, data) ∈ entriesOf root root.sortedPaths := by
  rw [mem_entriesOf, Directory.mem_sortedPaths]
  constructor
  · intro h
    exact ⟨by rw [h]; exact Option.some_ne_none _, h⟩
  · exact And.right

/-- Two directories, one of which has a digest, have the same digest if and only if they
have the same files with the same content. -/
theorem treeDigest_eq_iff {digest : Text} (hdigest : treeDigest sha256 root = .ok digest)
    (hinj : Set.InjOn sha256.digest (root.hashed sha256 ∪ root'.hashed sha256)) :
    treeDigest sha256 root' = .ok digest ↔ ∀ path, root'.read path = root.read path := by
  have hfound : ∀ root : Directory, ∀ path ∈ root.sortedPaths, root.read path ≠ none :=
    fun root path => Directory.mem_sortedPaths.mp
  constructor
  · intro hdigest'
    obtain ⟨bytes, hbytes, h⟩ := Except.bind_eq_ok.mp hdigest
    obtain ⟨bytes', hbytes', h'⟩ := Except.bind_eq_ok.mp hdigest'
    have hhex : sha256.hexdigest bytes' = sha256.hexdigest bytes :=
      (Except.pure_eq_ok.mp h').trans (Except.pure_eq_ok.mp h).symm
    -- the outer digests are those of the same bytes
    have heq : bytes' = bytes :=
      hinj (.inr (.inr hbytes')) (.inl (.inr hbytes)) (Sha256.digest_eq_of_hexdigest_eq hhex)
    obtain ⟨-, rfl⟩ := (fed_eq_ok_iff (hfound root)).mp hbytes
    obtain ⟨-, rfl⟩ := (fed_eq_ok_iff (hfound root')).mp hbytes'
    have hmem : ∀ directory : Directory, directory.hashed sha256 ⊆
        root.hashed sha256 ∪ root'.hashed sha256 →
        ∀ entry ∈ entriesOf directory directory.sortedPaths,
          entry ∈ {path | ProperPath path} ×ˢ (root.hashed sha256 ∪ root'.hashed sha256) := by
      intro directory hsubset entry hentry
      obtain ⟨hpath, hread⟩ := mem_entriesOf.mp hentry
      have hpath := Directory.mem_paths_of_mem_sortedPaths hpath
      exact ⟨⟨Listing.ne_nil_of_mem_paths hpath,
        Listing.isName_of_mem_paths directory.proper hpath⟩, hsubset (.inl ⟨_, hread⟩)⟩
    have hentries : entriesOf root' root'.sortedPaths = entriesOf root root.sortedPaths :=
      (prefixFreeOn_word hinj).flatMap_injOn (fun _ _ => word_ne_nil _ _)
        (hmem root' Set.subset_union_right) (hmem root Set.subset_union_left) heq
    intro path
    apply Option.ext
    intro data
    rw [read_eq_some_iff, read_eq_some_iff, hentries]
  · intro hread
    obtain ⟨bytes, hbytes, h⟩ := Except.bind_eq_ok.mp hdigest
    obtain ⟨hencodable, hwords⟩ := (fed_eq_ok_iff (hfound root)).mp hbytes
    have hsorted := Directory.sortedPaths_congr hread
    have hentries : entriesOf root' root'.sortedPaths = entriesOf root root.sortedPaths := by
      unfold entriesOf
      rw [hsorted]
      exact List.filterMap_congr fun path _ => by rw [hread path]
    refine Except.bind_eq_ok.mpr ⟨bytes, ?_, h⟩
    apply (fed_eq_ok_iff (hfound root')).mpr
    rw [hentries, hsorted]
    exact ⟨hencodable, hwords⟩

end Reading

end UltimateBBSBox.Deployment
