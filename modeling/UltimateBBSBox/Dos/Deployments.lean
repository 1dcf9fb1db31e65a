import UltimateBBSBox.Library.Check
import UltimateBBSBox.Library.PosixPath

/-!
# DOS deployments

`COMPort`, `DriveMapping` and `DOSDeployment` of `ubb_dos.py`, with what their construction
checks.  A port and a mapping carry that theirs passed.  The profile, `guest_network` and
`purpose` are not looked at by construction and are left out.

A deployment reaches its working root and the roots of its writable drives.  Construction
compares the working root with the golden root for equality, as paths, and the roots of
drives with nothing.
-/

namespace UltimateBBSBox.Dos

open CodePoint (ofChar isDigit)

/-- `DOSConfigError`. -/
structure DOSConfigError where
  message : String
deriving DecidableEq

/-- A lower case letter of ASCII. -/
def isLower (c : CodePoint) : Bool := ofChar 'a' ≤ c ∧ c ≤ ofChar 'z'

/-- An upper case letter of ASCII. -/
def isUpper (c : CodePoint) : Bool := ofChar 'A' ≤ c ∧ c ≤ ofChar 'Z'

/-- `_ID.fullmatch`. -/
def isId : Text → Bool
  | [] => false
  | first :: rest =>
      isLower first ∧ rest.length ≤ 63 ∧
        ∀ c ∈ rest, isLower c = true ∨ isDigit c = true ∨ c = ofChar '_' ∨ c = ofChar '-'

/-- `re.fullmatch(r"[A-Z]", text)`. -/
def isDriveLetter : Text → Bool
  | [c] => isUpper c
  | _ => false

/-! ## Ports -/

/-- `CAPABILITIES`. -/
def capabilities : List Text :=
  [.of "byte_stream", .of "modem_signals", .of "full_modem_emulation"]

/-- `COMPort.__post_init__`. -/
def COMPort.postInit (name kind endpoint : Text) (baud : ℤ) (capability : Text) :
    Except DOSConfigError Unit :=
  if name ∉ [.of "COM1", .of "COM2", .of "COM3", .of "COM4"] then
    throw ⟨"DOS COM port must be COM1..COM4"⟩
  else if kind ∉ [.of "pty", .of "tcp", .of "physical_serial", .of "modem"] then
    throw ⟨"unsupported COM endpoint kind"⟩
  else if capability ∉ capabilities ∨ baud ≤ 0 ∨ endpoint = [] then
    throw ⟨"invalid COM endpoint"⟩
  else if kind = .of "physical_serial" ∧ ¬ Text.of "/dev/" <+: endpoint then
    throw ⟨"physical serial endpoint must be an explicit /dev path"⟩
  else pure ()

/-- `COMPort`. -/
structure COMPort where
  name : Text
  kind : Text
  endpoint : Text
  baud : ℤ
  capability : Text
  accepted : COMPort.postInit name kind endpoint baud capability = .ok ()

/-! ## Drives -/

/-- `DriveMapping.__post_init__`. -/
def DriveMapping.postInit (letter : Text) (root : PosixPath) : Except DOSConfigError Unit :=
  if isDriveLetter letter = false ∨ ¬ root.IsAbsolute ∨ root = .ofText (.of "/") then
    throw ⟨"drive mapping requires a safe absolute root"⟩
  else if Text.of ".." ∈ root.parts then
    throw ⟨"drive mapping may not contain parent traversal"⟩
  else pure ()

/-- `DriveMapping`. -/
structure DriveMapping where
  letter : Text
  root : PosixPath
  writable : Bool
  accepted : DriveMapping.postInit letter root = .ok ()

/-! ## Deployments -/

/-- `DOSDeployment`, before its check. -/
structure DOSDeployment where
  serviceId : Text
  goldenRoot : PosixPath
  workingRoot : PosixPath
  drives : List DriveMapping
  comPorts : List COMPort
  nodeCount : ℤ
  lifecycle : Text

namespace DOSDeployment

/-- The names of lifecycles. -/
def lifecycles : List Text := [.of "always_on", .of "on_demand", .of "scheduled"]

/-- `DOSDeployment.__post_init__`. -/
def postInit (d : DOSDeployment) : Except DOSConfigError Unit :=
  if isId d.serviceId = false ∨ ¬ d.goldenRoot.IsAbsolute ∨ ¬ d.workingRoot.IsAbsolute then
    throw ⟨"invalid DOS deployment identity/root"⟩
  else if d.goldenRoot = d.workingRoot ∨ d.nodeCount < 1 then
    throw ⟨"working DOS state must be separate from golden state"⟩
  else if d.lifecycle ∉ lifecycles then
    throw ⟨"invalid DOS lifecycle"⟩
  else if ¬ (d.comPorts.map COMPort.name).Nodup then
    throw ⟨"duplicate DOS COM assignment"⟩
  else if ¬ (d.drives.map DriveMapping.letter).Nodup then
    throw ⟨"duplicate DOS drive mapping"⟩
  else pure ()

/-- What construction refuses. -/
def IsRefused (d : DOSDeployment) : Prop :=
  isId d.serviceId = false ∨ ¬ d.goldenRoot.IsAbsolute ∨ ¬ d.workingRoot.IsAbsolute ∨
    d.goldenRoot = d.workingRoot ∨ d.nodeCount < 1 ∨ d.lifecycle ∉ lifecycles ∨
    ¬ (d.comPorts.map COMPort.name).Nodup ∨ ¬ (d.drives.map DriveMapping.letter).Nodup

theorem postInit_eq_ok_iff {d : DOSDeployment} : d.postInit = .ok () ↔ ¬ d.IsRefused := by
  unfold postInit IsRefused
  simp only [Except.guard_eq_ok, Except.pure_eq_ok, and_true, not_or, and_assoc]

/-! ## What a deployment reaches -/

/-- Neither is the other, inside it or above it. -/
def Apart (root root' : PosixPath) : Prop :=
  ¬ root.resolved <+: root'.resolved ∧ ¬ root'.resolved <+: root.resolved

/-- The golden root is apart from the working root, and from the root of every drive that may
be written. -/
def GoldenOutOfReach (d : DOSDeployment) : Prop :=
  Apart d.goldenRoot d.workingRoot ∧
    ∀ drive ∈ d.drives, drive.writable = true → Apart d.goldenRoot drive.root

/-- Roots are apart if and only if they branch. -/
theorem apart_iff {root root' : PosixPath} :
    Apart root root' ↔ PosixPath.Branch root.resolved root'.resolved :=
  PosixPath.branch_iff.symm

/-- An accepted deployment keeps the golden state out of reach if and only if the working root
and the root of every drive that may be written branch off from the golden root: at some depth
both have a part and these differ. -/
theorem goldenOutOfReach_iff (d : DOSDeployment) :
    (d.postInit = .ok () → d.GoldenOutOfReach) ↔
      d.IsRefused ∨
        (PosixPath.Branch d.goldenRoot.resolved d.workingRoot.resolved ∧
          ∀ drive ∈ d.drives, drive.writable = true →
            PosixPath.Branch d.goldenRoot.resolved drive.root.parts) := by
  have hdrive : ∀ drive ∈ d.drives, drive.root.resolved = drive.root.parts := by
    intro drive _
    have haccepted := drive.accepted
    unfold DriveMapping.postInit at haccepted
    simp only [Except.guard_eq_ok] at haccepted
    exact PosixPath.resolved_eq_parts haccepted.2.1
  rw [postInit_eq_ok_iff, ← or_iff_not_imp_left]
  unfold GoldenOutOfReach
  rw [apart_iff]
  refine or_congr Iff.rfl (and_congr Iff.rfl (forall₂_congr fun drive hmem => ?_))
  rw [apart_iff, hdrive drive hmem]

/-- The working root is inside the golden root. -/
def nested : DOSDeployment where
  serviceId := .of "bbs"
  goldenRoot := .ofText (.of "/srv/golden")
  workingRoot := .ofText (.of "/srv/golden/work")
  drives := []
  comPorts := []
  nodeCount := 1
  lifecycle := .of "on_demand"

/-- It is accepted. -/
theorem nested_in_reach : ¬ (nested.postInit = .ok () → nested.GoldenOutOfReach) := by
  intro h
  exact absurd (h (by decide)).1.1 (by decide)

end DOSDeployment

end UltimateBBSBox.Dos
