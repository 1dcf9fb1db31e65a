import Mathlib.Data.Fintype.Basic
import Mathlib.Data.List.Nodup
import Mathlib.Logic.Function.Basic
import UltimateBBSBox.Library.Machine

/-!
# Replacing one file through one temporary name

Any number of calls read a document, compute a new one from it, write that under
a temporary name they share, and rename the temporary file over the document.
Their steps interleave freely.

Names stand for inodes.  Opening the temporary name truncates the inode it stands
for, and a call that has it open goes on writing to that inode wherever a rename
has taken it.  A text written over another one may leave a tail of it.

Two things can go wrong: a call opens the temporary name while another is between
its opening and its rename, or the file no longer holds what a call has read when
that call renames.  A run without them is as good as one call after the
other (`serial_of_run`).
-/

namespace SharedTemp

/-- What an inode holds. -/
inductive Text (D : Type) | empty | document (d : D) | garbled
deriving DecidableEq

/-- How far a call has come. -/
inductive Phase (D : Type)
  | waiting
  | loaded (read : Option D)
  | opened (read : Option D) (inode : ℕ)
  | written (read : Option D) (inode : ℕ)
  | returned (new : D)
  | raised
deriving DecidableEq

/-- The two names, the inodes and the calls. -/
structure World (ι D : Type) where
  text : ℕ → Text D
  fresh : ℕ
  target : Option ℕ
  temp : Option ℕ
  phases : ι → Phase D

/-- A step of a call; a text that is written may or may not cover the one before it. -/
inductive Label (ι : Type)
  | load (call : ι)
  | openTemp (call : ι)
  | write (call : ι) (covers : Bool)
  | replace (call : ι)

variable {ι D : Type}

/-- The document of a text, where it parses. -/
def Text.document? : Text D → Option D
  | .document d => some d
  | .empty | .garbled => none

/-- Writing a document from the start of an inode. -/
def Text.overwrite (covers : Bool) (new : D) : Text D → Text D
  | .empty => .document new
  | .document _ | .garbled => if covers then .document new else .garbled

/-- Between opening the temporary name and the rename. -/
def Phase.writing : Phase D → Bool
  | .opened _ _ | .written _ _ => true
  | .waiting | .loaded _ | .returned _ | .raised => false

/-- What a call that is about to rename has read. -/
def Phase.pending : Phase D → Option (Option D)
  | .written read _ => some read
  | .waiting | .loaded _ | .opened _ _ | .returned _ | .raised => none

/-- The call has returned. -/
def Phase.isReturned : Phase D → Bool
  | .returned _ => true
  | .waiting | .loaded _ | .opened _ _ | .written _ _ | .raised => false

namespace World

/-- Before the first call, with what the two names stand for. -/
def initial (target temp : Option (Text D)) : World ι D where
  text inode := (if inode = 0 then target else temp).getD .empty
  fresh := 2
  target := target.map fun _ => 0
  temp := temp.map fun _ => 1
  phases _ := .waiting

/-- The text of the file, if it is there. -/
def content (w : World ι D) : Option (Text D) := w.target.map w.text

/-- The document a call reads. -/
def document (w : World ι D) : Option D := w.content.bind Text.document?

variable [DecidableEq ι]

/-- A call has come further. -/
def enter (w : World ι D) (call : ι) (phase : Phase D) : World ι D :=
  { w with phases := Function.update w.phases call phase }

/-- One step, where `compute` is what a call makes of the document it reads. -/
def step (compute : ι → Option D → D) (w : World ι D) : Label ι → Option (Unit × World ι D)
  | .load call =>
      match w.phases call with
      | .waiting => some ((), w.enter call (.loaded w.document))
      | _ => none
  | .openTemp call =>
      match w.phases call with
      | .loaded read =>
          let inode := w.temp.getD w.fresh
          some ((), { w.enter call (.opened read inode) with
            text := Function.update w.text inode .empty
            fresh := if w.temp = none then w.fresh + 1 else w.fresh
            temp := some inode })
      | _ => none
  | .write call covers =>
      match w.phases call with
      | .opened read inode =>
          some ((), { w.enter call (.written read inode) with
            text := Function.update w.text inode
              ((w.text inode).overwrite covers (compute call read)) })
      | _ => none
  | .replace call =>
      match w.phases call with
      | .written read _ =>
          match w.temp with
          | some inode =>
              some ((), { w.enter call (.returned (compute call read)) with
                target := some inode
                temp := none })
          | none => some ((), w.enter call .raised)
      | _ => none

end World

/-! ## What each step does -/

section Steps

variable [DecidableEq ι] {compute : ι → Option D → D} {w w' : World ι D} {call : ι}

theorem load_cases {r : Unit} (h : w.step compute (.load call) = some (r, w')) :
    w.phases call = .waiting ∧ w' = w.enter call (.loaded w.document) := by
  simp only [World.step] at h
  split at h
  · rename_i hphase
    exact ⟨hphase, (Prod.mk.inj (Option.some.inj h)).2.symm⟩
  · cases h

theorem openTemp_cases {r : Unit} (h : w.step compute (.openTemp call) = some (r, w')) :
    ∃ read, w.phases call = .loaded read ∧
      w' = { w.enter call (.opened read (w.temp.getD w.fresh)) with
        text := Function.update w.text (w.temp.getD w.fresh) .empty
        fresh := if w.temp = none then w.fresh + 1 else w.fresh
        temp := some (w.temp.getD w.fresh) } := by
  simp only [World.step] at h
  split at h
  · rename_i read hphase
    exact ⟨read, hphase, (Prod.mk.inj (Option.some.inj h)).2.symm⟩
  · cases h

theorem write_cases {covers : Bool} {r : Unit}
    (h : w.step compute (.write call covers) = some (r, w')) :
    ∃ read inode, w.phases call = .opened read inode ∧
      w' = { w.enter call (.written read inode) with
        text := Function.update w.text inode
          ((w.text inode).overwrite covers (compute call read)) } := by
  simp only [World.step] at h
  split at h
  · rename_i read inode hphase
    exact ⟨read, inode, hphase, (Prod.mk.inj (Option.some.inj h)).2.symm⟩
  · cases h

theorem replace_cases {r : Unit} (h : w.step compute (.replace call) = some (r, w')) :
    ∃ read inode, w.phases call = .written read inode ∧
      ((∃ temp, w.temp = some temp ∧
          w' = { w.enter call (.returned (compute call read)) with
            target := some temp
            temp := none }) ∨
        (w.temp = none ∧ w' = w.enter call .raised)) := by
  simp only [World.step] at h
  split at h
  · rename_i read inode hphase
    refine ⟨read, inode, hphase, ?_⟩
    split at h
    · rename_i temp htemp
      exact .inl ⟨temp, htemp, (Prod.mk.inj (Option.some.inj h)).2.symm⟩
    · rename_i htemp
      exact .inr ⟨htemp, (Prod.mk.inj (Option.some.inj h)).2.symm⟩
  · cases h

end Steps

/-! ## One writer at a time -/

/-- What a phase says about the temporary name and the inodes. -/
def Phase.Fits (compute : Option D → D) (text : ℕ → Text D) (temp : Option ℕ) : Phase D → Prop
  | .waiting | .loaded _ | .returned _ => True
  | .opened _ inode => temp = some inode ∧ text inode = .empty
  | .written read inode => temp = some inode ∧ text inode = .document (compute read)
  | .raised => False

/-- No other call writes while one opens the temporary name, and when a call renames,
the file holds what the call has read. -/
def Apart (w : World ι D) : Label ι → Prop
  | .openTemp call => ∀ other, other ≠ call → (w.phases other).writing = false
  | .replace call => ∀ read ∈ (w.phases call).pending, w.document = read
  | .load _ | .write _ _ => True

instance [DecidableEq ι] [Fintype ι] [DecidableEq D] (w : World ι D) (label : Label ι) :
    Decidable (Apart w label) :=
  match label with
  | .openTemp call =>
      inferInstanceAs (Decidable (∀ other, other ≠ call → (w.phases other).writing = false))
  | .replace call =>
      inferInstanceAs (Decidable (∀ read ∈ (w.phases call).pending, w.document = read))
  | .load _ | .write _ _ => inferInstanceAs (Decidable True)

/-- At most one call writes, to the inode of the temporary name, and the file
itself is whole. -/
structure Tidy (compute : ι → Option D → D) (w : World ι D) : Prop where
  fits : ∀ call, (w.phases call).Fits (compute call) w.text w.temp
  writers : ∀ call other, (w.phases call).writing → other ≠ call → (w.phases other).writing = false
  apart : ∀ inode, w.temp = some inode → w.target ≠ some inode
  old : ∀ inode, w.target = some inode ∨ w.temp = some inode → inode < w.fresh
  whole : ∀ text, w.content = some text → ∃ d, text = .document d

/-- The calls that have returned did so as if one after the other. -/
def Serial (compute : ι → Option D → D) (start : Option D) (w : World ι D) : Prop :=
  ∃ order : List ι, order.Nodup ∧ (∀ call, call ∈ order ↔ (w.phases call).isReturned) ∧
    w.document = order.foldl (fun document call => some (compute call document)) start

/-- A phase that does not write fits whatever the others do. -/
theorem Phase.Fits.of_idle {compute : Option D → D} {text text' : ℕ → Text D}
    {temp temp' : Option ℕ} {phase : Phase D} (h : phase.Fits compute text temp)
    (hidle : phase.writing = false) : phase.Fits compute text' temp' := by
  cases phase with
  | waiting => trivial
  | loaded read => trivial
  | opened read inode => cases hidle
  | written read inode => cases hidle
  | returned new => trivial
  | raised => exact h

/-- Writing to an inode other than the file's leaves the file alone. -/
theorem content_update {w : World ι D} {inode : ℕ} (text : Text D)
    (h : w.target ≠ some inode) :
    w.target.map (Function.update w.text inode text) = w.content := by
  unfold World.content
  refine Option.map_congr fun target htarget => Function.update_of_ne ?_ ..
  rintro rfl
  exact h htarget

section Preservation

variable [DecidableEq ι] {compute : ι → Option D → D} {w w' : World ι D} {call : ι}

/-- What the other calls need when one of them enters a phase. -/
theorem Tidy.entered (h : Tidy compute w) (w' : World ι D) {phase : Phase D}
    (hphases : w'.phases = Function.update w.phases call phase)
    (hfits : phase.Fits (compute call) w'.text w'.temp)
    (hothers : (w'.text = w.text ∧ w'.temp = w.temp ∧ phase.writing = false) ∨
      ∀ other, other ≠ call → (w.phases other).writing = false) :
    (∀ other, (w'.phases other).Fits (compute other) w'.text w'.temp) ∧
      ∀ first other, (w'.phases first).writing → other ≠ first →
        (w'.phases other).writing = false := by
  have hself : w'.phases call = phase := by rw [hphases, Function.update_self]
  have hother : ∀ other, other ≠ call → w'.phases other = w.phases other := by
    intro other hne
    rw [hphases, Function.update_of_ne hne]
  constructor
  · intro other
    by_cases hcall : other = call
    · rwa [hcall, hself]
    · rw [hother other hcall]
      rcases hothers with ⟨htext, htemp, _⟩ | hidle
      · rw [htext, htemp]
        exact h.fits other
      · exact (h.fits other).of_idle (hidle other hcall)
  · intro first other hfirst hne
    rcases hothers with ⟨_, _, hphase⟩ | hidle
    · have hcall : first ≠ call := by
        rintro rfl
        rw [hself, hphase] at hfirst
        cases hfirst
      rw [hother first hcall] at hfirst
      by_cases hsecond : other = call
      · rwa [hsecond, hself]
      · rw [hother other hsecond]
        exact h.writers first other hfirst hne
    · by_cases hcall : first = call
      · subst hcall
        rw [hother other hne]
        exact hidle other hne
      · rw [hother first hcall, hidle first hcall] at hfirst
        cases hfirst

theorem Tidy.load (h : Tidy compute w) {r : Unit} (hstep : w.step compute (.load call) = some (r, w')) :
    Tidy compute w' := by
  obtain ⟨_, rfl⟩ := load_cases hstep
  obtain ⟨hfits, hwriters⟩ := h.entered (w.enter call (.loaded _)) rfl trivial
    (.inl ⟨rfl, rfl, rfl⟩)
  exact ⟨hfits, hwriters, h.apart, h.old, h.whole⟩

theorem Tidy.openTemp (h : Tidy compute w) (hapart : Apart w (.openTemp call)) {r : Unit}
    (hstep : w.step compute (.openTemp call) = some (r, w')) :
    Tidy compute w' ∧ w'.content = w.content := by
  obtain ⟨read, _, rfl⟩ := openTemp_cases hstep
  have hinode : w.target ≠ some (w.temp.getD w.fresh) := by
    cases htemp : w.temp with
    | some temp => exact h.apart temp htemp
    | none => exact fun htarget => Nat.lt_irrefl _ (h.old _ (.inl htarget))
  obtain ⟨hfits, hwriters⟩ := h.entered { w.enter call (.opened read _) with
      text := Function.update w.text (w.temp.getD w.fresh) .empty
      fresh := if w.temp = none then w.fresh + 1 else w.fresh
      temp := some (w.temp.getD w.fresh) } rfl ⟨rfl, Function.update_self ..⟩ (.inr hapart)
  refine ⟨⟨hfits, hwriters, ?_, ?_, ?_⟩, content_update .empty hinode⟩
  · rintro inode hinode'
    obtain rfl := Option.some.inj hinode'
    exact hinode
  · intro inode hnamed
    dsimp only
    rcases hnamed with htarget | hinode'
    · have hlt := h.old inode (.inl htarget)
      split <;> omega
    · obtain rfl := Option.some.inj hinode'
      cases htemp : w.temp with
      | some temp =>
          have hlt := h.old temp (.inr htemp)
          simpa using hlt
      | none => simp
  · intro text htext
    exact h.whole text ((content_update .empty hinode).symm.trans htext)

theorem Tidy.write (h : Tidy compute w) {covers : Bool} {r : Unit}
    (hstep : w.step compute (.write call covers) = some (r, w')) :
    Tidy compute w' ∧ w'.content = w.content := by
  obtain ⟨read, inode, hphase, rfl⟩ := write_cases hstep
  have hopened := h.fits call
  rw [hphase] at hopened
  obtain ⟨htemp, htext⟩ := hopened
  have hothers : ∀ other, other ≠ call → (w.phases other).writing = false :=
    fun other hne => h.writers call other (by rw [hphase]; rfl) hne
  obtain ⟨hfits, hwriters⟩ := h.entered { w.enter call (.written read inode) with
      text := Function.update w.text inode
        ((w.text inode).overwrite covers (compute call read)) } rfl
    ⟨htemp, by rw [htext]; exact Function.update_self ..⟩ (.inr hothers)
  have hcontent := content_update ((w.text inode).overwrite covers (compute call read))
    (h.apart inode htemp)
  refine ⟨⟨hfits, hwriters, h.apart, h.old, ?_⟩, hcontent⟩
  intro text hget
  exact h.whole text (hcontent.symm.trans hget)

/-- The rename of a call that writes alone puts its document in place. -/
theorem Tidy.replace (h : Tidy compute w) {r : Unit}
    (hstep : w.step compute (.replace call) = some (r, w')) :
    Tidy compute w' ∧ ∃ read inode, w.phases call = .written read inode ∧
      w'.phases = Function.update w.phases call (.returned (compute call read)) ∧
      w'.content = some (.document (compute call read)) := by
  obtain ⟨read, inode, hphase, hcases⟩ := replace_cases hstep
  have hwritten := h.fits call
  rw [hphase] at hwritten
  obtain ⟨htemp, htext⟩ := hwritten
  have hothers : ∀ other, other ≠ call → (w.phases other).writing = false :=
    fun other hne => h.writers call other (by rw [hphase]; rfl) hne
  rcases hcases with ⟨temp, htemp', rfl⟩ | ⟨hnone, rfl⟩
  · obtain rfl : inode = temp := Option.some.inj (htemp.symm.trans htemp')
    obtain ⟨hfits, hwriters⟩ := h.entered { w.enter call (.returned (compute call read)) with
      target := some inode, temp := none } rfl trivial (.inr hothers)
    have hcontent : (some inode).map w.text = some (.document (compute call read)) := by
      rw [Option.map_some, htext]
    refine ⟨⟨hfits, hwriters, ?_, ?_, ?_⟩, read, inode, hphase, rfl, hcontent⟩
    · intro inode hinode
      cases hinode
    · rintro inode' (hinode | hinode)
      · obtain rfl := Option.some.inj hinode
        exact h.old inode (.inr htemp)
      · cases hinode
    · intro text hget
      exact ⟨_, Option.some.inj (hget.symm.trans hcontent)⟩
  · rw [hnone] at htemp
    cases htemp

/-- A call that does not return leaves what has returned. -/
theorem Serial.of_enter {start : Option D} (h : Serial compute start w) {phase : Phase D}
    (hbefore : (w.phases call).isReturned = false) (hphase : phase.isReturned = false)
    (hphases : w'.phases = Function.update w.phases call phase) (hcontent : w'.content = w.content) :
    Serial compute start w' := by
  obtain ⟨order, hnodup, hmem, hdocument⟩ := h
  refine ⟨order, hnodup, fun other => ?_, ?_⟩
  · rw [hmem, hphases, Function.update_apply]
    split
    · rename_i hcall
      rw [hcall, hbefore, hphase]
    · rfl
  · rw [World.document, hcontent]
    exact hdocument

/-- A call that has read what the file holds comes last. -/
theorem Serial.of_return {start : Option D} (h : Serial compute start w) {new : D}
    (hbefore : (w.phases call).isReturned = false)
    (hphases : w'.phases = Function.update w.phases call (.returned new))
    (hcontent : w'.content = some (.document (compute call w.document))) :
    Serial compute start w' := by
  obtain ⟨order, hnodup, hmem, hdocument⟩ := h
  have hcall : call ∉ order := by
    rw [hmem, hbefore]
    simp
  refine ⟨order ++ [call], ?_, fun other => ?_, ?_⟩
  · rw [List.nodup_append]
    refine ⟨hnodup, List.nodup_singleton call, fun first hfirst second hsecond heq => ?_⟩
    rw [heq, List.mem_singleton.mp hsecond] at hfirst
    exact hcall hfirst
  · rw [List.mem_append, List.mem_singleton, hmem, hphases, Function.update_apply]
    split
    · simp [*, Phase.isReturned]
    · simp [*]
  · rw [List.foldl_append, ← hdocument, World.document, hcontent]
    rfl

/-- One step of a tidy world in which the others keep apart. -/
theorem Tidy.step {start : Option D} (h : Tidy compute w) (hserial : Serial compute start w)
    {label : Label ι} (hapart : Apart w label) {r : Unit}
    (hstep : w.step compute label = some (r, w')) : Tidy compute w' ∧ Serial compute start w' := by
  cases label with
  | load call =>
      obtain ⟨hphase, heq⟩ := load_cases hstep
      exact ⟨h.load hstep, hserial.of_enter (by rw [hphase]; rfl) rfl (by rw [heq]; rfl)
        (by rw [heq]; rfl)⟩
  | openTemp call =>
      obtain ⟨read, hphase, heq⟩ := openTemp_cases hstep
      obtain ⟨htidy, hcontent⟩ := h.openTemp hapart hstep
      exact ⟨htidy, hserial.of_enter (by rw [hphase]; rfl) rfl (by rw [heq]; rfl) hcontent⟩
  | write call covers =>
      obtain ⟨read, inode, hphase, heq⟩ := write_cases hstep
      obtain ⟨htidy, hcontent⟩ := h.write hstep
      exact ⟨htidy, hserial.of_enter (by rw [hphase]; rfl) rfl (by rw [heq]; rfl) hcontent⟩
  | replace call =>
      obtain ⟨htidy, read, inode, hphase, hphases, hcontent⟩ := h.replace hstep
      have hread : w.document = read := hapart read (by rw [hphase]; rfl)
      rw [← hread] at hphases hcontent
      exact ⟨htidy, hserial.of_return (by rw [hphase]; rfl) hphases hcontent⟩

end Preservation

/-! ## Runs -/

/-- The file and the temporary name to begin with: the file is not there, or whole. -/
theorem tidy_initial {compute : ι → Option D → D} {target : Option D} {temp : Option (Text D)} :
    Tidy compute (World.initial (target.map .document) temp : World ι D) := by
  refine ⟨fun _ => trivial, fun _ _ _ _ => rfl, ?_, ?_, ?_⟩
  · intro inode htemp htarget
    obtain ⟨_, _, rfl⟩ := Option.map_eq_some_iff.mp htemp
    obtain ⟨_, _, heq⟩ := Option.map_eq_some_iff.mp htarget
    cases heq
  · rintro inode (hnamed | hnamed)
    · obtain ⟨_, _, rfl⟩ := Option.map_eq_some_iff.mp hnamed
      exact Nat.zero_lt_two
    · obtain ⟨_, _, rfl⟩ := Option.map_eq_some_iff.mp hnamed
      exact Nat.one_lt_two
  · intro text hcontent
    cases target with
    | none => cases hcontent
    | some d => exact ⟨d, (Option.some.inj hcontent).symm⟩

/-- **One after the other.**  A run whose calls keep apart raises nothing, leaves the
file whole, and ends as some order of the calls that returned. -/
theorem serial_of_run [DecidableEq ι] {compute : ι → Option D → D} {target : Option D}
    {temp : Option (Text D)} {w : World ι D}
    (hrun : Machine.Run (World.step compute) Apart
      (World.initial (target.map .document) temp) w) :
    Tidy compute w ∧ Serial compute target w := by
  refine hrun.invariant (P := fun w => Tidy compute w ∧ Serial compute target w) ⟨tidy_initial, ?_⟩
    fun w label r w' h hapart hstep => h.1.step h.2 hapart hstep
  refine ⟨[], List.nodup_nil, fun call => by simp [World.initial, Phase.isReturned], ?_⟩
  cases target with
  | none => rfl
  | some d => rfl

end SharedTemp
