import UltimateBBSBox.Admin.Gate
import UltimateBBSBox.Library.Recent

/-!
# Escalation of the backoff

Logins of one user from one source that fail in a row, with calls about other users and
sources in between.  An entry is dropped once its deadline has passed, and with it the count;
so the backoff escalates as long as every failure is counted before the deadline that the
one before it has set (`retryAfter_of_inTime`).
-/

namespace UltimateBBSBox.Admin

/-! ## The table -/

namespace LoginThrottle

variable {maxEntries failures : ℕ} {now deadline : ℚ} {key key' : Kind × String} {entries : Entries}
  {touched : Finset (Kind × String)}

theorem delay_mono : Monotone delay := by
  intro m n h
  unfold delay
  split_ifs
  · exact le_rfl
  · exact Nat.zero_le _
  · omega
  · have hpow : 2 ^ (m - 4) ≤ 2 ^ (n - 4) := Nat.pow_le_pow_right (by decide) (by omega)
    omega

theorem delay_pos (h : 4 ≤ failures) : 0 < delay failures := by
  unfold delay
  have hpow : 0 < 2 ^ (failures - 4) := Nat.pow_pos (by decide)
  rw [if_neg (by omega)]
  omega

theorem mem_expired_iff (h : entries.get? key = some (failures, deadline)) :
    key ∈ expired now entries ↔ 4 ≤ failures ∧ deadline ≤ now := by
  unfold expired
  rw [List.mem_map]
  constructor
  · rintro ⟨⟨key', failures', deadline'⟩, hmem, rfl⟩
    obtain ⟨hentry, hpassed⟩ := List.mem_filter.mp hmem
    rw [Dict.get?_of_mem_entries hentry, Option.some.injEq, Prod.mk.injEq] at h
    obtain ⟨rfl, rfl⟩ := h
    simpa using hpassed
  · intro hpassed
    exact ⟨_, List.mem_filter.mpr ⟨Dict.mem_entries_of_get? h, by simpa using hpassed⟩, rfl⟩

/-- An entry outlasts the sweep: there is room for it, and it is no deadline that has passed. -/
theorem recent_cleanup (h : entries.Recent key (failures, deadline) touched)
    (hroom : touched.card < maxEntries) (hlive : 4 ≤ failures → now < deadline) :
    (cleanup maxEntries now entries).Recent key (failures, deadline) touched := by
  unfold cleanup
  refine (h.popAll fun hexpired => ?_).popOldest hroom
  obtain ⟨hmany, hpassed⟩ := (mem_expired_iff h.get?).mp hexpired
  exact absurd (hlive hmany) (not_lt.mpr hpassed)

/-- The sweep only drops entries. -/
theorem get?_of_get?_cleanup {value : ℕ × ℚ}
    (h : (cleanup maxEntries now entries).get? key = some value) : entries.get? key = some value := by
  unfold cleanup at h
  have hkept := Dict.get?_of_mem_entries (Dict.mem_of_mem_popOldest (Dict.mem_entries_of_get? h))
  rw [Dict.popAll_eq_filterKeys, Dict.get?_filterKeys] at hkept
  split at hkept
  · exact hkept
  · cases hkept

theorem recent_count (now : ℚ) (key : Kind × String) (entries : Entries) :
    (count now key entries).2.Recent key ((entries.getD key (0, now)).1 + 1,
      now + delay ((entries.getD key (0, now)).1 + 1)) ∅ := Dict.recent_touch

theorem recent_count_ne (h : entries.Recent key (failures, deadline) touched) (hne : key ≠ key') :
    (count now key' entries).2.Recent key (failures, deadline) (insert key' touched) := h.touch hne

theorem get?_count_ne (hne : key ≠ key') : (count now key' entries).2.get? key = entries.get? key := by
  unfold count
  rw [Dict.get?_set_ne _ _ hne, Dict.get?_pop_ne _ hne]

/-- The count and the deadline of a key are at most these, if it has an entry. -/
def AtMost (entries : Entries) (key : Kind × String) (failures : ℕ) (deadline : ℚ) : Prop :=
  ∀ n d, entries.get? key = some (n, d) → n ≤ failures ∧ d ≤ deadline

theorem AtMost.cleanup (h : AtMost entries key failures deadline) :
    AtMost (cleanup maxEntries now entries) key failures deadline :=
  fun n d hget => h n d (get?_of_get?_cleanup hget)

theorem AtMost.pop (h : AtMost entries key failures deadline) :
    AtMost (entries.pop key') key failures deadline := by
  intro n d hget
  rw [Dict.get?_pop] at hget
  split at hget
  · cases hget
  · exact h n d hget

theorem AtMost.count_ne (h : AtMost entries key failures deadline) (hne : key ≠ key') :
    AtMost (count now key' entries).2 key failures deadline := by
  intro n d hget
  rw [get?_count_ne hne] at hget
  exact h n d hget

/-- One more failure of the key. -/
theorem AtMost.count (h : AtMost entries key failures deadline) :
    AtMost (count now key entries).2 key (failures + 1) (now + delay (failures + 1)) := by
  have hbefore : (entries.getD key (0, now)).1 ≤ failures := by
    unfold Dict.getD
    cases hget : entries.get? key with
    | none => exact Nat.zero_le _
    | some value => exact (h value.1 value.2 hget).1
  intro n d hget
  rw [(recent_count now key entries).get?, Option.some.injEq, Prod.mk.injEq] at hget
  obtain ⟨rfl, rfl⟩ := hget
  have hdelay : delay ((entries.getD key (0, now)).1 + 1) ≤ delay (failures + 1) :=
    delay_mono (Nat.succ_le_succ hbefore)
  exact ⟨Nat.succ_le_succ hbefore, by gcongr⟩

end LoginThrottle

/-! ## Attempts -/

open LoginThrottle

/-- A call between two attempts: one that only sweeps the table (`retry_after` or `size`), a failure
or a success. -/
inductive Call
  | sweep (now : ℚ)
  | failure (now : ℚ) (username source : String)
  | success (username source : String)

namespace Call

/-- What the call makes of the throttle. -/
def apply (throttle : LoginThrottle) : Call → LoginThrottle
  | .sweep now => throttle.swept now
  | .failure now username source => (throttle.failure now username source).2
  | .success username source => throttle.success username source

/-- The readings of the clock. -/
def readings : Call → List ℚ
  | .sweep now => [now]
  | .failure now _ _ => [now]
  | .success _ _ => []

/-- The keys that the call touches. -/
def touched : Call → Finset (Kind × String)
  | .sweep _ => ∅
  | .failure _ username source => {(.user, username), (.source, source)}
  | .success _ _ => ∅

/-- The call is about another user and another source. -/
def Elsewhere (user source : String) : Call → Prop
  | .sweep _ => True
  | .failure _ username source' => username ≠ user ∧ source' ≠ source
  | .success username source' => username ≠ user ∧ source' ≠ source

end Call

/-- A login attempt, and the calls between the one before it and itself. -/
structure Attempt where
  calls : List Call
  env : Environment
  password : String

namespace Attempt

/-- The readings of the clock, from the attempt before on. -/
def readings (attempt : Attempt) : List ℚ :=
  attempt.calls.flatMap Call.readings ++ [attempt.env.checked, attempt.env.failed]

/-- The keys touched in between. -/
def touched (attempt : Attempt) : Finset (Kind × String) :=
  attempt.calls.foldl (fun keys call => keys ∪ call.touched) ∅

end Attempt

/-- `remote or "unknown"`. -/
def sourceOf (remote : String) : String := if remote = "" then "unknown" else remote

/-- The verification of a password. -/
def DashboardApp.verify (app : DashboardApp) (users : Users) (user password : String) : Option Account :=
  if app.auth then AuthStore.authenticate app.python users user password else none

/-- What a login does to the throttle: it asks, and counts what the verification came to. -/
theorem run_login {app : DashboardApp} {env : Environment} {user password remote : String} {w : World} :
    (app.login env user password remote).run w =
      if (w.throttle.retryAfter env.checked user (sourceOf remote)).1 ≠ 0 then
        some (.ok none, { w with throttle := w.throttle.swept env.checked })
      else
        match app.verify w.users user password with
        | none => some (.ok none, { w with
            throttle := ((w.throttle.swept env.checked).failure env.failed user (sourceOf remote)).2 })
        | some record => some (.ok (some env.token.text), ({ w with
            throttle := (w.throttle.swept env.checked).success user (sourceOf remote) } : World).create
              env.token.text ⟨user, record.role, env.csrf, env.opened + app.lifetime⟩ env.opened) := by
  unfold DashboardApp.login DashboardApp.retryAfter DashboardApp.verify
  simp only [Act.run_bind, Act.run_get, Act.run_modify, Act.run_pure, ← sourceOf.eq_1]
  by_cases hzero : (w.throttle.retryAfter env.checked user (sourceOf remote)).1 ≠ 0
  · rw [if_pos hzero, if_pos hzero]
    rfl
  · rw [if_neg hzero, if_neg hzero]
    simp only [Act.run_bind, Act.run_get]
    cases if app.auth = true then AuthStore.authenticate app.python w.users user password else none with
    | none => rfl
    | some record => rfl

/-- Attempts of a user from a source that failed in a row, the last one first: each was made when
`retry_after` was 0, and touched in between were fewer than `max_entries` keys, all of others. -/
inductive Streak (app : DashboardApp) (user remote : String) : List Attempt → World → Prop
  | start {w : World} (huser : w.throttle.entries.get? (.user, user) = none)
      (hsource : w.throttle.entries.get? (.source, sourceOf remote) = none) : Streak app user remote [] w
  | fail {before : List Attempt} {w w₁ w₂ : World} (attempt : Attempt)
      (h : Streak app user remote before w)
      (hbetween : w₁.throttle = attempt.calls.foldl Call.apply w.throttle)
      (helsewhere : ∀ call ∈ attempt.calls, call.Elsewhere user (sourceOf remote))
      (hfew : attempt.touched.card < w.throttle.maxEntries)
      (hzero : (w₁.throttle.retryAfter attempt.env.checked user (sourceOf remote)).1 = 0)
      (hfailed : (app.login attempt.env user attempt.password remote).run w₁ = some (.ok none, w₂)) :
      Streak app user remote (attempt :: before) w₂

/-- The deadline that the last of some failures has set. -/
def deadlineOf : List Attempt → ℚ
  | [] => 0
  | last :: before => last.env.failed + delay (before.length + 1)

/-- From the fifth failure on, the clock is read before the deadline of the failure before; and a
table of one entry is not used before the epoch. -/
structure Timely (maxEntries : ℕ) (before : List Attempt) (attempt : Attempt) : Prop where
  inTime : 4 ≤ before.length → ∀ reading ∈ attempt.readings, reading < deadlineOf before
  sinceEpoch : 1 < maxEntries ∨ 0 ≤ attempt.env.failed

/-- All attempts are timely. -/
def InTime (maxEntries : ℕ) : List Attempt → Prop
  | [] => True
  | attempt :: before => Timely maxEntries before attempt ∧ InTime maxEntries before

/-! ## What a streak leaves in the table -/

theorem maxEntries_apply (call : Call) (throttle : LoginThrottle) :
    (call.apply throttle).maxEntries = throttle.maxEntries := by
  cases call <;> rfl

theorem maxEntries_foldl (calls : List Call) (throttle : LoginThrottle) :
    (calls.foldl Call.apply throttle).maxEntries = throttle.maxEntries := by
  induction calls generalizing throttle with
  | nil => rfl
  | cons call rest ih =>
      rw [List.foldl_cons, ih, maxEntries_apply]

theorem subset_foldl_touched (calls : List Call) (touched : Finset (Kind × String)) :
    touched ⊆ calls.foldl (fun keys call => keys ∪ call.touched) touched := by
  induction calls generalizing touched with
  | nil => exact Finset.Subset.refl _
  | cons call rest ih => exact Finset.subset_union_left.trans (ih _)

/-- The entry of the source has all failures; the one of the user, if it is there, no more. -/
structure Backoff (user source : String) (failures : ℕ) (deadline : ℚ)
    (touched : Finset (Kind × String)) (entries : Entries) : Prop where
  counted : 0 < failures → entries.Recent (.source, source) (failures, deadline) touched
  uncounted : failures = 0 → entries.get? (.source, source) = none
  user : AtMost entries (.user, user) failures deadline

section Steps

variable {user source : String} {failures maxEntries : ℕ} {deadline now : ℚ}
  {touched : Finset (Kind × String)} {entries : Entries} {throttle : LoginThrottle}

theorem Backoff.cleanup (h : Backoff user source failures deadline touched entries)
    (hroom : touched.card < maxEntries) (hlive : 4 ≤ failures → now < deadline) :
    Backoff user source failures deadline touched (cleanup maxEntries now entries) where
  counted hpos := recent_cleanup (h.counted hpos) hroom hlive
  uncounted hzero := by
    cases hget : (LoginThrottle.cleanup maxEntries now entries).get? (.source, source) with
    | none => rfl
    | some value =>
        have hbefore := get?_of_get?_cleanup hget
        rw [h.uncounted hzero] at hbefore
        cases hbefore
  user := h.user.cleanup

/-- A failure of another key. -/
theorem Backoff.count_ne (h : Backoff user source failures deadline touched entries) (now : ℚ)
    {key : Kind × String} (huser : (.user, user) ≠ key) (hsource : (.source, source) ≠ key) :
    Backoff user source failures deadline (insert key touched) (count now key entries).2 where
  counted hpos := recent_count_ne (h.counted hpos) hsource
  uncounted hzero := by
    rw [get?_count_ne hsource]
    exact h.uncounted hzero
  user := h.user.count_ne huser

theorem Backoff.pop (h : Backoff user source failures deadline touched entries)
    {key : Kind × String} (hsource : (.source, source) ≠ key) :
    Backoff user source failures deadline touched (entries.pop key) where
  counted hpos := (h.counted hpos).pop hsource
  uncounted hzero := by
    rw [Dict.get?_pop_ne _ hsource]
    exact h.uncounted hzero
  user := h.user.pop

/-- A call in between leaves the two entries as they are. -/
theorem Backoff.apply (h : Backoff user source failures deadline touched throttle.entries)
    {call : Call} (helsewhere : call.Elsewhere user source)
    (hroom : (touched ∪ call.touched).card < throttle.maxEntries)
    (hlive : 4 ≤ failures → ∀ reading ∈ call.readings, reading < deadline) :
    Backoff user source failures deadline (touched ∪ call.touched) (call.apply throttle).entries := by
  have hbefore : touched.card < throttle.maxEntries :=
    lt_of_le_of_lt (Finset.card_le_card Finset.subset_union_left) hroom
  cases call with
  | sweep now =>
      rw [Call.touched, Finset.union_empty]
      exact h.cleanup hbefore fun hmany => hlive hmany now List.mem_cons_self
  | failure now username source' =>
      have hnow : 4 ≤ failures → now < deadline := fun hmany => hlive hmany now List.mem_cons_self
      have hunion : insert (Kind.source, source') (insert (Kind.user, username) touched) =
          touched ∪ (Call.failure now username source').touched := by
        ext key
        simp only [Call.touched, Finset.mem_insert, Finset.mem_union, Finset.mem_singleton]
        tauto
      have huser : (Kind.user, user) ≠ (.user, username) :=
        fun heq => helsewhere.1 (Prod.mk.inj heq).2.symm
      have hsource : (Kind.source, source) ≠ (.source, source') :=
        fun heq => helsewhere.2 (Prod.mk.inj heq).2.symm
      -- swept, counted for the user, counted for the source, and swept again
      have hcounted :=
        ((h.cleanup hbefore hnow).count_ne now huser (by simp)).count_ne now (by simp) hsource
      rw [hunion] at hcounted
      exact hcounted.cleanup hroom hnow
  | success username source' =>
      rw [Call.touched, Finset.union_empty]
      exact (h.pop (by simp)).pop fun heq => helsewhere.2 (Prod.mk.inj heq).2.symm

/-- So do all calls in between. -/
theorem Backoff.foldl {calls : List Call}
    (h : Backoff user source failures deadline touched throttle.entries)
    (helsewhere : ∀ call ∈ calls, call.Elsewhere user source)
    (hroom : (calls.foldl (fun keys call => keys ∪ call.touched) touched).card < throttle.maxEntries)
    (hlive : 4 ≤ failures → ∀ call ∈ calls, ∀ reading ∈ call.readings, reading < deadline) :
    Backoff user source failures deadline
      (calls.foldl (fun keys call => keys ∪ call.touched) touched)
      (calls.foldl Call.apply throttle).entries := by
  induction calls generalizing throttle touched with
  | nil => exact h
  | cons call rest ih =>
      have hfirst : (touched ∪ call.touched).card < throttle.maxEntries :=
        lt_of_le_of_lt (Finset.card_le_card (subset_foldl_touched rest _)) hroom
      have hnext := h.apply (helsewhere call List.mem_cons_self) hfirst
        fun hmany => hlive hmany call List.mem_cons_self
      have hsame : (call.apply throttle).maxEntries = throttle.maxEntries := maxEntries_apply call throttle
      refine ih hnext (fun other hmem => helsewhere other (List.mem_cons_of_mem _ hmem)) ?_
        fun hmany other hmem => hlive hmany other (List.mem_cons_of_mem _ hmem)
      rw [hsame]
      exact hroom

theorem Backoff.getD_source (h : Backoff user source failures deadline touched entries) :
    (entries.getD (.source, source) (0, now)).1 = failures := by
  unfold Dict.getD
  rcases Nat.eq_zero_or_pos failures with hzero | hpos
  · rw [h.uncounted hzero, hzero, Option.getD_none]
  · rw [(h.counted hpos).get?, Option.getD_some]

/-- A deadline that has just been set has not passed. -/
theorem lt_add_delay (now : ℚ) (h : 4 ≤ failures) : now < now + delay failures := by
  have hpos : (0 : ℚ) < delay failures := Nat.cast_pos.mpr (delay_pos h)
  linarith

/-- The next failure: both entries count it. -/
theorem Backoff.failure (h : Backoff user source failures deadline touched throttle.entries)
    (hroom : touched.card < throttle.maxEntries) (hlive : 4 ≤ failures → now < deadline) :
    Backoff user source (failures + 1) (now + delay (failures + 1)) ∅
      (throttle.failure now user source).2.entries := by
  have hswept := h.cleanup hroom hlive
  have hpos : (∅ : Finset (Kind × String)).card < throttle.maxEntries :=
    lt_of_le_of_lt (Nat.zero_le _) hroom
  refine Backoff.cleanup ⟨fun _ => ?_, fun hzero => ?_, ?_⟩ hpos (lt_add_delay now)
  · have hrecent := recent_count now (.source, source)
      (count now (.user, user) (throttle.swept now).entries).2
    have hbefore : ((count now (.user, user) (throttle.swept now).entries).2.getD
        (.source, source) (0, now)).1 = failures := by
      have hget : (count now (.user, user) (throttle.swept now).entries).2.get? (.source, source) =
          (throttle.swept now).entries.get? (.source, source) := get?_count_ne (by simp)
      unfold Dict.getD
      rw [hget]
      exact hswept.getD_source
    rw [hbefore] at hrecent
    exact hrecent
  · exact absurd hzero (Nat.succ_ne_zero _)
  · exact (hswept.user.count).count_ne (by simp)

/-- With room for two, the entry of the user is there as well. -/
theorem recent_user_failure (user source : String) (now : ℚ) (hroom : 1 < throttle.maxEntries) :
    ∃ n, (throttle.failure now user source).2.entries.Recent (.user, user) (n, now + delay n)
      {(.source, source)} := by
  have hcounted := recent_count now (.user, user) (throttle.swept now).entries
  refine ⟨_, recent_cleanup (recent_count_ne hcounted (by simp)) ?_ (lt_add_delay now)⟩
  rw [Finset.card_singleton]
  exact hroom

theorem truncate_delay (n : ℕ) : truncate ((n : ℚ) + 999 / 1000) = n := by
  unfold truncate
  rw [if_pos (by positivity), Int.floor_natCast_add]
  norm_num

/-- Right after a failure the wait is the delay. -/
theorem retryAfter_failure (h : Backoff user source failures deadline touched throttle.entries)
    (hroom : touched.card < throttle.maxEntries) (hlive : 4 ≤ failures → now < deadline)
    (hepoch : 1 < throttle.maxEntries ∨ 0 ≤ now) :
    ((throttle.failure now user source).2.retryAfter now user source).1 = delay (failures + 1) := by
  have hpos : (∅ : Finset (Kind × String)).card < throttle.maxEntries :=
    lt_of_le_of_lt (Nat.zero_le _) hroom
  have hswept := (h.failure hroom hlive).cleanup hpos (lt_add_delay now)
  have hsource := (hswept.counted (Nat.succ_pos _)).get?
  have hmax : max (((throttle.failure now user source).2.swept now).entries.getD (.user, user) (0, 0)).2
      (((throttle.failure now user source).2.swept now).entries.getD (.source, source) (0, 0)).2 =
        now + delay (failures + 1) := by
    have hdeadline : (((throttle.failure now user source).2.swept now).entries.getD
        (.source, source) (0, 0)).2 = now + delay (failures + 1) := by
      unfold Dict.getD
      rw [show ((throttle.failure now user source).2.swept now).entries.get? (.source, source) = _
        from hsource, Option.getD_some]
    rw [hdeadline]
    refine max_eq_right ?_
    -- the wait of the user is no longer, and without an entry it is up at the epoch
    unfold Dict.getD
    cases hget : ((throttle.failure now user source).2.swept now).entries.get? (.user, user) with
    | some value => exact (hswept.user value.1 value.2 hget).2
    | none =>
        rcases hepoch with htwo | hnow
        · obtain ⟨n, hrecent⟩ := recent_user_failure user source now htwo
          have hkept : ((throttle.failure now user source).2.swept now).entries.Recent (.user, user)
              (n, now + delay n) {(.source, source)} :=
            recent_cleanup hrecent (by rwa [Finset.card_singleton]) (lt_add_delay now)
          rw [hkept.get?] at hget
          cases hget
        · exact add_nonneg hnow (Nat.cast_nonneg _)
  show max 0 (truncate (max _ _ - now + 999 / 1000)) = _
  rw [hmax, add_sub_cancel_left, truncate_delay]
  exact max_eq_right (Nat.cast_nonneg _)

end Steps

/-! ## Streaks -/

section Streaks

variable {app : DashboardApp} {user remote : String} {attempt : Attempt} {before attempts : List Attempt}
  {w w' : World}

/-- A login that fails when it may be made counts one more failure. -/
theorem throttle_of_login
    (hzero : (w.throttle.retryAfter attempt.env.checked user (sourceOf remote)).1 = 0)
    (hfailed : (app.login attempt.env user attempt.password remote).run w = some (.ok none, w')) :
    w'.throttle = ((w.throttle.swept attempt.env.checked).failure attempt.env.failed user
      (sourceOf remote)).2 := by
  rw [run_login, if_neg (not_not.mpr hzero)] at hfailed
  cases hverified : app.verify w.users user attempt.password with
  | none =>
      rw [hverified, Option.some.injEq, Prod.mk.injEq] at hfailed
      rw [← hfailed.2]
  | some record =>
      rw [hverified] at hfailed
      cases hfailed

theorem maxEntries_of_login
    (hzero : (w.throttle.retryAfter attempt.env.checked user (sourceOf remote)).1 = 0)
    (hfailed : (app.login attempt.env user attempt.password remote).run w = some (.ok none, w')) :
    w'.throttle.maxEntries = w.throttle.maxEntries := by
  rw [throttle_of_login hzero hfailed]
  rfl

/-- What the failure of a timely attempt finds in the table. -/
theorem Timely.backoff {w₁ : World} (htimely : Timely w.throttle.maxEntries before attempt)
    (h : Backoff user (sourceOf remote) before.length (deadlineOf before) ∅ w.throttle.entries)
    (hbetween : w₁.throttle = attempt.calls.foldl Call.apply w.throttle)
    (helsewhere : ∀ call ∈ attempt.calls, call.Elsewhere user (sourceOf remote))
    (hfew : attempt.touched.card < w.throttle.maxEntries) :
    Backoff user (sourceOf remote) before.length (deadlineOf before) attempt.touched
      (w₁.throttle.swept attempt.env.checked).entries := by
  have hlive := htimely.inTime
  unfold Attempt.readings at hlive
  have hcalls := h.foldl helsewhere hfew fun hmany call hcall reading hreading =>
    hlive hmany reading (List.mem_append_left _ (List.mem_flatMap.mpr ⟨call, hcall, hreading⟩))
  rw [← hbetween] at hcalls
  have hroom : attempt.touched.card < w₁.throttle.maxEntries := by
    rwa [hbetween, maxEntries_foldl]
  exact hcalls.cleanup hroom fun hmany =>
    hlive hmany _ (List.mem_append_right _ List.mem_cons_self)

/-- The failure itself is in time. -/
theorem Timely.live {maxEntries : ℕ} (h : Timely maxEntries before attempt) (hmany : 4 ≤ before.length) :
    attempt.env.failed < deadlineOf before :=
  h.inTime hmany _ (List.mem_append_right _ (List.mem_cons_of_mem _ List.mem_cons_self))

/-- What a streak leaves, if every failure was in time. -/
theorem backoff_of_streak (h : Streak app user remote attempts w)
    (htime : InTime w.throttle.maxEntries attempts) :
    Backoff user (sourceOf remote) attempts.length (deadlineOf attempts) ∅ w.throttle.entries := by
  induction h with
  | start huser hsource =>
      refine ⟨fun hpos => absurd hpos (lt_irrefl _), fun _ => hsource, fun n d hget => ?_⟩
      rw [huser] at hget
      cases hget
  | @fail before w w₁ w₂ attempt _ hbetween helsewhere hfew hzero hfailed ih =>
      have hsame : w₂.throttle.maxEntries = w.throttle.maxEntries := by
        rw [maxEntries_of_login hzero hfailed, hbetween, maxEntries_foldl]
      rw [hsame] at htime
      have hbefore := htime.1.backoff (ih htime.2) hbetween helsewhere hfew
      have hroom : attempt.touched.card < (w₁.throttle.swept attempt.env.checked).maxEntries := by
        show _ < w₁.throttle.maxEntries
        rwa [hbetween, maxEntries_foldl]
      rw [throttle_of_login hzero hfailed]
      exact hbefore.failure hroom htime.1.live

end Streaks

/-- **The backoff escalates as long as every failure is in time.** -/
theorem retryAfter_of_inTime (app : DashboardApp) (user remote : String) (attempt : Attempt)
    (before : List Attempt) (w : World) (h : Streak app user remote (attempt :: before) w)
    (htime : InTime w.throttle.maxEntries (attempt :: before)) :
    (w.throttle.retryAfter attempt.env.failed user (sourceOf remote)).1 = delay (before.length + 1) := by
  cases h with
  | @fail _ w₀ w₁ _ _ hstreak hbetween helsewhere hfew hzero hfailed =>
      have hsame : w.throttle.maxEntries = w₀.throttle.maxEntries := by
        rw [maxEntries_of_login hzero hfailed, hbetween, maxEntries_foldl]
      rw [hsame] at htime
      have hbefore := htime.1.backoff (backoff_of_streak hstreak htime.2) hbetween helsewhere hfew
      have hmax : (w₁.throttle.swept attempt.env.checked).maxEntries = w₀.throttle.maxEntries := by
        show w₁.throttle.maxEntries = _
        rw [hbetween, maxEntries_foldl]
      rw [throttle_of_login hzero hfailed]
      exact retryAfter_failure hbefore (by rwa [hmax]) htime.1.live (by
        rw [hmax]
        exact htime.1.sinceEpoch)

/-! ## Failures without calls in between -/

/-- A dashboard without accounts. -/
def emptyDashboard : DashboardApp where
  python := plainPython
  auth := true
  audit := false
  actions := none
  requireAuth := true
  secureCookies := true
  lifetime := 3600

/-- An attempt with one reading of the clock. -/
def attemptAt (now : ℚ) : Attempt := ⟨[], moment now ⟨"r1", by decide⟩, "guess"⟩

/-- What failures at some times leave, the last one first. -/
def failedAt : List ℚ → World
  | [] => .fresh ∅ 4096
  | now :: times =>
      { failedAt times with
        throttle := (((failedAt times).throttle.swept now).failure now "olga" "10.0.0.7").2 }

/-- Each of the failures was counted when nothing had to be waited for. -/
def Admitted : List ℚ → Prop
  | [] => True
  | now :: times =>
      ((failedAt times).throttle.retryAfter now "olga" "10.0.0.7").1 = 0 ∧ Admitted times

theorem users_failedAt (times : List ℚ) : (failedAt times).users = ∅ := by
  induction times with
  | nil => rfl
  | cons now times ih => exact ih

theorem maxEntries_failedAt (times : List ℚ) : (failedAt times).throttle.maxEntries = 4096 := by
  induction times with
  | nil => rfl
  | cons now times ih => exact ih

theorem streak_failedAt {times : List ℚ} (h : Admitted times) :
    Streak emptyDashboard "olga" "10.0.0.7" (times.map attemptAt) (failedAt times) := by
  induction times with
  | nil => exact .start rfl rfl
  | cons now times ih =>
      have hfew : (attemptAt now).touched.card < (failedAt times).throttle.maxEntries := by
        rw [maxEntries_failedAt]
        show (∅ : Finset (Kind × String)).card < 4096
        decide
      refine .fail (attemptAt now) (ih h.2) rfl (fun _ hmem => absurd hmem List.not_mem_nil) hfew h.1 ?_
      have hauth : AuthStore.authenticate plainPython (failedAt times).users "olga" "guess" = none := by
        rw [users_failedAt]
        rfl
      have hzero : ((failedAt times).throttle.retryAfter (attemptAt now).env.checked "olga"
          (sourceOf "10.0.0.7")).1 = 0 := h.1
      rw [run_login, if_neg (not_not.mpr hzero)]
      unfold DashboardApp.verify
      rw [show (attemptAt now).password = "guess" from rfl,
        show AuthStore.authenticate emptyDashboard.python _ _ _ = _ from hauth]
      rfl

/-- A fifth failure in the last millisecond before the deadline. -/
theorem retryAfter_five : ((failedAt [9999 / 2000, 0, 0, 0, 0]).throttle.retryAfter (9999 / 2000)
    "olga" "10.0.0.7").1 = delay 5 := by
  have hadmitted : Admitted [9999 / 2000, 0, 0, 0, 0] := by
    refine ⟨?_, ?_, ?_, ?_, ?_, trivial⟩ <;> decide +kernel
  have htimely : ∀ before : List Attempt, before.length < 4 →
      Timely 4096 before (attemptAt 0) := fun before hlength =>
    ⟨fun hmany => absurd hlength (not_lt.mpr hmany), .inl (by decide)⟩
  refine retryAfter_of_inTime emptyDashboard "olga" "10.0.0.7" (attemptAt (9999 / 2000))
    ([0, 0, 0, 0].map attemptAt) _ (streak_failedAt hadmitted) ?_
  rw [maxEntries_failedAt]
  refine ⟨⟨fun _ reading hmem => ?_, .inl (by decide)⟩, htimely _ (by decide), htimely _ (by decide),
    htimely _ (by decide), htimely _ (by decide), trivial⟩
  have hreading : reading = 9999 / 2000 := by
    simpa [Attempt.readings, attemptAt, moment] using hmem
  rw [hreading]
  decide +kernel

/-- On a clock of whole seconds the first moment is the deadline itself: the fifth failure starts
again. -/
theorem retryAfter_restarts :
    Streak emptyDashboard "olga" "10.0.0.7" ([5, 0, 0, 0, 0].map attemptAt) (failedAt [5, 0, 0, 0, 0]) ∧
      (∀ now : ℕ, now < 5 →
        ((failedAt [0, 0, 0, 0]).throttle.retryAfter now "olga" "10.0.0.7").1 ≠ 0) ∧
      ((failedAt [5, 0, 0, 0, 0]).throttle.retryAfter 5 "olga" "10.0.0.7").1 ≠ delay 5 := by
  refine ⟨streak_failedAt ⟨?_, ?_, ?_, ?_, ?_, trivial⟩, ?_, ?_⟩ <;> decide +kernel

end UltimateBBSBox.Admin
