import Heel.Saas.TargetVerifier

/-! What `TargetVerifier` trusts. A check writes to the row it read at first, whatever challenge the
row has by then, and the count of the quota leaves out a target that is exactly as old as
`is_verified` still admits; runs without either trust proofs of current challenges only and keep
the quota. -/
namespace Heel.TargetVerification
open Lib Lib.JsonText Lib.Checks

variable {V : TargetVerifier} {s t : State} {rows rows' : List Target}

/-- A proof of the challenge of a row has been seen since the start that wrote the challenge. -/
def Shown (observed : List Observation) (r : Target) : Prop :=
  ∃ o ∈ observed, r.challenge ≤ o.starts ∧ o.network.shows r.hostname r.token = true

instance (observed : List Observation) (r : Target) : Decidable (Shown observed r) :=
  inferInstanceAs (Decidable (∃ o ∈ observed, _ ∧ _))

/-- No start has written the target of a check between its snapshot and its write. -/
def SameChallenge (s : State) : Action → Prop
  | .write i _ => ∀ c, s.checks[i]? = some c →
    ∀ r ∈ s.rows, r.targetId = c.row.targetId → r.challenge = c.row.challenge
  | _ => True

/-- No write takes place at the very instant at which another target of the workspace is as old as
`is_verified` admits. -/
def OffBoundary (s : State) : Action → Prop
  | .write i clock => clock.count = clock.write → ∀ c, s.checks[i]? = some c →
    ∀ r ∈ s.rows, r.workspaceId = c.workspaceId → r.targetId ≠ c.row.targetId →
      r.revokedAt = none → r.verifiedAt ≠ some (clock.write - reverifyAfter)
  | _ => True

/-- No reading of the clock is earlier than the one before it. -/
def Forward (s : State) : Action → Prop
  | .tick elapsed => 0 ≤ elapsed
  | .write _ clock => clock.Follows s.now
  | _ => True

instance (s : State) : ∀ a, Decidable (Forward s a)
  | .tick elapsed => inferInstanceAs (Decidable (0 ≤ elapsed))
  | .write _ clock => inferInstanceAs (Decidable (clock.Follows s.now))
  | .start .. | .snapshot .. | .observe .. | .revoke .. => inferInstanceAs (Decidable True)

/-- Every check of a workspace is made with the same limit. -/
def Uniform (workspaceId : String) (maxVerified : ℕ) : Action → Prop
  | .snapshot workspaceId' _ maxVerified' =>
    workspaceId' = workspaceId → maxVerified' = some (maxVerified : ℤ)
  | _ => True

/-! ### What the statements do to the rows -/

def Target.key (r : Target) : (String × String × Text) × Text × ℕ :=
  ((r.targetId, r.pair), r.token, r.challenge)

structure Started (number : ℕ) (rows rows' : List Target) : Prop where
  ids : (rows.map (·.targetId)).Nodup → (rows'.map (·.targetId)).Nodup
  pairs : (rows.map Target.pair).Nodup → (rows'.map Target.pair).Nodup
  kept : ∀ r ∈ rows, ∃ r' ∈ rows', r'.targetId = r.targetId ∧ r'.pair = r.pair ∧
    (r' = r ∨ r'.challenge = number)
  new : ∀ r' ∈ rows', r' ∈ rows ∨
    r'.verifiedAt = none ∧ r'.revokedAt = none ∧ r'.challenge = number
  fewer : ∀ q : Target → Bool, (∀ r, r.verifiedAt = none → q r = false) →
    rows'.countP q ≤ rows.countP q

theorem countP_update_le {p q q' : Target → Bool} {f : Target → Target}
    (h : ∀ r ∈ rows, q' (if p r then f r else r) = true → q r = true) :
    (Table.update p f rows).countP q' ≤ rows.countP q := by
  rw [Table.update, List.countP_map]
  exact List.countP_mono_left h

theorem start_ok {workspaceId : String} {hostname : Text} {draws : Draws} {now : ℚ} {number : ℕ}
    {challenge : Challenge}
    (h : start V workspaceId hostname draws now number rows = .ok (rows', challenge)) :
    Started number rows rows' := by
  simp only [start, bind_ok, require_ok, exists_const, pure, Except.pure, Except.ok.injEq,
    Prod.mk.injEq] at h
  obtain ⟨-, hfresh, hrows, -⟩ := h
  unfold Table.upsert at hrows
  split at hrows
  · subst hrows
    refine ⟨fun hids => ?_, fun hpairs => ?_, fun r hr => ?_, fun r' hr' => ?_, fun q hq => ?_⟩
    · rwa [Table.map_update]
      exact fun _ _ => rfl
    · rwa [Table.map_update]
      exact fun _ _ => rfl
    · refine ⟨_, Table.mem_update.mpr ⟨r, hr, rfl⟩, ?_⟩
      split
      · exact ⟨rfl, rfl, .inr rfl⟩
      · exact ⟨rfl, rfl, .inl rfl⟩
    · obtain ⟨r, hr, rfl⟩ := Table.mem_update.mp hr'
      split
      · exact .inr ⟨rfl, rfl, rfl⟩
      · exact .inl hr
    · refine countP_update_le fun r _ hr => ?_
      split at hr
      · rw [hq _ rfl] at hr
        cases hr
      · exact hr
  · next hnone =>
    subst hrows
    have hnew : ∀ r ∈ rows, r.pair ≠ (workspaceId, normalHostname V hostname) := by
      simpa using hnone
    refine ⟨fun hids => ?_, fun hpairs => ?_, fun r hr => ?_, fun r' hr' => ?_, fun q hq => ?_⟩
    · rw [List.map_append, List.nodup_append']
      refine ⟨hids, by simp, ?_⟩
      rw [List.map_singleton, List.disjoint_singleton, List.mem_map]
      rintro ⟨r, hr, hsame⟩
      exact hfresh r hr hsame
    · rw [List.map_append, List.nodup_append']
      refine ⟨hpairs, by simp, ?_⟩
      rw [List.map_singleton, List.disjoint_singleton, List.mem_map]
      rintro ⟨r, hr, hsame⟩
      exact hnew r hr hsame
    · exact ⟨r, List.mem_append_left _ hr, rfl, rfl, .inl rfl⟩
    · rw [List.mem_append, List.mem_singleton] at hr'
      rcases hr' with hr' | rfl
      · exact .inl hr'
      · exact .inr ⟨rfl, rfl, rfl⟩
    · rw [List.countP_append, List.countP_singleton, hq _ rfl]
      simp

theorem recordProof_ok {c : Check} {method : Method} {clock : Clock}
    (h : recordProof V c method clock rows = .ok rows') :
    rows' = Table.update (fun r => r.targetId = c.row.targetId)
        (fun r => { r with verifiedAt := some clock.write, method := some method }) rows ∧
      (alreadyVerified c clock.fresh rows = true ∨
        ∀ m ∈ c.maxVerified, (verifiedCount c.workspaceId clock.count rows : ℤ) < m) := by
  simp only [recordProof, bind_ok, require_ok, exists_const, pure, Except.pure,
    Except.ok.injEq] at h
  obtain ⟨hlimit, -, rfl⟩ := h
  refine ⟨rfl, ?_⟩
  by_cases halready : alreadyVerified c clock.fresh rows = true
  · exact .inl halready
  · refine .inr fun m hm => ?_
    rw [Option.mem_def] at hm
    rw [hm] at hlimit
    simpa [halready] using hlimit

theorem snapshot_some {workspaceId : String} {hostname : Text} {now : ℚ} {r : Target}
    (h : snapshot V workspaceId hostname now rows = some r) :
    r ∈ rows ∧ r.workspaceId = workspaceId := by
  rw [snapshot, Option.filter_eq_some_iff] at h
  have hpair := List.find?_some h.1
  rw [decide_eq_true_eq, Target.pair, Prod.mk.injEq] at hpair
  exact ⟨List.mem_of_find?_eq_some h.1, hpair.1⟩

theorem observe_shows {net : Network} {r : Target} {method : Method}
    (h : observe net r = some method) : net.shows r.hostname r.token = true := by
  unfold observe at h
  unfold Network.shows
  split at h
  · next hdns => simp [hdns]
  · split at h
    · next hhttp => simp [hhttp]
    · cases h

/-! ### The steps -/

inductive Did (V : TargetVerifier) (s t : State) : Action → Prop
  | passed {elapsed : ℚ} (ht : t = { s with now := s.now + elapsed }) : Did V s t (.tick elapsed)
  | refused {a : Action} (ht : t = s) : Did V s t a
  | started {workspaceId : String} {hostname : Text} {draws : Draws} {rows : List Target}
    (h : Started (s.starts + 1) s.rows rows)
    (ht : t = { s with rows := rows, starts := s.starts + 1 }) :
    Did V s t (.start workspaceId hostname draws)
  | read {workspaceId : String} {hostname : Text} {maxVerified : Option ℤ} {r : Target}
    (hr : r ∈ s.rows) (hworkspace : r.workspaceId = workspaceId)
    (ht : t = { s with checks := s.checks ++ [⟨workspaceId, maxVerified, r, none⟩] }) :
    Did V s t (.snapshot workspaceId hostname maxVerified)
  | observed {i : ℕ} {c : Check} {network : Network} (hc : s.checks[i]? = some c)
    (ht : t = s.observe i c network) : Did V s t (.observe i network)
  | wrote {i : ℕ} {c : Check} {method : Method} {clock : Clock} (hc : s.checks[i]? = some c)
    (hmethod : c.method = some method) (ht : t = s.write V i c method clock) :
    Did V s t (.write i clock)
  | revoked {workspaceId : String} {hostname : Text}
    (ht : t = { s with rows := revoke V workspaceId hostname s.now s.rows }) :
    Did V s t (.revoke workspaceId hostname)

theorem next_did {a : Action} (h : next V s a = some t) : Did V s t a := by
  cases a with
  | tick elapsed =>
    cases h
    exact .passed rfl
  | start workspaceId hostname draws =>
    simp only [next] at h
    split at h
    · cases h
      exact .started (start_ok ‹_›) rfl
    · cases h
      exact .refused rfl
  | snapshot workspaceId hostname maxVerified =>
    simp only [next] at h
    split at h
    · next r hr =>
      cases h
      obtain ⟨hmem, hworkspace⟩ := snapshot_some hr
      exact .read hmem hworkspace rfl
    · cases h
      exact .refused rfl
  | observe i network =>
    simp only [next] at h
    split at h
    · split at h
      · cases h
        exact .observed ‹_› rfl
      · cases h
    · cases h
  | write i clock =>
    simp only [next] at h
    split at h
    · obtain ⟨method, hmethod, rfl⟩ := Option.map_eq_some_iff.mp h
      exact .wrote ‹_› hmethod rfl
    · cases h
  | revoke workspaceId hostname =>
    cases h
    exact .revoked rfl

theorem Clock.Follows.le {clock : Clock} {now : ℚ} (h : clock.Follows now) :
    now ≤ clock.fresh ∧ clock.fresh ≤ clock.write ∧ now ≤ clock.count ∧
      clock.count ≤ clock.write := by
  obtain ⟨h₁, h₂, h₃, h₄⟩ := h
  exact ⟨h₁, h₂.trans (h₃.trans h₄), h₁.trans h₂, h₃.trans h₄⟩

theorem keys_write {c : Check} {i : ℕ} {method : Method} {clock : Clock} :
    (s.write V i c method clock).rows.map Target.key = s.rows.map Target.key := by
  rw [State.write]
  dsimp only
  split
  · next h =>
    rw [(recordProof_ok h).1]
    exact Table.map_update fun _ _ => rfl
  · rfl

/-! ### Rows and checks -/

/-- What holds of the rows and of the checks under way. -/
structure Sound (s : State) : Prop where
  ids : (s.rows.map (·.targetId)).Nodup
  pairs : (s.rows.map Target.pair).Nodup
  read : ∀ c ∈ s.checks, c.row.workspaceId = c.workspaceId ∧ c.row.challenge ≤ s.starts ∧
    ∃ r ∈ s.rows, r.targetId = c.row.targetId ∧ r.pair = c.row.pair ∧
      (r.challenge = c.row.challenge → r.token = c.row.token)
  numbered : ∀ r ∈ s.rows, r.challenge ≤ s.starts
  shown : ∀ c ∈ s.checks, c.method.isSome → Shown s.observed c.row

theorem Shown.cons {observed : List Observation} {r : Target} {o : Observation}
    (h : Shown observed r) : Shown (o :: observed) r := by
  obtain ⟨o', ho', hshown⟩ := h
  exact ⟨o', List.mem_cons_of_mem _ ho', hshown⟩

/-- A step that keeps the keys of the rows, and adds neither a check nor an observation. -/
theorem Sound.of_keys (h : Sound s) (hkeys : t.rows.map Target.key = s.rows.map Target.key)
    (hchecks : ∀ c ∈ t.checks, c ∈ s.checks) (hstarts : t.starts = s.starts)
    (hobserved : t.observed = s.observed) : Sound t := by
  have hids : t.rows.map (·.targetId) = s.rows.map (·.targetId) := by
    simpa [Target.key, Function.comp_def] using congrArg (List.map fun k => k.1.1) hkeys
  have hpairs : t.rows.map Target.pair = s.rows.map Target.pair := by
    simpa [Target.key, Function.comp_def] using congrArg (List.map fun k => k.1.2) hkeys
  have hnumbers : t.rows.map (·.challenge) = s.rows.map (·.challenge) := by
    simpa [Target.key, Function.comp_def] using congrArg (List.map fun k => k.2.2) hkeys
  refine ⟨hids ▸ h.ids, hpairs ▸ h.pairs, ?_, ?_, ?_⟩
  · intro c hc
    obtain ⟨hworkspace, hchallenge, r, hr, hsame⟩ := h.read c (hchecks c hc)
    refine ⟨hworkspace, hstarts ▸ hchallenge, ?_⟩
    have hkey : r.key ∈ t.rows.map Target.key := hkeys ▸ List.mem_map_of_mem hr
    obtain ⟨r', hr', hkey⟩ := List.mem_map.mp hkey
    simp only [Target.key, Prod.mk.injEq] at hkey
    obtain ⟨⟨hid, hpair⟩, htoken, hnumber⟩ := hkey
    rw [← hid, ← hpair, ← htoken, ← hnumber] at hsame
    exact ⟨r', hr', hsame⟩
  · intro r hr
    have hnumber : r.challenge ∈ s.rows.map (·.challenge) :=
      hnumbers ▸ List.mem_map_of_mem hr
    obtain ⟨o, ho, hsame⟩ := List.mem_map.mp hnumber
    rw [hstarts, ← hsame]
    exact h.numbered o ho
  · intro c hc hmethod
    exact hobserved ▸ h.shown c (hchecks c hc) hmethod

theorem revoked_write {c : Check} {i : ℕ} {method : Method} {clock : Clock} {r : Target}
    (hr : r ∈ (s.write V i c method clock).rows) : ∃ o ∈ s.rows, r.revokedAt = o.revokedAt := by
  rw [State.write] at hr
  dsimp only at hr
  split at hr
  · next h =>
    rw [(recordProof_ok h).1] at hr
    obtain ⟨o, ho, rfl⟩ := Table.mem_update.mp hr
    refine ⟨o, ho, ?_⟩
    split <;> rfl
  · exact ⟨r, hr, rfl⟩

theorem Sound.observe (h : Sound s) {i : ℕ} {c : Check} (network : Network)
    (hc : s.checks[i]? = some c) : Sound (s.observe i c network) := by
  have hmem := List.mem_of_getElem? hc
  obtain ⟨hworkspace, hchallenge, hrow⟩ := h.read c hmem
  have hchecks : ∀ c' ∈ (s.observe i c network).checks, c' ∈ s.checks ∨
      c'.row = c.row ∧ c'.workspaceId = c.workspaceId ∧
        network.shows c.row.hostname c.row.token = true := by
    intro c' hc'
    rw [State.observe] at hc'
    dsimp only at hc'
    split at hc'
    · next hmethod =>
      obtain hc' | rfl := List.mem_or_eq_of_mem_set hc'
      · exact .inl hc'
      · exact .inr ⟨rfl, rfl, observe_shows hmethod⟩
    · exact .inl (List.mem_of_mem_eraseIdx hc')
  refine ⟨h.ids, h.pairs, ?_, h.numbered, ?_⟩
  · intro c' hc'
    obtain hold | ⟨hsame, hworkspace', -⟩ := hchecks c' hc'
    · exact h.read c' hold
    · rw [hsame, hworkspace']
      exact ⟨hworkspace, hchallenge, hrow⟩
  · intro c' hc' hmethod
    obtain hold | ⟨hsame, -, hshows⟩ := hchecks c' hc'
    · exact (h.shown c' hold hmethod).cons
    · exact ⟨⟨s.starts, network⟩, List.mem_cons_self, hsame ▸ hchallenge, hsame ▸ hshows⟩

theorem Sound.step (h : Sound s) {a : Action} (hstep : Did V s t a) : Sound t := by
  cases hstep with
  | passed ht =>
    subst ht
    exact h.of_keys rfl (fun _ hc => hc) rfl rfl
  | refused ht =>
    subst ht
    exact h
  | @started workspaceId hostname draws rows hstarted ht =>
    subst ht
    refine ⟨hstarted.ids h.ids, hstarted.pairs h.pairs, ?_, ?_, h.shown⟩
    · intro c hc
      obtain ⟨hworkspace, hchallenge, r, hr, hid, hpair, htoken⟩ := h.read c hc
      obtain ⟨r', hr', hid', hpair', hsame⟩ := hstarted.kept r hr
      refine ⟨hworkspace, Nat.le_succ_of_le hchallenge, r', hr', hid'.trans hid,
        hpair'.trans hpair, ?_⟩
      rcases hsame with rfl | hnumber
      · exact htoken
      · intro hnow
        omega
    · intro r hr
      obtain hold | ⟨-, -, hnumber⟩ := hstarted.new r hr
      · exact Nat.le_succ_of_le (h.numbered r hold)
      · exact le_of_eq hnumber
  | read hr hworkspace ht =>
    subst ht
    refine ⟨h.ids, h.pairs, ?_, h.numbered, ?_⟩
    · intro c hc
      rw [List.mem_append, List.mem_singleton] at hc
      rcases hc with hc | rfl
      · exact h.read c hc
      · exact ⟨hworkspace, h.numbered _ hr, _, hr, rfl, rfl, fun _ => rfl⟩
    · intro c hc hmethod
      rw [List.mem_append, List.mem_singleton] at hc
      rcases hc with hc | rfl
      · exact h.shown c hc hmethod
      · cases hmethod
  | observed hc ht =>
    subst ht
    exact h.observe _ hc
  | wrote hc _ ht =>
    subst ht
    exact h.of_keys keys_write (fun _ hc' => List.mem_of_mem_eraseIdx hc') rfl rfl
  | revoked ht =>
    subst ht
    exact h.of_keys (Table.map_update fun _ _ => rfl) (fun _ hc => hc) rfl rfl

theorem sound_init (h : (verifying V).init s) : Sound s := by
  rw [h.2]
  exact ⟨by simp, by simp, by simp, by simp, by simp⟩

/-! ### Proofs of the current challenge -/

/-- Every verified row has shown its current challenge. -/
def Trusted (s : State) : Prop := ∀ r ∈ s.rows, r.verifiedAt.isSome → Shown s.observed r

/-- A write that meets the challenge of its snapshot records a proof of it. -/
theorem Trusted.write (h : Trusted s) (hsound : Sound s) {i : ℕ} {c : Check} {method : Method}
    {clock : Clock} (hc : s.checks[i]? = some c) (hmethod : c.method = some method)
    (hsame : ∀ r ∈ s.rows, r.targetId = c.row.targetId → r.challenge = c.row.challenge) :
    Trusted (s.write V i c method clock) := by
  intro r hr hverified
  rw [State.write] at hr
  dsimp only at hr
  split at hr
  · next hok =>
    rw [(recordProof_ok hok).1] at hr
    obtain ⟨o, ho, rfl⟩ := Table.mem_update.mp hr
    split at hverified
    · next hid =>
      rw [decide_eq_true_eq] at hid
      have hmem := List.mem_of_getElem? hc
      obtain ⟨-, -, o', ho', hid', hpair, htoken⟩ := hsound.read c hmem
      have hone : o' = o := Table.eq_of_key hsound.ids ho' ho (hid'.trans hid.symm)
      subst hone
      have hchallenge := hsame o' ho' hid
      obtain ⟨seen, hseen, hnumber, hshows⟩ := hsound.shown c hmem (by simp [hmethod])
      rw [Target.pair, Target.pair, Prod.mk.injEq] at hpair
      rw [if_pos (decide_eq_true hid)]
      refine ⟨seen, hseen, ?_, ?_⟩
      · simpa [hchallenge] using hnumber
      · simpa [hpair.2, htoken hchallenge] using hshows
    · next hid =>
      rw [if_neg hid]
      exact h o ho hverified
  · exact h r hr hverified

theorem Trusted.step (h : Trusted s) (hsound : Sound s) {a : Action} (hstep : Did V s t a)
    (hguard : SameChallenge s a) : Trusted t := by
  cases hstep with
  | passed ht =>
    subst ht
    exact h
  | refused ht =>
    subst ht
    exact h
  | started hstarted ht =>
    subst ht
    intro r hr hverified
    obtain hold | ⟨hnone, -, -⟩ := hstarted.new r hr
    · exact h r hold hverified
    · rw [hnone] at hverified
      cases hverified
  | read _ _ ht =>
    subst ht
    exact h
  | observed _ ht =>
    subst ht
    exact fun r hr hverified => (h r hr hverified).cons
  | wrote hc hmethod ht =>
    subst ht
    exact h.write hsound hc hmethod (hguard _ hc)
  | revoked ht =>
    subst ht
    intro r hr hverified
    obtain ⟨o, ho, rfl⟩ := Table.mem_update.mp hr
    split at hverified
    · next hp =>
      rw [if_pos hp]
      exact h o ho hverified
    · next hp =>
      rw [if_neg hp]
      exact h o ho hverified

theorem trusted_of_reachable (h : ((verifying V).restrict SameChallenge).Reachable s) :
    Sound s ∧ Trusted s := by
  have hinit : ∀ s, (verifying V).init s → Sound s ∧ Trusted s := by
    intro s hs
    refine ⟨sound_init hs, ?_⟩
    rw [hs.2]
    exact fun r hr => absurd hr (by simp)
  have hstep : ∀ s a t, Sound s ∧ Trusted s → ((verifying V).restrict SameChallenge).step s a t →
      Sound t ∧ Trusted t := by
    intro s a t hs hstep
    have hdid := next_did hstep.1
    exact ⟨hs.1.step hdid, hs.2.step hs.1 hdid hstep.2⟩
  exact Transition.invariant ((verifying V).restrict SameChallenge) hinit hstep h

/-! ### The quota -/

/-- Is the row a target of the workspace that `is_verified` admits? -/
def counts (workspaceId : String) (now : ℚ) (r : Target) : Bool :=
  r.workspaceId = workspaceId && r.verified now

theorem counts_earlier {workspaceId : String} {now later : ℚ} {r : Target} (hle : now ≤ later)
    (h : counts workspaceId later r = true) : counts workspaceId now r = true := by
  simp only [counts, Target.verified, Bool.and_eq_true, Option.any_eq_true, decide_eq_true_eq]
    at h ⊢
  obtain ⟨hworkspace, hrevoked, v, hv, hne, hfresh⟩ := h
  exact ⟨hworkspace, hrevoked, v, hv, hne, (sub_le_sub_right hle v).trans hfresh⟩

theorem countP_earlier {workspaceId : String} {now later : ℚ} (hle : now ≤ later) :
    rows.countP (counts workspaceId later) ≤ rows.countP (counts workspaceId now) :=
  List.countP_mono_left fun _ _ h => counts_earlier hle h

/-- The quota of a workspace, and the limit with which its checks are under way; no time is the
epoch, whose `revoked_at` would not be one. -/
structure Capped (workspaceId : String) (maxVerified : ℕ) (s : State) : Prop where
  now : 0 < s.now
  revoked : ∀ r ∈ s.rows, ∀ x ∈ r.revokedAt, 0 < x
  rows : s.rows.countP (counts workspaceId s.now) ≤ maxVerified
  checks : ∀ c ∈ s.checks, c.workspaceId = workspaceId → c.maxVerified = some (maxVerified : ℤ)

/-- A row that is neither revoked nor in the count of the quota is not verified, off
the boundary. -/
theorem counts_counted {workspaceId : String} {clock : Clock} {r : Target}
    (hclock : clock.count ≤ clock.write) (hpositive : ∀ x ∈ r.revokedAt, 0 < x)
    (hoff : clock.count = clock.write → r.workspaceId = workspaceId → r.revokedAt = none →
      r.verifiedAt ≠ some (clock.write - reverifyAfter))
    (h : counts workspaceId clock.write r = true) :
    (r.workspaceId = workspaceId && r.revokedAt = none &&
      r.verifiedAt.any fun v => decide (clock.count - reverifyAfter < v)) = true := by
  simp only [counts, Target.verified, Bool.and_eq_true, Option.any_eq_true, decide_eq_true_eq]
    at h
  obtain ⟨hworkspace, hrevoked, v, hv, -, hfresh⟩ := h
  have hnone : r.revokedAt = none := by
    cases hat : r.revokedAt with
    | none => rfl
    | some x =>
      have hx := hpositive x hat
      simp [truthy, hat, hx.ne'] at hrevoked
  have hlt : clock.count - reverifyAfter < v := by
    obtain hlt | heq := lt_or_eq_of_le hclock
    · linarith
    · refine lt_of_le_of_ne (by linarith) fun hsame => hoff heq hworkspace hnone ?_
      rw [hv, ← heq, hsame]
  simp [hworkspace, hnone, hv, hlt]

/-- A selection with the one row of an identifier taken in holds one more at most. -/
theorem countP_update_one {i : String} (hids : (rows.map (·.targetId)).Nodup)
    {f : Target → Target} {q k : Target → Bool}
    (h : ∀ r ∈ rows, r.targetId ≠ i → k r = true → q r = true) :
    (Table.update (fun r => r.targetId = i) f rows).countP k ≤ rows.countP q + 1 := by
  induction rows with
  | nil => simp [Table.update]
  | cons r rest ih =>
    rw [List.map_cons, List.nodup_cons] at hids
    have hrest := ih hids.2 fun o ho => h o (List.mem_cons_of_mem _ ho)
    by_cases hid : r.targetId = i
    · -- no other row has the identifier
      have hothers : (Table.update (fun r => r.targetId = i) f rest).countP k ≤
          rest.countP q := by
        refine countP_update_le fun o ho hk => ?_
        have hne : o.targetId ≠ i := by
          rintro hsame
          exact hids.1 (List.mem_map.mpr ⟨o, ho, hsame.trans hid.symm⟩)
        rw [if_neg (by simpa using hne)] at hk
        exact h o (List.mem_cons_of_mem _ ho) hne hk
      simp only [Table.update, List.map_cons, List.countP_cons] at hothers ⊢
      split <;> split <;> omega
    · have hhead := h r List.mem_cons_self hid
      simp only [Table.update, List.map_cons, List.countP_cons, hid, decide_false,
        Bool.false_eq_true, if_false] at hrest ⊢
      split
      · rw [if_pos (hhead ‹_›)]
        omega
      · split <;> omega

/-- A write within the limit, or to a target that is verified already. -/
theorem Capped.write {workspaceId : String} {maxVerified : ℕ} (h : Capped workspaceId maxVerified s)
    (hsound : Sound s) {i : ℕ} {c : Check} {method : Method} {clock : Clock}
    (hc : s.checks[i]? = some c) (hclock : clock.Follows s.now)
    (hoff : OffBoundary s (.write i clock)) :
    (s.write V i c method clock).rows.countP (counts workspaceId clock.write) ≤ maxVerified := by
  have hmem := List.mem_of_getElem? hc
  obtain ⟨hfresh, hfreshWrite, hcount, hcountWrite⟩ := hclock.le
  have hbefore : s.rows.countP (counts workspaceId clock.write) ≤ maxVerified :=
    (countP_earlier (hfresh.trans hfreshWrite)).trans h.rows
  rw [State.write]
  dsimp only
  split
  · next rows hok =>
    obtain ⟨rfl, hlimit⟩ := recordProof_ok hok
    obtain ⟨hworkspace, -, o, ho, hid, hpair, -⟩ := hsound.read c hmem
    have hone : ∀ r ∈ s.rows, r.targetId = c.row.targetId → r = o := fun r hr hsame =>
      Table.eq_of_key hsound.ids hr ho (hsame.trans hid.symm)
    rw [Target.pair, Target.pair, Prod.mk.injEq] at hpair
    by_cases hother : c.workspaceId = workspaceId
    · obtain halready | hbelow := hlimit
      · -- the target was verified when the transaction began, or it is revoked
        refine (countP_update_le (q := counts workspaceId clock.fresh) fun r hr hcounts => ?_).trans
          ((countP_earlier hfresh).trans h.rows)
        split at hcounts
        · next hsame =>
          rw [decide_eq_true_eq] at hsame
          obtain ⟨fresh, hmemFresh, hidFresh, hat⟩ := Table.find_any halready
          have hrow : fresh = r :=
            (hone fresh hmemFresh (of_decide_eq_true hidFresh)).trans (hone r hr hsame).symm
          rw [hrow, Bool.and_eq_true] at hat
          simp only [counts, Target.verified, truthy, Bool.and_eq_true, Option.any_eq_true,
            decide_eq_true_eq] at hcounts hat ⊢
          obtain ⟨⟨v, hv, hne⟩, v', hv', hage⟩ := hat
          obtain rfl : v = v' := Option.some.inj (hv.symm.trans hv')
          exact ⟨hcounts.1, hcounts.2.1, v, hv, hne, hage⟩
        · exact counts_earlier hfreshWrite hcounts
      · have hlt := hbelow maxVerified (h.checks c hmem hother)
        have hupdate := countP_update_one (i := c.row.targetId) hsound.ids
          (f := fun r => { r with verifiedAt := some clock.write, method := some method })
          (q := fun r => r.workspaceId = c.workspaceId && r.revokedAt = none &&
            r.verifiedAt.any fun v => decide (clock.count - reverifyAfter < v))
          (k := counts workspaceId clock.write) fun r hr hne hcounts =>
            counts_counted hcountWrite (h.revoked r hr)
              (fun heq hsame hnone => hoff heq c hc r hr hsame hne hnone) (hother ▸ hcounts)
        rw [verifiedCount, ← List.countP_eq_length_filter] at hlt
        omega
    · refine (countP_update_le fun r hr hcounts => ?_).trans hbefore
      split at hcounts
      · next hsame =>
        rw [decide_eq_true_eq] at hsame
        simp only [counts, Bool.and_eq_true, decide_eq_true_eq] at hcounts
        rw [hone r hr hsame, hpair.1, hworkspace] at hcounts
        exact absurd hcounts.1 hother
      · exact hcounts
  · exact hbefore

theorem Capped.step {workspaceId : String} {maxVerified : ℕ} (h : Capped workspaceId maxVerified s)
    (hsound : Sound s) {a : Action} (hstep : Did V s t a) (hoff : OffBoundary s a)
    (hforward : Forward s a) (huniform : Uniform workspaceId maxVerified a) :
    Capped workspaceId maxVerified t := by
  cases hstep with
  | passed ht =>
    subst ht
    have hlater := le_add_of_nonneg_right (a := s.now) hforward
    exact ⟨lt_of_lt_of_le h.now hlater, h.revoked, (countP_earlier hlater).trans h.rows, h.checks⟩
  | refused ht =>
    subst ht
    exact h
  | started hstarted ht =>
    subst ht
    refine ⟨h.now, fun r hr x hx => ?_, (hstarted.fewer _ fun r hnone => ?_).trans h.rows,
      h.checks⟩
    · obtain hold | ⟨-, hrevoked, -⟩ := hstarted.new r hr
      · exact h.revoked r hold x hx
      · rw [hrevoked] at hx
        cases hx
    · simp [counts, Target.verified, hnone]
  | read hr hworkspace ht =>
    subst ht
    refine ⟨h.now, h.revoked, h.rows, fun c hc hsame => ?_⟩
    rw [List.mem_append, List.mem_singleton] at hc
    rcases hc with hc | rfl
    · exact h.checks c hc hsame
    · exact huniform hsame
  | observed hc ht =>
    subst ht
    have hlimit := h.checks _ (List.mem_of_getElem? hc)
    refine ⟨h.now, h.revoked, h.rows, fun c' hc' hsame => ?_⟩
    rw [State.observe] at hc'
    dsimp only at hc'
    split at hc'
    · obtain hc' | rfl := List.mem_or_eq_of_mem_set hc'
      · exact h.checks c' hc' hsame
      · exact hlimit hsame
    · exact h.checks c' (List.mem_of_mem_eraseIdx hc') hsame
  | wrote hc _ ht =>
    subst ht
    obtain ⟨hfresh, hfreshWrite, -, -⟩ := hforward.le
    refine ⟨lt_of_lt_of_le h.now (hfresh.trans hfreshWrite), fun r hr x hx => ?_,
      h.write hsound hc hforward hoff, fun c' hc' => h.checks c' (List.mem_of_mem_eraseIdx hc')⟩
    obtain ⟨o, ho, hsame⟩ := revoked_write hr
    exact h.revoked o ho x (hsame ▸ hx)
  | revoked ht =>
    subst ht
    refine ⟨h.now, fun r hr x hx => ?_, (countP_update_le fun r _ hcounts => ?_).trans h.rows,
      h.checks⟩
    · obtain ⟨o, ho, rfl⟩ := Table.mem_update.mp hr
      split at hx
      · cases hx
        exact h.now
      · exact h.revoked o ho x hx
    · split at hcounts
      · simp [counts, Target.verified, truthy, h.now.ne'] at hcounts
      · exact hcounts

/-- The condition under which a workspace keeps its quota. -/
def KeepsQuota (workspaceId : String) (maxVerified : ℕ) (s : State) (a : Action) : Prop :=
  OffBoundary s a ∧ Forward s a ∧ Uniform workspaceId maxVerified a

theorem capped_of_reachable {workspaceId : String} {maxVerified : ℕ}
    (h : ((verifying V).restrict (KeepsQuota workspaceId maxVerified)).Reachable s) :
    Sound s ∧ Capped workspaceId maxVerified s := by
  have hinit : ∀ s, (verifying V).init s → Sound s ∧ Capped workspaceId maxVerified s := by
    intro s hs
    refine ⟨sound_init hs, ?_⟩
    rw [hs.2]
    exact ⟨hs.1, by simp, by simp, by simp⟩
  refine Transition.invariant ((verifying V).restrict (KeepsQuota workspaceId maxVerified)) hinit
    (fun s a t hs hstep => ?_) h
  have hdid := next_did hstep.1
  exact ⟨hs.1.step hdid, hs.2.step hs.1 hdid hstep.2.1 hstep.2.2.1 hstep.2.2.2⟩

/-- Targets of different names for which `is_verified` holds are so many rows. -/
theorem length_le_counts {workspaceId : String} {now : ℚ} {hosts : List Text}
    (hdistinct : (hosts.map (normalHostname V)).Nodup)
    (h : ∀ hostname ∈ hosts, isVerified V workspaceId hostname now rows = true) :
    hosts.length ≤ rows.countP (counts workspaceId now) := by
  have hrow : ∀ hostname ∈ hosts, normalHostname V hostname ∈
      (rows.filter (counts workspaceId now)).map (·.hostname) := by
    intro hostname hmem
    obtain ⟨r, hr, hpair, hverified⟩ := Table.find_any (h hostname hmem)
    rw [decide_eq_true_eq, Target.pair, Prod.mk.injEq] at hpair
    refine List.mem_map.mpr ⟨r, List.mem_filter.mpr ⟨hr, ?_⟩, hpair.2⟩
    simp [counts, hpair.1, hverified]
  have hsub : hosts.map (normalHostname V) ⊆
      (rows.filter (counts workspaceId now)).map (·.hostname) := by
    intro name hname
    obtain ⟨hostname, hmem, rfl⟩ := List.mem_map.mp hname
    exact hrow hostname hmem
  simpa [List.countP_eq_length_filter] using (List.subperm_of_subset hdistinct hsub).length_le

/-- In every run whose writes meet the challenge of their snapshot, a verified target has shown the
token of its current challenge since that challenge began; in every run whose clock does not go
back, whose writes are off the boundary of the age and whose checks of a workspace have one limit,
the workspace keeps it. -/
theorem verified_targets (V : TargetVerifier) :
    (∀ s, ((verifying V).restrict SameChallenge).Reachable s → ∀ workspaceId hostname,
      isVerified V workspaceId hostname s.now s.rows = true →
      ∃ r, row V workspaceId hostname s.rows = some r ∧ Shown s.observed r) ∧
    ∀ (workspaceId : String) (maxVerified : ℕ) (s : State),
      ((verifying V).restrict (KeepsQuota workspaceId maxVerified)).Reachable s →
      ∀ hosts : List Text, (hosts.map (normalHostname V)).Nodup →
        (∀ hostname ∈ hosts, isVerified V workspaceId hostname s.now s.rows = true) →
        hosts.length ≤ maxVerified := by
  constructor
  · intro s hs workspaceId hostname hverified
    rw [isVerified, Option.any_eq_true] at hverified
    obtain ⟨r, hr, hfresh⟩ := hverified
    refine ⟨r, hr, (trusted_of_reachable hs).2 r (List.mem_of_find?_eq_some hr) ?_⟩
    rw [Target.verified, Bool.and_eq_true, Option.any_eq_true] at hfresh
    obtain ⟨-, v, hv, -⟩ := hfresh
    rw [hv]
    rfl
  · intro workspaceId maxVerified s hs hosts hdistinct hverified
    exact (length_le_counts hdistinct hverified).trans (capped_of_reachable hs).2.rows

/-! ### Runs -/

/-- The state after some steps, where each can be taken and meets a guard. -/
def after (V : TargetVerifier) (guard : State → Action → Bool) (s : State) :
    List Action → Option State
  | [] => some s
  | a :: rest => if guard s a then (next V s a).bind fun t => after V guard t rest else none

theorem after_reachable {guard : State → Action → Bool} {G : State → Action → Prop}
    (hguard : ∀ s a, guard s a = true → G s a) {actions : List Action}
    (hs : ((verifying V).restrict G).Reachable s) (h : after V guard s actions = some t) :
    ((verifying V).restrict G).Reachable t := by
  induction actions generalizing s with
  | nil =>
    cases h
    exact hs
  | cons a rest ih =>
    rw [after] at h
    split at h
    · next hok =>
      obtain ⟨u, hu, h⟩ := Option.bind_eq_some_iff.mp h
      exact ih (.step hs ⟨hu, hguard s a hok⟩) h
    · cases h

theorem after_some {g : State → Action → Bool} {G : State → Action → Prop} {P : State → Bool}
    (hguard : ∀ s a, g s a = true → G s a) {actions : List Action}
    (hs : ((verifying V).restrict G).Reachable s) (h : (after V g s actions).any P = true) :
    ∃ t, ((verifying V).restrict G).Reachable t ∧ P t = true := by
  obtain ⟨t, ht, hP⟩ := Option.any_eq_true _ _ |>.mp h
  exact ⟨t, after_reachable hguard hs ht, hP⟩

namespace Sample

def verifier : TargetVerifier where
  lower := id

def hostname (letter : ℕ) : Text := [letter, period, 'b'.toNat, 'c'.toNat]

def tokenOf (n : ℕ) : Text := ['t'.toNat, n]

/-- The page of every hostname holds the first token only. -/
def page : Network where
  dnsTxt := none
  httpGet := some fun _ => some (tokenOf 1)

def instant (now : ℚ) : Clock := ⟨now, now, now, now⟩

def begins (letter n : ℕ) (targetId : String) : Action :=
  .start "w" (hostname letter) ⟨tokenOf n, targetId⟩

def initial : State := { now := 1 }

theorem initial_reachable {G : State → Action → Prop} :
    ((verifying verifier).restrict G).Reachable initial :=
  .init ⟨by norm_num [initial], rfl⟩

/-- A check of one target, from its snapshot to its write. -/
def checks (letter maxVerified : ℕ) (clock : Clock) : List Action :=
  [.snapshot "w" (hostname letter) (some maxVerified), .observe 0 page, .write 0 clock]

/-- The target starts anew while a check of it waits to write. -/
def restarted : List Action :=
  [begins 'a'.toNat 1 "t", .snapshot "w" (hostname 'a'.toNat) (some 1), .observe 0 page,
    begins 'a'.toNat 2 "u", .write 0 (instant 1)]

/-- A second target is checked at the instant at which the first is exactly as old as it may be. -/
def aged : List Action :=
  begins 'a'.toNat 1 "t" :: checks 'a'.toNat 1 (instant 1) ++ .tick reverifyAfter ::
    begins 'b'.toNat 1 "u" :: checks 'b'.toNat 1 (instant (1 + reverifyAfter))

/-- Two targets are checked within a limit of two, a day apart. -/
def paired : List Action :=
  begins 'a'.toNat 1 "t" :: checks 'a'.toNat 2 ⟨1, 1, 1, 2⟩ ++ .tick 86400 ::
    begins 'b'.toNat 1 "u" :: checks 'b'.toNat 2 ⟨86402, 86402, 86402, 86403⟩

def limitedTo (maxVerified : ℕ) : Action → Bool
  | .snapshot _ _ maxVerified' => maxVerified' = some (maxVerified : ℤ)
  | _ => true

theorem limitedTo_uniform {maxVerified : ℕ} (a : Action) (h : limitedTo maxVerified a = true) :
    Uniform "w" maxVerified a := by
  cases a with
  | snapshot workspaceId hostname limit => exact fun _ => by simpa [limitedTo] using h
  | _ => trivial

/-- A write to the challenge of its snapshot, whose clock moves on after its count. -/
def movesOn (s : State) : Action → Bool
  | .write i clock => decide (clock.count ≠ clock.write) && (s.checks[i]?).all fun c =>
      s.rows.all fun r => r.targetId = c.row.targetId → r.challenge = c.row.challenge
  | _ => true

def careful (maxVerified : ℕ) (s : State) (a : Action) : Bool :=
  decide (Forward s a) && limitedTo maxVerified a && movesOn s a

theorem careful_guards {maxVerified : ℕ} (s : State) (a : Action)
    (h : careful maxVerified s a = true) : SameChallenge s a ∧ KeepsQuota "w" maxVerified s a := by
  rw [careful, Bool.and_eq_true, Bool.and_eq_true, decide_eq_true_eq] at h
  obtain ⟨⟨hforward, hlimited⟩, hmoves⟩ := h
  have hrest := And.intro hforward (limitedTo_uniform a hlimited)
  cases a with
  | write i clock =>
    simp only [movesOn, Bool.and_eq_true, decide_eq_true_eq, Option.all_eq_true,
      List.all_eq_true] at hmoves
    exact ⟨fun c hc r hr => hmoves.2 c hc r hr, fun heq => absurd heq hmoves.1, hrest⟩
  | _ => exact ⟨trivial, trivial, hrest⟩

def verifiedNow (letter : ℕ) (s : State) : Bool :=
  isVerified verifier "w" (hostname letter) s.now s.rows

end Sample

open Sample in
/-- The proof of the replaced token verifies the new challenge, and at the boundary instant two
targets are verified under a limit of one. -/
theorem targets_slip :
    (∃ s, (verifying verifier).Reachable s ∧
      isVerified verifier "w" (hostname 'a'.toNat) s.now s.rows = true ∧
      ∀ r, row verifier "w" (hostname 'a'.toNat) s.rows = some r → ¬ Shown s.observed r) ∧
    ∃ s, ((verifying verifier).restrict fun s a => Forward s a ∧ Uniform "w" 1 a).Reachable s ∧
      isVerified verifier "w" (hostname 'a'.toNat) s.now s.rows = true ∧
      isVerified verifier "w" (hostname 'b'.toNat) s.now s.rows = true := by
  constructor
  · obtain ⟨s, hs, hslip⟩ := after_some (G := fun _ _ => True) (P := fun s =>
        verifiedNow 'a'.toNat s && (row verifier "w" (hostname 'a'.toNat) s.rows).all fun r =>
          !decide (Shown s.observed r))
      (g := fun _ _ => true) (fun _ _ _ => trivial) initial_reachable
      (show (after verifier _ initial restarted).any _ = true by decide +kernel)
    rw [Bool.and_eq_true, Option.all_eq_true] at hslip
    exact ⟨s, hs.of_restrict, hslip.1, fun r hr => of_decide_eq_false (by simpa using hslip.2 r hr)⟩
  · obtain ⟨s, hs, hslip⟩ := after_some (G := fun s a => Forward s a ∧ Uniform "w" 1 a)
      (P := fun s => verifiedNow 'a'.toNat s && verifiedNow 'b'.toNat s)
      (g := fun s a => decide (Forward s a) && limitedTo 1 a)
      (fun s a h => by
        rw [Bool.and_eq_true, decide_eq_true_eq] at h
        exact ⟨h.1, limitedTo_uniform a h.2⟩) initial_reachable
      (show (after verifier _ initial aged).any _ = true by decide +kernel)
    rw [Bool.and_eq_true] at hslip
    exact ⟨s, hs, hslip⟩

open Sample in
/-- Two targets within a limit of two: both have shown their tokens. -/
theorem verified_targets_sample :
    (∃ s : State, ∀ letter ∈ ['a'.toNat, 'b'.toNat], ∃ r,
      row verifier "w" (hostname letter) s.rows = some r ∧ Shown s.observed r) ∧
    [hostname 'a'.toNat, hostname 'b'.toNat].length ≤ 2 := by
  have hrun : (after verifier (careful 2) initial paired).any (fun s =>
      verifiedNow 'a'.toNat s && verifiedNow 'b'.toNat s) = true := by
    decide +kernel
  constructor
  · obtain ⟨s, hs, hverified⟩ := after_some (fun s a h => (careful_guards s a h).1)
      initial_reachable hrun
    rw [Bool.and_eq_true] at hverified
    refine ⟨s, fun letter hletter => (verified_targets verifier).1 s hs "w" _ ?_⟩
    simp only [List.mem_cons, List.not_mem_nil, or_false] at hletter
    rcases hletter with rfl | rfl
    · exact hverified.1
    · exact hverified.2
  · obtain ⟨s, hs, hverified⟩ := after_some (fun s a h => (careful_guards s a h).2)
      initial_reachable hrun
    rw [Bool.and_eq_true] at hverified
    refine (verified_targets verifier).2 "w" 2 s hs _ (by decide +kernel) fun name hname => ?_
    simp only [List.mem_cons, List.not_mem_nil, or_false] at hname
    rcases hname with rfl | rfl
    · exact hverified.1
    · exact hverified.2

end Heel.TargetVerification
