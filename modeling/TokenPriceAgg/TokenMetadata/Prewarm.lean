import Mathlib.Data.List.Perm.Subperm
import TokenPriceAgg.TokenMetadata.LogoStore

/-!
# Enrolling identities and waiting for them

`token-logo-prewarm`: the enrolment that makes the identities due, and the statuses that the wait for them takes as
completed.  After an enrolment each identity should be due at its checkpoint or be completed for it.

An enrolment that is not forced leaves the row of an image as it is, and a wait takes such a row as completed only
where nothing is scheduled.  Between the two lies the row whose forced refresh has failed.
-/

namespace TokenPriceAgg

open PyLib

/-! ### Statuses -/

structure TokenLogoStatus where
  chainId : Int
  address : String
  hasImage : Bool
  lastAttemptAt : Option Int
  nextAttemptAt : Option Int
  lastOutcome : Option String

/-- The status of an identity, with or without a row. -/
def TokenLogoStatus.ofRow (chainId : Int) (address : String) (row : Option TokenLogo) : TokenLogoStatus where
  chainId := chainId
  address := address
  hasImage := row.any fun row => row.imageBytes.isSome
  lastAttemptAt := row.bind (·.lastAttemptAt)
  nextAttemptAt := row.bind (·.nextAttemptAt)
  lastOutcome := row.bind (·.lastOutcome)

def completedForCheckpoint (status : TokenLogoStatus) (startedAtMs : Option Int) : Bool :=
  match startedAtMs with
  | none => status.lastAttemptAt.isSome
  | some startedAtMs =>
    if status.hasImage ∧ status.nextAttemptAt = none then true
    else status.lastAttemptAt.any fun lastAttemptAt => startedAtMs < lastAttemptAt

/-- `next_attempt_at IS NOT NULL AND next_attempt_at <= ?`. -/
def TokenLogo.DueAt (row : TokenLogo) (now : Int) : Prop := ∃ next ∈ row.nextAttemptAt, next ≤ now

def TokenLogo.AttemptedAfter (row : TokenLogo) (startedAt : Int) : Prop := ∃ last ∈ row.lastAttemptAt, startedAt < last

private theorem completedForCheckpoint_iff {chainId startedAt : Int} {address : String} {row : TokenLogo} :
    completedForCheckpoint (.ofRow chainId address (some row)) (some startedAt) = true ↔
      row.imageBytes.isSome ∧ row.nextAttemptAt = none ∨ row.AttemptedAfter startedAt := by
  have hafter :
      (row.lastAttemptAt.any fun last => decide (startedAt < last)) = true ↔ row.AttemptedAfter startedAt := by
    simp [Option.any_eq_true, TokenLogo.AttemptedAfter]
  rw [← hafter]
  show (if row.imageBytes.isSome = true ∧ row.nextAttemptAt = none then true
    else row.lastAttemptAt.any fun last => decide (startedAt < last)) = true ↔ _
  by_cases hterminal : row.imageBytes.isSome = true ∧ row.nextAttemptAt = none
  · rw [if_pos hterminal]
    exact iff_of_true rfl (.inl hterminal)
  · rw [if_neg hterminal]
    exact ⟨.inr, fun h => h.resolve_left hterminal⟩

/-! ### What an enrolment does -/

section Enrolment

variable {eth : EthUtils} {identities : List TokenKey} {force : Bool} {now started : Int} {store store' : LogoStore}

/-- Distinct identities are enrolled one by one: what is new gets a row, what is there meets the conflict clause. -/
private theorem enrollMany_row
    {onConflict : TokenLogo → TokenLogo} {logos logos' : LogoTable} (hnodup : identities.Nodup)
    (h : identities.foldlM (enroll onConflict) logos = .ok logos') (key : TokenKey) :
    logos'.row? key =
      if key ∈ identities then some (((logos.row? key).map onConflict).getD {}) else logos.row? key := by
  induction identities generalizing logos with
  | nil =>
    cases h
    simp
  | cons identity identities ih =>
    rw [List.foldlM_cons] at h
    obtain ⟨logos₁, hfirst, h⟩ := Eff.except_bind_eq_ok.1 h
    obtain ⟨chainId, hchain, hfirst⟩ := Eff.except_bind_eq_ok.1 hfirst
    obtain ⟨rfl, -⟩ := bindInt_eq_ok (sql_eq_ok hchain)
    have hrow := Table.row?_upsert (sql_eq_ok hfirst) key
    obtain ⟨hnot, hnodup⟩ := List.nodup_cons.1 hnodup
    rw [ih hnodup h, hrow]
    by_cases hkey : key = identity
    · have hfst : key = (identity.1, identity.2) := hkey
      subst hkey
      rw [if_neg hnot, if_pos hfst, if_pos List.mem_cons_self]
    · have hfst : key ≠ (identity.1, identity.2) := hkey
      rw [if_neg hfst]
      simp [hkey]

/-- A set that is enrolled has positive chains only. -/
private theorem enrollIdentities_positive
    (h : enrollIdentities eth identities force now store = .ok (store', started)) :
    ∀ identity ∈ identities, 0 < identity.1 := by
  obtain ⟨normalized, hnormalized, h⟩ := Eff.except_bind_eq_ok.1 h
  dsimp only at h
  split at h
  · cases h
  · rename_i hraise
    by_contra hexists
    simp only [not_forall, not_lt] at hexists
    obtain ⟨identity, hmem, hle⟩ := hexists
    -- one identity is left out, so that the set is smaller than the list
    have hlt : (identities.filter fun identity => 0 < identity.1).length < identities.length := by
      rw [List.length_filter_lt_length_iff_exists]
      exact ⟨identity, hmem, by simpa using hle⟩
    have hlength := (Eff.mapM_eq_ok.1 hnormalized).length_eq
    have hset : (sortedSet normalized).length ≤ normalized.length :=
      (List.subperm_of_subset (nodup_sortedSet normalized) fun x hx => mem_sortedSet_iff.1 hx).length_le
    refine hraise ⟨by omega, List.any_eq_true.2 ⟨identity, hmem, by simpa using hle⟩⟩

/-- The row of an enrolled identity. -/
private theorem enrollIdentities_row (h : enrollIdentities eth identities force now store = .ok (store', started))
    {identity : TokenKey} (hmem : identity ∈ identities) {address : String}
    (haddress : normalizeAddress eth identity.2 = .ok address) :
    started = now ∧ store'.row? (identity.1, address) =
      some (((store.row? (identity.1, address)).map (enrollConflict force)).getD {}) := by
  have hpositive := enrollIdentities_positive h identity hmem
  obtain ⟨normalized, hnormalized, h⟩ := Eff.except_bind_eq_ok.1 h
  dsimp only at h
  split at h
  · cases h
  · obtain ⟨logos, hlogos, h⟩ := Eff.except_bind_eq_ok.1 h
    cases h
    have hin : (identity.1, address) ∈ sortedSet normalized := by
      rw [mem_sortedSet_iff, Eff.mem_of_mapM hnormalized]
      refine ⟨identity, List.mem_filter.2 ⟨hmem, by simpa using hpositive⟩, ?_⟩
      rw [haddress]
      rfl
    have hrow := enrollMany_row (nodup_sortedSet normalized) hlogos (identity.1, address)
    rw [if_pos hin] at hrow
    exact ⟨rfl, hrow⟩

/-- The identity can be enrolled. -/
def Enrollable (eth : EthUtils) (identity : TokenKey) : Prop :=
  0 < identity.1 ∧ identity.1 < 2 ^ 63 ∧ ∃ address, normalizeAddress eth identity.2 = .ok address

private theorem enrollMany_ok_iff (force : Bool) (logos : LogoTable) :
    (∃ logos', identities.foldlM (enroll (enrollConflict force)) logos = .ok logos') ↔
      ∀ identity ∈ identities, -2 ^ 63 ≤ identity.1 ∧ identity.1 < 2 ^ 63 := by
  induction identities generalizing logos with
  | nil => exact iff_of_true ⟨logos, rfl⟩ (by simp)
  | cons identity identities ih =>
    rw [List.foldlM_cons, List.forall_mem_cons]
    constructor
    · rintro ⟨logos', h⟩
      obtain ⟨logos₁, hfirst, h⟩ := Eff.except_bind_eq_ok.1 h
      obtain ⟨chainId, hchain, -⟩ := Eff.except_bind_eq_ok.1 hfirst
      exact ⟨(bindInt_eq_ok (sql_eq_ok hchain)).2, (ih logos₁).1 ⟨logos', h⟩⟩
    · rintro ⟨hfits, hrest⟩
      have hchecked : (((logos.row? identity).map (enrollConflict force)).getD {}).Checked := by
        cases hrow : logos.row? identity with
        | none => exact TokenLogo.checked_default
        | some row =>
          have hrow' : row.Checked := Table.check_of_row? hrow
          show (enrollConflict force row).Checked
          obtain hkept | hdue := enrollConflict_cases force row
          · rw [hkept]
            exact hrow'
          · rw [hdue]
            exact hrow'.due
      obtain ⟨logos₁, hfirst⟩ := Table.upsert_ok_iff.2 ⟨TokenLogo.checked_default, hchecked⟩
      obtain ⟨logos', h⟩ := (ih logos₁).2 hrest
      refine ⟨logos', Eff.except_bind_eq_ok.2 ⟨logos₁, ?_, h⟩⟩
      unfold enroll
      rw [sql_bindInt hfits]
      show sql (logos.upsert identity {} (enrollConflict force)) = .ok logos₁
      rw [hfirst]
      rfl

/-- A set is enrolled exactly if each identity can be. -/
private theorem enrollIdentities_ok_iff (force : Bool) (now : Int) (store : LogoStore) :
    (∃ result, enrollIdentities eth identities force now store = .ok result) ↔
      ∀ identity ∈ identities, Enrollable eth identity := by
  constructor
  · rintro ⟨⟨store', started⟩, h⟩ identity hmem
    have hpositive := enrollIdentities_positive h identity hmem
    obtain ⟨normalized, hnormalized, h⟩ := Eff.except_bind_eq_ok.1 h
    dsimp only at h
    split at h
    · cases h
    · obtain ⟨logos, hlogos, -⟩ := Eff.except_bind_eq_ok.1 h
      have hkept : identity ∈ identities.filter fun identity => 0 < identity.1 :=
        List.mem_filter.2 ⟨hmem, decide_eq_true hpositive⟩
      obtain ⟨key, hkey⟩ := Eff.mapM_ok_iff.1 ⟨normalized, hnormalized⟩ identity hkept
      have hin := mem_sortedSet_iff.2 ((Eff.mem_of_mapM hnormalized).2 ⟨identity, hkept, hkey⟩)
      have hfits := (enrollMany_ok_iff force store.logos).1 ⟨logos, hlogos⟩ key hin
      obtain ⟨address, haddress, rfl⟩ := Eff.except_map_eq_ok.1 hkey
      exact ⟨hpositive, hfits.2, address, haddress⟩
  · intro hall
    have hnone : ¬ identities.any (fun identity => identity.1 ≤ 0) := by
      rw [List.any_eq_true]
      rintro ⟨identity, hmem, hle⟩
      have hpositive := (hall identity hmem).1
      have hle := of_decide_eq_true hle
      omega
    have hmap : ∃ normalized, ((identities.filter fun identity => 0 < identity.1).mapM fun identity =>
        (normalizeAddress eth identity.2).map fun address => (identity.1, address)) = .ok normalized := by
      rw [Eff.mapM_ok_iff]
      intro identity hmem
      obtain ⟨-, -, address, haddress⟩ := hall identity (List.mem_filter.1 hmem).1
      exact ⟨_, Eff.except_map_eq_ok.2 ⟨address, haddress, rfl⟩⟩
    obtain ⟨normalized, hnormalized⟩ := hmap
    have hfits : ∀ key ∈ sortedSet normalized, -2 ^ 63 ≤ key.1 ∧ key.1 < 2 ^ 63 := by
      intro key hkey
      obtain ⟨identity, hmem, hkey⟩ := (Eff.mem_of_mapM hnormalized).1 (mem_sortedSet_iff.1 hkey)
      obtain ⟨address, -, rfl⟩ := Eff.except_map_eq_ok.1 hkey
      obtain ⟨hpositive, hlt, -⟩ := hall identity (List.mem_filter.1 hmem).1
      exact ⟨by omega, hlt⟩
    obtain ⟨logos, hlogos⟩ := (enrollMany_ok_iff force store.logos).2 hfits
    refine ⟨({ store with logos }, now), Eff.except_bind_eq_ok.2 ⟨normalized, hnormalized, ?_⟩⟩
    dsimp only
    rw [if_neg fun h => hnone h.2]
    exact Eff.except_bind_eq_ok.2 ⟨logos, hlogos, rfl⟩

end Enrolment

/-! ### Due or completed -/

/-- The identity is due at the checkpoint, or completed for it. -/
def DueOrCompleted (key : TokenKey) (startedAt : Int) (row : Option TokenLogo) : Prop :=
  (∃ r ∈ row, r.DueAt startedAt) ∨ completedForCheckpoint (.ofRow key.1 key.2 row) (some startedAt) = true

/-- The row before the enrolment: what is reset has a clock that is not before the epoch, and what is not reset has
nothing scheduled after the checkpoint, unless it was attempted after it. -/
def EnrollsInTime (force : Bool) (startedAt : Int) : Option TokenLogo → Prop
  | none => 0 ≤ startedAt
  | some row =>
    row.AttemptedAfter startedAt ∨
      if force ∨ row.imageBytes.isNone then 0 ≤ startedAt else ∀ next ∈ row.nextAttemptAt, next ≤ startedAt

private theorem dueOrCompleted_iff {key : TokenKey} {force : Bool} {startedAt : Int} {row : Option TokenLogo} :
    DueOrCompleted key startedAt (some ((row.map (enrollConflict force)).getD {})) ↔
      EnrollsInTime force startedAt row := by
  unfold DueOrCompleted
  rw [completedForCheckpoint_iff]
  cases row with
  | none =>
    simp [EnrollsInTime, TokenLogo.DueAt, TokenLogo.AttemptedAfter]
  | some row =>
    simp only [Option.map_some, Option.getD_some, Option.mem_def, Option.some.injEq, exists_eq_left', EnrollsInTime]
    by_cases hreset : force ∨ row.imageBytes.isNone
    · have hconflict : enrollConflict force row = row.due := if_pos hreset
      rw [hconflict, if_pos hreset]
      simp [TokenLogo.DueAt, TokenLogo.AttemptedAfter, TokenLogo.due, or_comm]
    · have hconflict : enrollConflict force row = row := if_neg hreset
      have himage : row.imageBytes.isSome := by
        cases himage : row.imageBytes with
        | none => exact absurd (.inr (by rw [himage]; rfl)) hreset
        | some bytes => rfl
      rw [hconflict, if_neg hreset]
      cases hnext : row.nextAttemptAt with
      | none => simp [TokenLogo.DueAt, hnext, himage]
      | some next => simp [TokenLogo.DueAt, hnext, or_comm]

/-- After an enrolment that returns, each identity of the set is due or completed. -/
def EnrolmentAgrees (eth : EthUtils) (store : LogoStore) (op : LogoOp) : Prop :=
  ∀ identities force now store' startedAt, op = .enrollIdentities identities force now →
    enrollIdentities eth identities force now store = .ok (store', startedAt) →
    ∀ identity ∈ identities, ∀ address, normalizeAddress eth identity.2 = .ok address →
      DueOrCompleted (identity.1, address) startedAt (store'.row? (identity.1, address))

/-- Each identity of a set that can be enrolled is enrolled in time. -/
def EnrolmentInTime (eth : EthUtils) (store : LogoStore) (op : LogoOp) : Prop :=
  ∀ identities force now, op = .enrollIdentities identities force now →
    (∀ identity ∈ identities, Enrollable eth identity) →
    ∀ identity ∈ identities, ∀ address, normalizeAddress eth identity.2 = .ok address →
      EnrollsInTime force now (store.row? (identity.1, address))

private theorem enrolmentAgrees_iff {eth : EthUtils} {store : LogoStore} {op : LogoOp} :
    EnrolmentAgrees eth store op ↔ EnrolmentInTime eth store op := by
  constructor
  · rintro h identities force now rfl hall identity hmem address haddress
    obtain ⟨⟨store', startedAt⟩, hresult⟩ := (enrollIdentities_ok_iff force now store).2 hall
    obtain ⟨rfl, hrow⟩ := enrollIdentities_row hresult hmem haddress
    have hagrees := h identities force startedAt store' startedAt rfl hresult identity hmem address haddress
    rw [hrow] at hagrees
    exact dueOrCompleted_iff.1 hagrees
  · rintro h identities force now store' startedAt rfl hresult identity hmem address haddress
    obtain ⟨rfl, hrow⟩ := enrollIdentities_row hresult hmem haddress
    rw [hrow]
    have hall := (enrollIdentities_ok_iff force startedAt store).1 ⟨_, hresult⟩
    exact dueOrCompleted_iff.2 (h identities force startedAt rfl hall identity hmem address haddress)

/-- In every run of the cache, each enrolment leaves its identities due or completed exactly if it enrols each in
time. -/
theorem enrolments_agree_iff (eth : EthUtils) (revision : List (String × String) → String) (ops : List LogoOp) :
    Along (LogoStore.step eth revision) (EnrolmentAgrees eth) .empty ops ↔
      Along (LogoStore.step eth revision) (EnrolmentInTime eth) .empty ops :=
  along_congr (I := fun _ => True) (fun _ _ _ _ _ => trivial) (fun _ _ _ => enrolmentAgrees_iff) trivial

namespace Example

/-- An address library in which the address is its own checksum. -/
def prewarmEth : EthUtils := ⟨fun address => address = "0xA0b86991c6218b36c1d19D4a2e9Eb0cE3606eB48", .ok⟩

def prewarmed : TokenKey := (1, "0xA0b86991c6218b36c1d19D4a2e9Eb0cE3606eB48")

/-- An identity with an image whose forced refresh failed. -/
def refreshFailed : List LogoOp :=
  [.enrollIdentities [prewarmed] false 1000,
    .recordSuccess 1 prewarmed.2 [137] "4f53cda18c2baa0c0354bb5f9a3ecbe5ed12ab4d8e11ba873c2f11161202b945" "image/png"
      "coingecko" 2000 (some 200),
    .enrollIdentities [prewarmed] true 3000,
    .recordFailure 1 prewarmed.2 "transient" 4000 90000 1 (some 503) "http_503"]

private theorem refreshFailed_run : ∃ store,
    run (LogoStore.step prewarmEth fun _ => "") .empty refreshFailed = some store ∧
    ¬ EnrolmentAgrees prewarmEth store (.enrollIdentities [prewarmed] false 5000) := by
  have hrun : (run (LogoStore.step prewarmEth fun _ => "") .empty refreshFailed).map (fun store =>
      (store.row? prewarmed).map fun row => (row.imageBytes.isSome, row.nextAttemptAt, row.lastAttemptAt)) =
      some (some (true, some 90000, some 4000)) := by decide +kernel
  obtain ⟨store, hstore, hfacts⟩ := Option.map_eq_some_iff.1 hrun
  obtain ⟨row, hrow, hcolumns⟩ := Option.map_eq_some_iff.1 hfacts
  simp only [Prod.mk.injEq] at hcolumns
  obtain ⟨himage, hnext, hlast⟩ := hcolumns
  refine ⟨store, hstore, fun hagrees => ?_⟩
  have haddress : normalizeAddress prewarmEth prewarmed.2 = .ok prewarmed.2 := by decide +kernel
  have hall : ∀ identity ∈ [prewarmed], Enrollable prewarmEth identity :=
    List.forall_mem_singleton.2 ⟨by decide, by decide, prewarmed.2, haddress⟩
  have hin := enrolmentAgrees_iff.1 hagrees [prewarmed] false 5000 rfl hall prewarmed (List.mem_singleton.2 rfl)
    prewarmed.2 haddress
  have hrow' : store.row? (prewarmed.1, prewarmed.2) = some row := hrow
  rw [hrow'] at hin
  obtain ⟨last, hmem, hlt⟩ | hin := hin
  · rw [hlast] at hmem
    cases hmem
    exact absurd hlt (by decide)
  · have hkept : ¬ (false = true ∨ row.imageBytes.isNone = true) := by
      rintro (hfalse | hnone)
      · cases hfalse
      · rw [Option.isNone_iff_eq_none.1 hnone] at himage
        cases himage
    rw [if_neg hkept] at hin
    exact absurd (hin 90000 hnext) (by decide)

end Example

/-- An enrolment without force does not schedule an image whose forced refresh failed, and a wait for it goes on. -/
theorem enrolments_not_always_agree :
    ¬ ∀ (eth : EthUtils) (revision : List (String × String) → String) (ops : List LogoOp),
      Along (LogoStore.step eth revision) (EnrolmentAgrees eth) .empty ops := by
  intro h
  obtain ⟨store, hrun, hdisagrees⟩ := Example.refreshFailed_run
  have halong := h Example.prewarmEth (fun _ => "")
    (Example.refreshFailed ++ [.enrollIdentities [Example.prewarmed] false 5000])
  exact hdisagrees (halong.after hrun).1

end TokenPriceAgg
