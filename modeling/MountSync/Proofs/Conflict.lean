/-
The two decisions about a pair of copies agree.

A client plans with both records before it, and whoever receives a transfer resolves with one version
that it has and one that it is told.  The tables are written down separately, with the copies the other
way round in one direction, but for each pair they come to one row of a common table.
-/
import MountSync.Conflict

namespace MountSync

/-! ### The receiver -/

/-- A copy is left alone if the source is the same, or older. -/
theorem resolve_cases (direction : Direction) (destination source : FileVersion) :
    destination.checksum = source.checksum ∧
      resolve direction (some destination) source = .alreadySynced ∨
    destination.checksum ≠ source.checksum ∧ source.mtime < destination.mtime ∧
      resolve direction (some destination) source = .staleSource ∨
    destination.checksum ≠ source.checksum ∧ destination.mtime ≤ source.mtime ∧
      resolve direction (some destination) source = .proceed := by
  unfold resolve
  dsimp only
  by_cases same : destination.checksum = source.checksum
  · exact Or.inl ⟨same, if_pos same⟩
  rw [if_neg same]
  by_cases stale : source.mtime < destination.mtime
  · exact Or.inr (Or.inl ⟨same, stale, if_pos stale⟩)
  · exact Or.inr (Or.inr ⟨same, Int64.not_lt.1 stale, if_neg stale⟩)

/-- A copy gives way to one that is different and not older. -/
theorem resolve_eq_proceed_iff {direction : Direction} {destination source : FileVersion} :
    resolve direction (some destination) source = .proceed ↔
      destination.checksum ≠ source.checksum ∧ destination.mtime ≤ source.mtime := by
  rcases resolve_cases direction destination source with
    ⟨same, synced⟩ | ⟨-, newer, stale⟩ | ⟨differs, notNewer, proceeds⟩
  · rw [synced]
    exact iff_of_false (by decide) fun gives => gives.1 same
  · rw [stale]
    exact iff_of_false (by decide) fun gives => Int64.not_lt.2 gives.2 newer
  · exact iff_of_true proceeds ⟨differs, notNewer⟩

/-- A transfer that does not go on has found a copy, which is the same or newer. -/
theorem exists_of_declined {direction : Direction} {destination : Option FileVersion}
    {source : FileVersion} (declined : resolve direction destination source ≠ .proceed) :
    ∃ version, destination = some version ∧
      (version.checksum = source.checksum ∧
        resolve direction destination source = .alreadySynced ∨
      version.checksum ≠ source.checksum ∧ source.mtime < version.mtime ∧
        resolve direction destination source = .staleSource) := by
  cases destination with
  | none => exact absurd rfl declined
  | some version =>
      refine ⟨version, rfl, ?_⟩
      rcases resolve_cases direction version source with same | newer | ⟨-, -, proceeds⟩
      · exact Or.inl same
      · exact Or.inr newer
      · exact absurd proceeds declined

/-! ### The planner

One equation for each of the cases that a client tells apart.
-/

section

variable {mine its : FileRecord}

theorem plan_of_same (same : mine.checksum = its.checksum) : plan (some mine) its = .skip :=
  if_pos same

theorem plan_of_newer (differs : mine.checksum ≠ its.checksum) (newer : its.mtime < mine.mtime) :
    plan (some mine) its = .store := by
  rw [plan, if_neg differs, if_pos newer]

theorem plan_of_older (differs : mine.checksum ≠ its.checksum) (older : mine.mtime < its.mtime) :
    plan (some mine) its = .fetch := by
  rw [plan, if_neg differs, if_neg (Int64.lt_asymm older), if_pos older]

theorem plan_of_equal (differs : mine.checksum ≠ its.checksum) (equal : mine.mtime = its.mtime) :
    plan (some mine) its = .anomaly := by
  rw [plan, if_neg differs, equal, if_neg Int64.lt_irrefl, if_neg Int64.lt_irrefl]

end

/-! ### Both of them -/

/-- What is planned for two copies, with what becomes of a fetch and of a store. -/
inductive Agreed : SyncAction → (fetch store : Resolution) → Prop
  | fetch : Agreed .fetch .proceed .staleSource
  | store : Agreed .store .staleSource .proceed
  | skip : Agreed .skip .alreadySynced .alreadySynced
  | anomaly : Agreed .anomaly .proceed .proceed

/-- **Whatever is planned, the resolver lets it pass, and not the opposite.** -/
theorem agreed (mine its : FileRecord) :
    Agreed (plan (some mine) its) (resolve .fetch (some mine.version) its.version)
      (resolve .store (some its.version) mine.version) := by
  rcases resolve_cases .fetch mine.version its.version with
    ⟨same, fetch⟩ | ⟨differs, newer, fetch⟩ | ⟨differs, notNewer, fetch⟩
  · have store : resolve .store (some its.version) mine.version = .alreadySynced := if_pos same.symm
    rw [plan_of_same same, fetch, store]
    exact .skip
  · have store : resolve .store (some its.version) mine.version = .proceed :=
      resolve_eq_proceed_iff.2 ⟨differs.symm, Int64.le_of_lt newer⟩
    rw [plan_of_newer differs newer, fetch, store]
    exact .store
  · rcases resolve_cases .store its.version mine.version with
      ⟨same, -⟩ | ⟨-, older, store⟩ | ⟨-, notOlder, store⟩
    · exact absurd same.symm differs
    · rw [plan_of_older differs older, fetch, store]
      exact .fetch
    · rw [plan_of_equal differs (Int64.le_antisymm notNewer notOlder), fetch, store]
      exact .anomaly

end MountSync
