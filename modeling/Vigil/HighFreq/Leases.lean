import Vigil.Js.Text

/-! Shard leases of the high-frequency plane, `highfreq/shards.ts` and `highfreq/leases.ts`: each
operation is one statement on the lease table, at one reading of the database's clock.  Instants are
milliseconds. -/

namespace Vigil.HighFreq.Leases

open Js.Text

def shardCount : ℕ := 16

def leaseTtlMs : ℤ := 6000

/-- FNV-1a over the code units; the sums of the shifts wrap when they are stored. -/
def shardOf (monitorId : JsString) : ℕ :=
  let mix (hash : UInt32) (unit : UInt16) : UInt32 :=
    let hash := hash ^^^ unit.toUInt32
    hash + ((hash <<< 1) + (hash <<< 4) + (hash <<< 7) + (hash <<< 8) + (hash <<< 24))
  (monitorId.foldl mix 0x811c9dc5).toNat % shardCount

def allShards : List ℕ := List.range shardCount

/-- A row of `monitor_hf_leases`. -/
structure LeaseRow where
  ownerId : String
  acquiredAt : ℤ
  renewedAt : ℤ
  expiresAt : ℤ
  deriving DecidableEq, Repr

/-- The lease table, by shard. -/
abbrev LeaseTable := ℕ → Option LeaseRow

/-- What a replica remembers of a grant. -/
structure Lease where
  shard : ℕ
  expiresAt : ℤ
  deriving DecidableEq, Repr

/-- Whether the `WHERE` of the upsert lets the owner take the shard. -/
def claimable (table : LeaseTable) (ownerId : String) (now : ℤ) (shard : ℕ) : Bool :=
  (table shard).all fun row => row.ownerId = ownerId || row.expiresAt < now

def claimedRow (table : LeaseTable) (ownerId : String) (now : ℤ) (shard : ℕ) : LeaseRow where
  ownerId
  acquiredAt := match table shard with
    | none => now
    | some row => if row.ownerId = ownerId then row.acquiredAt else now
  renewedAt := now
  expiresAt := now + leaseTtlMs

def claimShards (table : LeaseTable) (ownerId : String) (shards : List ℕ) (now : ℤ) :
    LeaseTable × List Lease :=
  (fun shard =>
    if shards.contains shard && claimable table ownerId now shard then
      some (claimedRow table ownerId now shard)
    else table shard,
  (shards.filter (claimable table ownerId now)).map fun shard => ⟨shard, now + leaseTtlMs⟩)

/-- Only rows of this owner go. -/
def releaseShards (table : LeaseTable) (ownerId : String) (shards : List ℕ) : LeaseTable :=
  fun shard =>
    if shards.contains shard then (table shard).filter (·.ownerId ≠ ownerId) else table shard

/-- Whether anybody holds the shard. -/
def live (table : LeaseTable) (now : ℤ) (shard : ℕ) : Bool :=
  (table shard).any (·.expiresAt > now)

/-- The shards on which a replica remembers an unexpired lease. -/
def holdsShards (leases : List Lease) (now : ℤ) : List ℕ :=
  (leases.filter (·.expiresAt > now)).map (·.shard)

variable {now : ℤ} {shard : ℕ} {table : LeaseTable} {shards : List ℕ} {lease : Lease}
  {ownerId : String}

theorem mem_holdsShards {leases : List Lease} : shard ∈ holdsShards leases now ↔
      ∃ lease ∈ leases, lease.shard = shard ∧ now < lease.expiresAt := by
  simp only [holdsShards, List.mem_map, List.mem_filter, decide_eq_true_eq]
  constructor
  · rintro ⟨lease, ⟨hmem, hlive⟩, hshard⟩
    exact ⟨lease, hmem, hshard, hlive⟩
  · rintro ⟨lease, hmem, hshard, hlive⟩
    exact ⟨lease, ⟨hmem, hlive⟩, hshard⟩

/-! ### Leases and rows -/

/-- The row of the shard is the replica's, at least for as long as the lease. -/
def Covered (table : LeaseTable) (ownerId : String) (lease : Lease) : Prop :=
  ∃ row, table lease.shard = some row ∧ row.ownerId = ownerId ∧ lease.expiresAt ≤ row.expiresAt

theorem claimShards_covers {ownerId other : String} (h : Covered table other lease)
    (hlive : now < lease.expiresAt)
    (hrow : ∀ row, table lease.shard = some row → row.expiresAt ≤ now + leaseTtlMs) :
    Covered (claimShards table ownerId shards now).1 other lease := by
  obtain ⟨row, hfound, rfl, hexpires⟩ := h
  rw [Covered, claimShards]
  dsimp only
  split
  · rename_i hclaimed
    -- the row has not expired, so that only its owner can claim it
    have hclaimable := (Bool.and_eq_true_iff.mp hclaimed).2
    have howner : row.ownerId = ownerId := by
      rw [claimable, hfound, Option.all_some, Bool.or_eq_true, decide_eq_true_eq,
        decide_eq_true_eq] at hclaimable
      exact hclaimable.resolve_right (by omega)
    exact ⟨_, rfl, howner.symm, hexpires.trans (hrow row hfound)⟩
  · exact ⟨row, hfound, rfl, hexpires⟩

theorem granted_covered (h : lease ∈ (claimShards table ownerId shards now).2) :
    Covered (claimShards table ownerId shards now).1 ownerId lease := by
  obtain ⟨shard, hshard, rfl⟩ := List.mem_map.mp h
  obtain ⟨hmem, hclaimable⟩ := List.mem_filter.mp hshard
  refine ⟨claimedRow table ownerId now shard, ?_, rfl, le_rfl⟩
  show (if _ then _ else _) = _
  rw [if_pos (Bool.and_eq_true_iff.mpr ⟨List.contains_iff_mem.mpr hmem, hclaimable⟩)]

theorem claimShards_rows
    (h : ∀ shard row, table shard = some row → row.expiresAt ≤ now + leaseTtlMs) {row : LeaseRow}
    (hrow : (claimShards table ownerId shards now).1 shard = some row) :
    row.expiresAt ≤ now + leaseTtlMs := by
  rw [claimShards] at hrow
  dsimp only at hrow
  split at hrow
  · cases hrow
    exact le_rfl
  · exact h shard row hrow

theorem releaseShards_covers {ownerId other : String} (h : Covered table other lease)
    (hkept : other = ownerId → lease.shard ∉ shards) :
    Covered (releaseShards table ownerId shards) other lease := by
  obtain ⟨row, hfound, rfl, hexpires⟩ := h
  refine ⟨row, ?_, rfl, hexpires⟩
  rw [releaseShards]
  split
  · rename_i hreleased
    have howner : row.ownerId ≠ ownerId :=
      fun howner => hkept howner (List.contains_iff_mem.mp hreleased)
    rw [hfound, Option.filter_some, if_pos (decide_eq_true howner)]
  · exact hfound

theorem releaseShards_rows {row : LeaseRow}
    (h : releaseShards table ownerId shards shard = some row) : table shard = some row := by
  rw [releaseShards] at h
  split at h
  · exact (Option.filter_eq_some_iff.mp h).1
  · exact h

end Vigil.HighFreq.Leases
