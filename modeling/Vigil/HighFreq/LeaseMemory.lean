import Vigil.HighFreq.Coverage
import Vigil.HighFreq.InFlight

/-! What the replicas remember of their leases against the lease table.  Every call of the lease store
is sent, then executed at the table, then answered, each at its own time, and the function that made
it goes on from the answer.  There is one clock. -/

namespace Vigil.HighFreq.LeaseMemory

open Lib Leases Slots InFlight

/-- What a reload waits for. -/
inductive ReloadPhase where
  | none
  | discovering
  | leasing
  deriving DecidableEq, Repr

/-- A call of the lease store, with what its caller needs to go on; `reloading` says that a reload
waits for it. -/
inductive Call where
  | claim (epoch : ℕ) (reloading : Bool)
  | handBack (shards : List ℕ) (reloading : Bool)
  | idleRelease (shards : List ℕ)
  | stopRelease (shards : List ℕ)
  deriving DecidableEq, Repr

/-- The shards that the call deletes the rows of. -/
def Call.releases : Call → List ℕ
  | .claim _ _ => []
  | .handBack shards _ => shards
  | .idleRelease shards => shards
  | .stopRelease shards => shards

/-- A plane is started once, and `stop` is called after that, if at all. -/
structure Replica where
  started : Bool
  running : Bool
  wantsLeases : Bool
  leaseEpoch : ℕ
  leases : List Lease
  reload : ReloadPhase
  /-- The calls of `stop` that have not released yet. -/
  stops : ℕ

def Replica.fresh : Replica := ⟨false, false, false, 0, [], .none, 0⟩

def Replica.endReload (r : Replica) (reloading : Bool) : Replica :=
  if reloading then { r with reload := .none } else r

def Replica.trackedReload (r : Replica) : Replica :=
  if r.reload = .none && r.running then { r with reload := .discovering } else r

/-- `start()` -/
def Replica.start (r : Replica) : Replica :=
  { r with started := true, running := true }.trackedReload

def Replica.claimNow (r : Replica) (reloading : Bool) : Replica × Option Call :=
  if !r.running then (r.endReload reloading, none)
  else (r, some (.claim r.leaseEpoch reloading))

def Replica.renewLeases (r : Replica) : Replica × Option Call :=
  if !r.wantsLeases then (r, none) else r.claimNow false

/-- `reload` from the answer of its query, of which only matters whether it has rows. -/
def Replica.discovered (r : Replica) (rows : Bool) (now : ℤ) : Replica × Option Call :=
  if !r.running then (r.endReload true, none)
  else if rows then
    let r := { r with wantsLeases := true }
    if holdsShards r.leases now = [] then { r with reload := .leasing }.claimNow true
    else (r.endReload true, none)
  else if r.wantsLeases || r.leases ≠ [] then
    let shards := r.leases.map (·.shard)
    let r := { r with wantsLeases := false, leaseEpoch := r.leaseEpoch + 1, leases := [] }
    if shards = [] then (r.endReload true, none)
    else ({ r with reload := .leasing }, some (.idleRelease shards))
  else (r.endReload true, none)

/-- `stop` up to where it waits for the reload and the writer. -/
def Replica.stop (r : Replica) : Replica :=
  { r with running := false, leaseEpoch := r.leaseEpoch + 1, stops := r.stops + 1 }

def Replica.stopRelease (r : Replica) : Replica × Option Call :=
  let shards := r.leases.map (·.shard)
  let r := { r with stops := r.stops - 1 }
  if shards = [] then ({ r with leases := [] }, none) else (r, some (.stopRelease shards))

/-- A caller goes on from the answer, or from the error for which there is none. -/
def Replica.answered (r : Replica) : Call → Option (List Lease) → Replica × Option Call
  | .claim epoch reloading, some granted =>
    if epoch ≠ r.leaseEpoch then
      let shards := granted.map (·.shard)
      if shards = [] then (r.endReload reloading, none) else (r, some (.handBack shards reloading))
    else ({ r with leases := granted }.endReload reloading, none)
  | .claim _ reloading, none => (r.endReload reloading, none)
  | .handBack _ reloading, _ => (r.endReload reloading, none)
  | .idleRelease _, _ => (r.endReload true, none)
  | .stopRelease _, _ => ({ r with leases := [] }, none)

/-- An answer of the store that is on its way. -/
structure Answer where
  ownerId : String
  call : Call
  granted : List Lease
  deriving DecidableEq, Repr

structure World where
  clock : ℤ
  table : LeaseTable
  /-- The replicas, by the identity that they lease under. -/
  replicas : String → Replica
  sent : List (String × Call)
  answers : List Answer

def World.init : World := ⟨0, fun _ => none, fun _ => .fresh, [], []⟩

def World.setReplica (w : World) (ownerId : String) (moved : Replica × Option Call) : World :=
  { w with
    replicas := Function.update w.replicas ownerId moved.1
    sent := w.sent ++ (moved.2.map fun call => (ownerId, call)).toList }

theorem setReplica_self {w : World} {ownerId : String} {moved : Replica × Option Call} :
    (w.setReplica ownerId moved).replicas ownerId = moved.1 := Function.update_self ..

theorem setReplica_of_ne {w : World} {ownerId other : String} {moved : Replica × Option Call}
    (h : other ≠ ownerId) : (w.setReplica ownerId moved).replicas other = w.replicas other :=
  Function.update_of_ne h ..

/-- A statement at the table, with what it returns. -/
def executed (table : LeaseTable) (ownerId : String) (call : Call) (now : ℤ) :
    LeaseTable × List Lease :=
  match call with
  | .claim _ _ => claimShards table ownerId allShards now
  | call => (releaseShards table ownerId call.releases, [])

/-- What replicas, the store and the network do. -/
inductive Action where
  | advance (now : ℤ)
  | start (ownerId : String)
  | reload (ownerId : String)
  | discovered (ownerId : String) (rows : Bool)
  | discoveryFailed (ownerId : String)
  | renew (ownerId : String)
  | stop (ownerId : String)
  | stopRelease (ownerId : String)
  | execute (ownerId : String) (call : Call)
  | deliver (answer : Answer)
  /-- The call fails before it gets to the table. -/
  | fail (ownerId : String) (call : Call)
  /-- The answer is lost, and the caller gets an error. -/
  | lose (answer : Answer)
  deriving DecidableEq, Repr

/-- A call is executed and answered where it is on its way, and a replica goes on where it waits for
that. -/
def step (w : World) : Action → Option World
  | .advance now => if w.clock ≤ now then some { w with clock := now } else none
  | .start ownerId =>
    let r := w.replicas ownerId
    if r.started then none else some (w.setReplica ownerId (r.start, none))
  | .reload ownerId => some (w.setReplica ownerId ((w.replicas ownerId).trackedReload, none))
  | .discovered ownerId rows =>
    let r := w.replicas ownerId
    if r.reload = .discovering then some (w.setReplica ownerId (r.discovered rows w.clock)) else none
  | .discoveryFailed ownerId =>
    let r := w.replicas ownerId
    if r.reload = .discovering then some (w.setReplica ownerId (r.endReload true, none)) else none
  | .renew ownerId => some (w.setReplica ownerId (w.replicas ownerId).renewLeases)
  | .stop ownerId =>
    let r := w.replicas ownerId
    if r.started then some (w.setReplica ownerId (r.stop, none)) else none
  | .stopRelease ownerId =>
    let r := w.replicas ownerId
    if r.stops ≠ 0 && r.reload = .none then some (w.setReplica ownerId r.stopRelease) else none
  | .execute ownerId call =>
    if (ownerId, call) ∈ w.sent then
      let (table, granted) := executed w.table ownerId call w.clock
      some { w with
        table
        sent := w.sent.erase (ownerId, call)
        answers := ⟨ownerId, call, granted⟩ :: w.answers }
    else none
  | .deliver answer =>
    if answer ∈ w.answers then
      let r := (w.replicas answer.ownerId).answered answer.call (some answer.granted)
      some ({ w with answers := w.answers.erase answer }.setReplica answer.ownerId r)
    else none
  | .fail ownerId call =>
    if (ownerId, call) ∈ w.sent then
      let r := (w.replicas ownerId).answered call none
      some ({ w with sent := w.sent.erase (ownerId, call) }.setReplica ownerId r)
    else none
  | .lose answer =>
    if answer ∈ w.answers then
      let r := (w.replicas answer.ownerId).answered answer.call none
      some ({ w with answers := w.answers.erase answer }.setReplica answer.ownerId r)
    else none

def machine : Machine World Action where
  init := World.init
  step := step

/-! ### What the leases are for -/

/-- The rows of the shards on which the replica remembers an unexpired lease are its own. -/
def Backed (w : World) (ownerId : String) : Prop :=
  ∀ shard ∈ holdsShards (w.replicas ownerId).leases w.clock,
    ∃ row, w.table shard = some row ∧ row.ownerId = ownerId

/-- Some plane with the leases of the replica starts a probe of the shard if it ticks now. -/
def StartsProbe (r : Replica) (now : ℤ) (shard : ℕ) : Prop :=
  r.running = true ∧ ∃ (p : Plane) (saturated : Bool) (mono : ℚ),
    ∃ probe ∈ (tick p (holdsShards r.leases now) saturated mono).inFlight,
      probe ∉ p.inFlight ∧ shardOf probe.monitorId = shard

/-- No two replicas start probes of one shard. -/
def Exclusive (w : World) : Prop :=
  ∀ shard ownerId ownerId', StartsProbe (w.replicas ownerId) w.clock shard →
    StartsProbe (w.replicas ownerId') w.clock shard → ownerId = ownerId'

/-- The replica neither remembers an unexpired lease on one of the shards, nor is the answer that
would bring it one on its way. -/
def Unheld (w : World) (ownerId : String) (shards : List ℕ) : Prop :=
  ∀ shard ∈ shards, shard ∉ holdsShards (w.replicas ownerId).leases w.clock ∧
    ∀ answer ∈ w.answers, answer.ownerId = ownerId → ∀ epoch reloading,
      answer.call = .claim epoch reloading → (w.replicas ownerId).leaseEpoch ≤ epoch →
      shard ∉ holdsShards answer.granted w.clock

/-- A stale grant is handed back while the replica has no newer one. -/
def HandBacksUnheld (w : World) : Action → Prop
  | .execute ownerId (.handBack shards _) => Unheld w ownerId shards
  | _ => True

/-- The leases of a replica that stops have expired when their rows go. -/
def StopsUnheld (w : World) : Action → Prop
  | .execute ownerId (.stopRelease shards) => Unheld w ownerId shards
  | _ => True

/-! ### A tick stays on held shards -/

theorem serve_inFlight {held : List ℕ} {saturated : Bool} {mono : ℚ} {p : Plane} {ref : ℕ}
    {probe : Probe} (h : probe ∈ (serve held saturated mono p ref).inFlight) :
    probe ∈ p.inFlight ∨ shardOf probe.monitorId ∈ held := by
  cases hslot : p.objects ref with
  | none =>
    rw [serve, hslot] at h
    exact .inl h
  | some slot =>
    obtain ⟨bucket, ⟨refusal, hserve⟩ | ⟨hheld, -, hserve⟩⟩ :=
      @serve_spec p held saturated mono ref slot hslot
    · obtain ⟨slot', missedSlots, shedSlots, hadvance, -⟩ :=
        @advance_spec { p with bucket } ref slot mono refusal
      rw [hserve, hadvance] at h
      exact .inl h
    · obtain ⟨slot', missedSlots, shedSlots, hadvance, hmonitor, -⟩ :=
        @advance_spec { p with bucket } ref slot mono none
      have hobject : (advance { p with bucket } ref slot mono none).objects ref = some slot' := by
        rw [hadvance]
        exact setSlot_objects_self
      rw [hserve, Slots.probe, hobject, hadvance] at h
      rcases List.mem_cons.mp h with rfl | h
      · rw [hmonitor]
        exact .inr hheld
      · exact .inl h

theorem tick_inFlight {held : List ℕ} {saturated : Bool} {mono : ℚ} {p : Plane} {probe : Probe}
    (h : probe ∈ (tick p held saturated mono).inFlight) :
    probe ∈ p.inFlight ∨ shardOf probe.monitorId ∈ held := by
  have hall : ∀ refs q, probe ∈ (List.foldl (serve held saturated mono) q refs).inFlight →
      probe ∈ q.inFlight ∨ shardOf probe.monitorId ∈ held := by
    intro refs
    induction refs with
    | nil => exact fun _ => .inl
    | cons ref rest ih =>
      intro q hq
      rcases ih _ hq with hq | hheld
      · exact serve_inFlight hq
      · exact .inr hheld
  exact hall _ p h

theorem StartsProbe.holds {r : Replica} {now : ℤ} {shard : ℕ} (h : StartsProbe r now shard) :
    shard ∈ holdsShards r.leases now := by
  obtain ⟨-, p, saturated, mono, probe, hprobe, hnew, rfl⟩ := h
  exact (tick_inFlight hprobe).resolve_left hnew

theorem exclusive_of_backed {w : World}
    (h : ∀ ownerId, (w.replicas ownerId).running = true → Backed w ownerId) : Exclusive w := by
  intro shard ownerId ownerId' hstarts hstarts'
  obtain ⟨row, hrow, rfl⟩ := h ownerId hstarts.1 shard hstarts.holds
  obtain ⟨row', hrow', rfl⟩ := h ownerId' hstarts'.1 shard hstarts'.holds
  rw [Option.some.inj (hrow.symm.trans hrow')]

end Vigil.HighFreq.LeaseMemory
