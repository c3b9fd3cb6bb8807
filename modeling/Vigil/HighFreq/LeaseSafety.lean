import Vigil.HighFreq.Outstanding

/-! The leases that a replica remembers, or is about to be told of, are covered by rows of the table in
every run whose releases find nothing held.  Of the replicas that have stopped this is asked apart,
since their releases matter to nothing but their own memory. -/

namespace Vigil.HighFreq.LeaseSafety

open Lib Leases Slots LeaseMemory Outstanding

/-! ### The invariant -/

/-- The replicas that the invariant is about: those that run, or all. -/
def Counts (all : Prop) (r : Replica) : Prop := all ∨ r.running = true

structure Inv (all : Prop) (w : World) : Prop where
  memory : ∀ ownerId, Counts all (w.replicas ownerId) → ∀ lease ∈ (w.replicas ownerId).leases,
    w.clock < lease.expiresAt → Covered w.table ownerId lease
  /-- The grants that are on their way and will not be taken for stale. -/
  answers : ∀ answer ∈ w.answers, Counts all (w.replicas answer.ownerId) → ∀ epoch reloading,
    answer.call = .claim epoch reloading → (w.replicas answer.ownerId).leaseEpoch ≤ epoch →
    ∀ lease ∈ answer.granted, w.clock < lease.expiresAt → Covered w.table answer.ownerId lease
  rows : ∀ shard row, w.table shard = some row → row.expiresAt ≤ w.clock + leaseTtlMs

variable {all : Prop} {w : World}

theorem Inv.init : Inv all World.init where
  memory _ _ _ h := absurd h List.not_mem_nil
  answers _ h := absurd h List.not_mem_nil
  rows _ _ h := by cases h

variable {ownerId : String} {sent : List (String × Call)} {answers : List Answer} {call : Call}

theorem Inv.backed (h : Inv all w) (hcounts : Counts all (w.replicas ownerId)) :
    Backed w ownerId := by
  intro shard hshard
  obtain ⟨lease, hmem, rfl, hlive⟩ := mem_holdsShards.mp hshard
  obtain ⟨row, hrow, howner, -⟩ := h.memory ownerId hcounts lease hmem hlive
  exact ⟨row, hrow, howner⟩

/-- A replica may forget leases and pass to later epochs, and answers may go. -/
theorem Inv.setReplica (h : Inv all w) {moved : Replica × Option Call}
    (hanswers : answers ⊆ w.answers)
    (hcounts : ∀ answer ∈ answers, answer.ownerId = ownerId → Counts all moved.1 → Counts all
      (w.replicas ownerId)) (hepoch : (w.replicas ownerId).leaseEpoch ≤ moved.1.leaseEpoch)
    (hleases : Counts all moved.1 → ∀ lease ∈ moved.1.leases, w.clock < lease.expiresAt → Covered
      w.table ownerId lease) : Inv all ({ w with sent, answers }.setReplica ownerId moved) where
  memory other hother lease hlease hlive := by
    by_cases hself : other = ownerId
    · subst hself
      rw [setReplica_self] at hother hlease
      exact hleases hother lease hlease hlive
    · rw [setReplica_of_ne hself] at hother hlease
      exact h.memory other hother lease hlease hlive
  answers answer hanswer hother epoch reloading hcall hcurrent := by
    by_cases hself : answer.ownerId = ownerId
    · rw [hself, setReplica_self] at hother hcurrent
      refine h.answers answer (hanswers hanswer) ?_ epoch reloading hcall ?_
      · rw [hself]
        exact hcounts answer hanswer hself hother
      · rw [hself]
        exact hepoch.trans hcurrent
    · rw [setReplica_of_ne hself] at hother hcurrent
      exact h.answers answer (hanswers hanswer) hother epoch reloading hcall hcurrent
  rows := h.rows

/-- What a replica makes of an event that brings it no lease. -/
structure Keeps (r : Replica) (moved : Replica × Option Call) : Prop where
  running : moved.1.running = true → r.running = true
  epoch : r.leaseEpoch ≤ moved.1.leaseEpoch
  leases : moved.1.leases ⊆ r.leases

theorem Inv.keeps (h : Inv all w) {moved : Replica × Option Call} (hanswers : answers ⊆ w.answers)
    (hkeeps : Keeps (w.replicas ownerId) moved) :
    Inv all ({ w with sent, answers }.setReplica ownerId moved) := by
  have hcounts : Counts all moved.1 → Counts all (w.replicas ownerId) := Or.imp_right hkeeps.running
  refine h.setReplica hanswers (fun _ _ _ => hcounts) hkeeps.epoch ?_
  exact fun hmoved lease hlease => h.memory ownerId (hcounts hmoved) lease (hkeeps.leases hlease)

section Keeps

variable {r : Replica}

theorem endReload_keeps {reloading : Bool} : Keeps r (r.endReload reloading, none) := by
  cases reloading with
  | false => exact ⟨id, le_rfl, List.Subset.refl _⟩
  | true => exact ⟨id, le_rfl, List.Subset.refl _⟩

theorem trackedReload_keeps : Keeps r (r.trackedReload, none) := by
  unfold Replica.trackedReload
  split
  · exact ⟨id, le_rfl, List.Subset.refl _⟩
  · exact ⟨id, le_rfl, List.Subset.refl _⟩

theorem claimNow_keeps {reloading : Bool} : Keeps r (r.claimNow reloading) := by
  unfold Replica.claimNow
  split
  · exact endReload_keeps
  · exact ⟨id, le_rfl, List.Subset.refl _⟩

theorem renewLeases_keeps : Keeps r r.renewLeases := by
  unfold Replica.renewLeases
  split
  · exact ⟨id, le_rfl, List.Subset.refl _⟩
  · exact claimNow_keeps

theorem discovered_keeps {rows : Bool} {now : ℤ} : Keeps r (r.discovered rows now) := by
  unfold Replica.discovered
  dsimp only
  split
  · exact endReload_keeps
  · split
    · split
      · obtain ⟨hrunning, hepoch, hleases⟩ :=
          @claimNow_keeps { r with wantsLeases := true, reload := .leasing } true
        exact ⟨hrunning, hepoch, hleases⟩
      · exact ⟨id, le_rfl, List.Subset.refl _⟩
    · split
      · split
        · exact ⟨id, Nat.le_succ _, List.nil_subset _⟩
        · exact ⟨id, Nat.le_succ _, List.nil_subset _⟩
      · exact endReload_keeps

theorem stop_keeps : Keeps r (r.stop, none) :=
  ⟨fun hrunning => absurd hrunning Bool.false_ne_true, Nat.le_succ _, List.Subset.refl _⟩

theorem stopRelease_keeps : Keeps r r.stopRelease := by
  unfold Replica.stopRelease
  dsimp only
  split
  · exact ⟨id, le_rfl, List.nil_subset _⟩
  · exact ⟨id, le_rfl, List.Subset.refl _⟩

theorem answered_cases {call : Call} {granted : Option (List Lease)} :
    Keeps r (r.answered call granted) ∨ ∃ reloading leases, call = .claim r.leaseEpoch reloading ∧
      granted = some leases ∧ (r.answered call granted).1.leases = leases ∧
      (r.answered call granted).1.leaseEpoch = r.leaseEpoch ∧
      (r.answered call granted).1.running = r.running := by
  cases call with
  | claim epoch reloading =>
    cases granted with
    | none => exact .inl endReload_keeps
    | some leases =>
      rw [Replica.answered]
      split
      · dsimp only
        split
        · exact .inl endReload_keeps
        · exact .inl ⟨id, le_rfl, List.Subset.refl _⟩
      · rename_i hepoch
        obtain rfl : epoch = r.leaseEpoch := not_not.mp hepoch
        cases reloading with
        | false => exact .inr ⟨false, leases, rfl, rfl, rfl, rfl, rfl⟩
        | true => exact .inr ⟨true, leases, rfl, rfl, rfl, rfl, rfl⟩
  | handBack shards reloading => exact .inl endReload_keeps
  | idleRelease shards => exact .inl endReload_keeps
  | stopRelease shards => exact .inl ⟨id, le_rfl, List.nil_subset _⟩

end Keeps

/-! ### Runs -/

theorem executed_covers (h : Inv all w) {ownerId other : String} {lease : Lease}
    (hcovered : Covered w.table other lease) (hlive : w.clock < lease.expiresAt)
    (hunheld : other = ownerId → lease.shard ∉ call.releases) :
    Covered (executed w.table ownerId call w.clock).1 other lease := by
  cases call with
  | claim epoch reloading => exact claimShards_covers hcovered hlive fun row => h.rows _ row
  | handBack shards reloading => exact releaseShards_covers hcovered hunheld
  | idleRelease shards => exact releaseShards_covers hcovered hunheld
  | stopRelease shards => exact releaseShards_covers hcovered hunheld

theorem executed_rows (h : Inv all w) {shard : ℕ} {row : LeaseRow}
    (hrow : (executed w.table ownerId call w.clock).1 shard = some row) :
    row.expiresAt ≤ w.clock + leaseTtlMs := by
  cases call with
  | claim epoch reloading => exact claimShards_rows h.rows hrow
  | handBack shards reloading => exact h.rows shard row (releaseShards_rows hrow)
  | idleRelease shards => exact h.rows shard row (releaseShards_rows hrow)
  | stopRelease shards => exact h.rows shard row (releaseShards_rows hrow)

/-- Of the releases only those that hand a grant back, and of a replica that counts though it has
stopped those of its `stop`, can find a lease held. -/
theorem unheld_of_counts (h : AllOrderly w) (hsent : (ownerId, call) ∈ w.sent)
    (hhandBack : HandBacksUnheld w (.execute ownerId call))
    (hstop : all → StopsUnheld w (.execute ownerId call))
    (hcounts : Counts all (w.replicas ownerId)) : Unheld w ownerId call.releases := by
  have hcall : call ∈ callsOf w ownerId := mem_callsOf_of_sent hsent
  cases call with
  | claim epoch reloading => exact nofun
  | handBack shards reloading => exact hhandBack
  | idleRelease shards =>
    obtain ⟨-, hleases, hclaims⟩ := (h ownerId).idle shards hcall
    intro shard _
    refine ⟨by simp [hleases, holdsShards], ?_⟩
    rintro answer hanswer rfl epoch reloading hclaim hcurrent
    have hpast := hclaims epoch reloading (hclaim ▸ mem_callsOf_of_answer hanswer)
    exact absurd hpast (not_lt.mpr hcurrent)
  | stopRelease shards =>
    rcases hcounts with hall | hrunning
    · exact hstop hall
    · have hstopped := (h ownerId).stopped (.inr ⟨shards, hcall⟩)
      exact absurd (hrunning.symm.trans hstopped) (by simp)

theorem Inv.execute (h : Inv all w)
    (hunheld : Counts all (w.replicas ownerId) → Unheld w ownerId call.releases) : Inv all { w with
      table := (executed w.table ownerId call w.clock).1
      sent
      answers := ⟨ownerId, call, (executed w.table ownerId call w.clock).2⟩ :: w.answers } where
  memory other hcounts lease hlease hlive := by
    refine executed_covers h (h.memory other hcounts lease hlease hlive) hlive ?_
    rintro rfl hreleased
    exact (hunheld hcounts lease.shard hreleased).1
      (mem_holdsShards.mpr ⟨lease, hlease, rfl, hlive⟩)
  answers answer hanswer hcounts epoch reloading hcall hcurrent lease hlease hlive := by
    rcases List.mem_cons.mp hanswer with rfl | hold
    · dsimp only at hcall
      subst hcall
      exact granted_covered hlease
    · refine executed_covers h
        (h.answers answer hold hcounts epoch reloading hcall hcurrent lease hlease hlive) hlive ?_
      rintro rfl hreleased
      exact (hunheld hcounts lease.shard hreleased).2 answer hold rfl epoch reloading hcall hcurrent
        (mem_holdsShards.mpr ⟨lease, hlease, rfl, hlive⟩)
  rows shard row hrow := executed_rows h hrow

theorem Inv.answered (h : Inv all w) {granted : Option (List Lease)}
    (hanswers : answers ⊆ w.answers)
    (hgranted : ∀ leases, granted = some leases → ⟨ownerId, call, leases⟩ ∈ w.answers) : Inv all
      ({ w with sent, answers }.setReplica ownerId ((w.replicas ownerId).answered call granted)) := by
  obtain hkeeps | ⟨reloading, leases, hcall, hsome, hleases, hepoch, hrunning⟩ :=
    @answered_cases (w.replicas ownerId) call granted
  · exact h.keeps hanswers hkeeps
  · have hcounts : Counts all ((w.replicas ownerId).answered call granted).1 →
        Counts all (w.replicas ownerId) := Or.imp_right hrunning.symm.trans
    refine h.setReplica hanswers (fun _ _ _ => hcounts) hepoch.ge fun hmoved => ?_
    rw [hleases]
    exact h.answers _ (hgranted leases hsome) (hcounts hmoved) _ reloading hcall le_rfl

/-- A plane that starts remembers nothing and waits for nothing. -/
theorem Inv.start (h : Inv all w) (horderly : AllOrderly w)
    (hfresh : (w.replicas ownerId).started = false) :
    Inv all (w.setReplica ownerId ((w.replicas ownerId).start, none)) := by
  obtain ⟨-, hleases, -, -, hcalls⟩ := (horderly ownerId).fresh hfresh
  obtain ⟨-, hepoch, hsub⟩ :=
    @trackedReload_keeps { w.replicas ownerId with started := true, running := true }
  refine h.setReplica (List.Subset.refl _) ?_ hepoch ?_
  · rintro answer hanswer rfl
    have hmem : answer.call ∈ callsOf w answer.ownerId := mem_callsOf_of_answer hanswer
    rw [hcalls] at hmem
    cases hmem
  · intro _ lease hlease
    have hlease := hsub hlease
    dsimp only at hlease
    rw [hleases] at hlease
    cases hlease

theorem Inv.advance (h : Inv all w) {now : ℤ} (hnow : w.clock ≤ now) :
    Inv all { w with clock := now } where
  memory ownerId hcounts lease hlease hlive :=
    h.memory ownerId hcounts lease hlease (hnow.trans_lt hlive)
  answers answer hanswer hcounts epoch reloading hcall hcurrent lease hlease hlive :=
    h.answers answer hanswer hcounts epoch reloading hcall hcurrent lease hlease
      (hnow.trans_lt hlive)
  rows shard row hrow := by
    show row.expiresAt ≤ now + leaseTtlMs
    have := h.rows shard row hrow
    omega

theorem step_inv {t : World} {a : Action} (horderly : AllOrderly w) (h : Inv all w)
    (hhandBack : HandBacksUnheld w a) (hstop : all → StopsUnheld w a) (hs : step w a = some t) :
    Inv all t := by
  have hall : w.answers ⊆ w.answers := List.Subset.refl _
  cases a with
  | advance now =>
    obtain ⟨hnow, hs⟩ := Option.ite_none_right_eq_some.mp hs
    cases hs
    exact h.advance hnow
  | start ownerId =>
    obtain ⟨hfresh, hs⟩ := Option.ite_none_left_eq_some.mp hs
    cases hs
    exact h.start horderly (Bool.eq_false_iff.mpr hfresh)
  | reload ownerId =>
    cases hs
    exact h.keeps hall trackedReload_keeps
  | discovered ownerId rows =>
    obtain ⟨-, hs⟩ := Option.ite_none_right_eq_some.mp hs
    cases hs
    exact h.keeps hall discovered_keeps
  | discoveryFailed ownerId =>
    obtain ⟨-, hs⟩ := Option.ite_none_right_eq_some.mp hs
    cases hs
    exact h.keeps hall endReload_keeps
  | renew ownerId =>
    cases hs
    exact h.keeps hall renewLeases_keeps
  | stop ownerId =>
    obtain ⟨-, hs⟩ := Option.ite_none_right_eq_some.mp hs
    cases hs
    exact h.keeps hall stop_keeps
  | stopRelease ownerId =>
    obtain ⟨-, hs⟩ := Option.ite_none_right_eq_some.mp hs
    cases hs
    exact h.keeps hall stopRelease_keeps
  | execute ownerId call =>
    obtain ⟨hsent, hs⟩ := Option.ite_none_right_eq_some.mp hs
    cases hs
    exact h.execute (unheld_of_counts horderly hsent hhandBack hstop)
  | deliver answer =>
    obtain ⟨hanswer, hs⟩ := Option.ite_none_right_eq_some.mp hs
    cases hs
    refine h.answered List.erase_subset ?_
    rintro leases hleases
    cases hleases
    exact hanswer
  | fail ownerId call =>
    obtain ⟨-, hs⟩ := Option.ite_none_right_eq_some.mp hs
    cases hs
    exact h.answered hall (by simp)
  | lose answer =>
    obtain ⟨-, hs⟩ := Option.ite_none_right_eq_some.mp hs
    cases hs
    exact h.answered List.erase_subset (by simp)

theorem inv_always {acts : List Action} (hhandBack : machine.EachStep acts HandBacksUnheld)
    (hstop : all → machine.EachStep acts StopsUnheld) : machine.Always acts (Inv all) := by
  have hboth : machine.EachStep acts fun w a => HandBacksUnheld w a ∧ (all → StopsUnheld w a) :=
    fun visited a hpre s t hs hst => ⟨hhandBack visited a hpre s t hs hst,
      fun hall => hstop hall visited a hpre s t hs hst⟩
  refine Machine.Always.of_eachStep Inv.init ?_ hboth
  exact fun _ _ _ hr hinv hunheld hs =>
    step_inv (reachable_allOrderly hr) hinv hunheld.1 hunheld.2 hs

/-- As long as no stale grant is handed back from under a newer one, what the replicas that run
remember is in the table and no two of them start probes of one shard; and so is what the others
remember, as long as no `stop` releases leases that have not expired. -/
theorem leases_backed {acts : List Action} (h : machine.EachStep acts HandBacksUnheld) :
    machine.Always acts (fun w =>
      (∀ ownerId, (w.replicas ownerId).running = true → Backed w ownerId) ∧ Exclusive w) ∧
    (machine.EachStep acts StopsUnheld → machine.Always acts fun w => ∀ ownerId, Backed w ownerId) := by
  constructor
  · intro visited hvisited w hw
    have hinv : Inv False w := inv_always h False.elim visited hvisited w hw
    have hbacked := fun ownerId hrunning => hinv.backed (.inr hrunning : Counts False (w.replicas ownerId))
    exact ⟨hbacked, exclusive_of_backed hbacked⟩
  · intro hstop visited hvisited w hw ownerId
    have hinv : Inv True w := inv_always h (fun _ => hstop) visited hvisited w hw
    exact hinv.backed (.inl trivial)

/-! ### Releases that find leases held -/

/-- The grant of all shards at the instant 0. -/
def allGranted : List Lease := allShards.map fun shard => ⟨shard, leaseTtlMs⟩

def claimed (ownerId : String) : List Action :=
  [.start ownerId, .discovered ownerId true, .execute ownerId (.claim 0 true),
    .deliver ⟨ownerId, .claim 0 true, allGranted⟩]

/-- A renewal is overtaken by the stop of its replica, and the leases run out before the two
releases get to the table. -/
def stoppedLate : List Action :=
  claimed "w1" ++ [.renew "w1", .execute "w1" (.claim 0 false), .stop "w1",
    .deliver ⟨"w1", .claim 0 false, allGranted⟩, .advance 6000,
    .execute "w1" (.handBack allShards false), .deliver ⟨"w1", .handBack allShards false, []⟩,
    .stopRelease "w1", .execute "w1" (.stopRelease allShards)]

/-- A renewal is overtaken by an idle release and by the claim of the next reload, and its stale grant
is handed back from under that. -/
def handedBack : List Action :=
  claimed "w1" ++ [.renew "w1", .reload "w1", .discovered "w1" false,
    .execute "w1" (.idleRelease allShards), .deliver ⟨"w1", .idleRelease allShards, []⟩,
    .execute "w1" (.claim 0 false), .reload "w1", .discovered "w1" true,
    .execute "w1" (.claim 1 true), .deliver ⟨"w1", .claim 1 true, allGranted⟩,
    .deliver ⟨"w1", .claim 0 false, allGranted⟩, .execute "w1" (.handBack allShards false)]

def stopped : List Action :=
  claimed "w1" ++ [.stop "w1", .stopRelease "w1", .execute "w1" (.stopRelease allShards)]

/-- The replica has no unexpired lease and no answer is on its way. -/
def nothingHeld (w : World) (ownerId : String) : Bool :=
  holdsShards (w.replicas ownerId).leases w.clock = [] && w.answers = []

theorem unheld_of_nothingHeld {shards : List ℕ} (h : nothingHeld w ownerId = true) :
    Unheld w ownerId shards := by
  obtain ⟨hleases, hanswers⟩ :
      holdsShards (w.replicas ownerId).leases w.clock = [] ∧ w.answers = [] := by
    simpa [nothingHeld] using h
  intro shard _
  rw [hleases, hanswers]
  exact ⟨List.not_mem_nil, nofun⟩

/-- A test of the two conditions that can be run. -/
def findsNothingHeld (w : World) : Action → Bool
  | .execute ownerId (.handBack _ _) => nothingHeld w ownerId
  | .execute ownerId (.stopRelease _) => nothingHeld w ownerId
  | _ => true

theorem handBacksUnheld_of_findsNothingHeld (w : World) (a : Action)
    (h : findsNothingHeld w a = true) : HandBacksUnheld w a := by
  unfold HandBacksUnheld
  split
  · exact unheld_of_nothingHeld h
  · trivial

theorem stopsUnheld_of_findsNothingHeld (w : World) (a : Action)
    (h : findsNothingHeld w a = true) : StopsUnheld w a := by
  unfold StopsUnheld
  split
  · exact unheld_of_nothingHeld h
  · trivial

theorem backed_when_stopped_late :
    machine.Always stoppedLate (fun w =>
      (∀ ownerId, (w.replicas ownerId).running = true → Backed w ownerId) ∧ Exclusive w) ∧
    machine.Always stoppedLate fun w => ∀ ownerId, Backed w ownerId := by
  have hchecks : Machine.checks machine.step findsNothingHeld machine.init stoppedLate = true := by
    decide +kernel
  have hbacked := leases_backed (.of_checks handBacksUnheld_of_findsNothingHeld hchecks)
  exact ⟨hbacked.1, hbacked.2 (.of_checks stopsUnheld_of_findsNothingHeld hchecks)⟩

/-- A replica that runs and remembers all shards starts a probe of the shard of a due monitor. -/
theorem startsProbe_of_holds {r : Replica} {now : ℤ} (hrunning : r.running = true)
    (hheld : holdsShards r.leases now = allShards) : StartsProbe r now (shardOf port5432.id) := by
  refine ⟨hrunning, rebuild noUrls (start 0) [port5432] allShards 0, false, 400, ?_⟩
  rw [hheld]
  have hprobes : (tick (rebuild noUrls (start 0) [port5432] allShards 0) allShards false
      400).inFlight.map (·.monitorId) = [port5432.id] := by
    decide +kernel
  obtain ⟨probe, hprobe, hid⟩ := List.mem_map.mp (hprobes ▸ List.mem_singleton_self port5432.id)
  exact ⟨probe, hprobe, List.not_mem_nil, congrArg shardOf hid⟩

/-- The stale grant is handed back: the replica remembers all shards, the table none, and a second
replica that claims them probes beside the first.  And a replica that stops remembers its shards
when their rows are gone. -/
theorem releases_find_leases_held :
    (∃ w, machine.exec handedBack = some w ∧ (w.replicas "w1").running = true ∧ ¬Backed w "w1") ∧
    (∃ w, machine.exec (handedBack ++ claimed "w2") = some w ∧ ¬Exclusive w) ∧
    ∃ w, machine.exec stopped = some w ∧ ¬Backed w "w1" := by
  refine ⟨?_, ?_, ?_⟩
  · have hrun : (machine.exec handedBack).map (fun w => ((w.replicas "w1").running,
        (holdsShards (w.replicas "w1").leases w.clock).contains 0, (w.table 0).isNone)) =
        some (true, true, true) := by
      decide +kernel
    obtain ⟨w, hw, hvalues⟩ := Option.map_eq_some_iff.mp hrun
    simp only [Prod.mk.injEq, List.contains_iff_mem, Option.isNone_iff_eq_none] at hvalues
    obtain ⟨hrunning, hheld, hnone⟩ := hvalues
    refine ⟨w, hw, hrunning, fun h => ?_⟩
    obtain ⟨row, hrow, -⟩ := h 0 hheld
    exact absurd (hnone.symm.trans hrow) (by simp)
  · have hrun : (machine.exec (handedBack ++ claimed "w2")).map (fun w =>
        ((w.replicas "w1").running, holdsShards (w.replicas "w1").leases w.clock,
          (w.replicas "w2").running, holdsShards (w.replicas "w2").leases w.clock)) =
        some (true, allShards, true, allShards) := by
      decide +kernel
    obtain ⟨w, hw, hvalues⟩ := Option.map_eq_some_iff.mp hrun
    simp only [Prod.mk.injEq] at hvalues
    obtain ⟨hrunning, hheld, hrunning', hheld'⟩ := hvalues
    refine ⟨w, hw, fun h => ?_⟩
    have hsame := h _ "w1" "w2" (startsProbe_of_holds hrunning hheld)
      (startsProbe_of_holds hrunning' hheld')
    exact absurd hsame (by decide)
  · have hrun : (machine.exec stopped).map (fun w =>
        ((holdsShards (w.replicas "w1").leases w.clock).contains 0, (w.table 0).isNone)) =
        some (true, true) := by
      decide +kernel
    obtain ⟨w, hw, hvalues⟩ := Option.map_eq_some_iff.mp hrun
    simp only [Prod.mk.injEq, List.contains_iff_mem, Option.isNone_iff_eq_none] at hvalues
    obtain ⟨hheld, hnone⟩ := hvalues
    refine ⟨w, hw, fun h => ?_⟩
    obtain ⟨row, hrow, -⟩ := h 0 hheld
    exact absurd (hnone.symm.trans hrow) (by simp)

end Vigil.HighFreq.LeaseSafety
