import Vigil.HighFreq.LeaseMemory

/-! The calls that a replica has out, sent or answered, against the state that it waits in.  A reload
waits for one call at a time, so that nothing claims while an idle release is on its way. -/

namespace Vigil.HighFreq.Outstanding

open Lib Leases LeaseMemory

/-- Whether a reload waits for the call. -/
def ofReload : Call → Bool
  | .claim _ reloading => reloading
  | .handBack _ reloading => reloading
  | .idleRelease _ => true
  | .stopRelease _ => false

structure Orderly (r : Replica) (calls : List Call) : Prop where
  epochs : ∀ epoch reloading, .claim epoch reloading ∈ calls → epoch ≤ r.leaseEpoch
  one : calls.countP ofReload ≤ if r.reload = .leasing then 1 else 0
  idle : ∀ shards, .idleRelease shards ∈ calls → r.wantsLeases = false ∧ r.leases = [] ∧
    ∀ epoch reloading, .claim epoch reloading ∈ calls → epoch < r.leaseEpoch
  fresh : r.started = false →
    r.running = false ∧ r.leases = [] ∧ r.reload = .none ∧ r.stops = 0 ∧ calls = []
  stopped : r.stops ≠ 0 ∨ (∃ shards, .stopRelease shards ∈ calls) → r.running = false

variable {r : Replica} {calls : List Call}

theorem Orderly.perm {calls' : List Call} (h : Orderly r calls) (hperm : calls.Perm calls') :
    Orderly r calls' where
  epochs epoch reloading hmem := h.epochs epoch reloading (hperm.mem_iff.mpr hmem)
  one := hperm.countP_eq _ ▸ h.one
  idle shards hmem := by
    obtain ⟨hwants, hleases, hclaims⟩ := h.idle shards (hperm.mem_iff.mpr hmem)
    exact ⟨hwants, hleases, fun epoch reloading hclaim =>
      hclaims epoch reloading (hperm.mem_iff.mpr hclaim)⟩
  fresh hfresh := by
    obtain ⟨hrunning, hleases, hreload, hstops, rfl⟩ := h.fresh hfresh
    exact ⟨hrunning, hleases, hreload, hstops, hperm.nil_eq.symm⟩
  stopped hstopped := h.stopped <| hstopped.imp_right fun ⟨shards, hmem⟩ =>
    ⟨shards, hperm.mem_iff.mpr hmem⟩

theorem Orderly.silent (h : Orderly r calls) : Orderly r (calls ++ (none : Option Call).toList) := by
  rwa [Option.toList_none, List.append_nil]

variable {call : Call} {ownerId : String}

theorem Orderly.not_ofReload (h : Orderly r calls) (hphase : r.reload ≠ .leasing)
    (hcall : call ∈ calls) : ofReload call = false := by
  have hone := h.one
  rw [if_neg hphase] at hone
  simpa using List.countP_eq_zero.mp (Nat.le_zero.mp hone) call hcall

theorem Orderly.not_idle (h : Orderly r calls) (hphase : r.reload ≠ .leasing) {shards : List ℕ} :
    .idleRelease shards ∉ calls := by
  intro hcall
  have hnot := h.not_ofReload hphase hcall
  cases hnot

/-! ### What a replica does of its own -/

theorem Orderly.trackedReload (h : Orderly r calls) : Orderly r.trackedReload calls := by
  unfold Replica.trackedReload
  split
  · rename_i hphase
    obtain ⟨hnone, hrunning⟩ : r.reload = .none ∧ r.running = true := by simpa using hphase
    exact { h with
      one := by
        have hone := h.one
        rw [hnone, if_neg (by simp)] at hone
        rw [if_neg (by simp)]
        exact hone
      fresh := fun hfresh => absurd (hrunning.symm.trans (h.fresh hfresh).1) (by simp) }
  · exact h

theorem Orderly.start (h : Orderly r calls) (hfresh : r.started = false) :
    Orderly r.start calls := by
  obtain ⟨-, hleases, hreload, hstops, rfl⟩ := h.fresh hfresh
  refine Orderly.trackedReload ?_
  exact {
    epochs := by simp
    one := by simp
    idle := by simp
    fresh := by simp
    stopped := by
      rintro (hne | ⟨shards, hmem⟩)
      · exact absurd hstops hne
      · exact absurd hmem List.not_mem_nil }

theorem Orderly.stop (h : Orderly r calls) (hstarted : r.started = true) : Orderly r.stop calls where
  epochs epoch reloading hmem := (h.epochs epoch reloading hmem).trans (Nat.le_succ _)
  one := h.one
  idle shards hmem := by
    obtain ⟨hwants, hleases, hclaims⟩ := h.idle shards hmem
    exact ⟨hwants, hleases, fun epoch reloading hclaim =>
      (hclaims epoch reloading hclaim).trans (Nat.lt_succ_self _)⟩
  fresh hfresh := absurd (hstarted.symm.trans hfresh) (by simp)
  stopped _ := rfl

/-- What the steps of a reload leave alone. -/
structure Same (r r' : Replica) : Prop where
  started : r'.started = r.started
  running : r'.running = r.running
  stops : r'.stops = r.stops
  epoch : r.leaseEpoch ≤ r'.leaseEpoch

theorem Orderly.ended {r' : Replica} (h : Orderly r calls) (hphase : r.reload = .discovering)
    (hsame : Same r r') (hended : r'.reload = .none) : Orderly r' calls where
  epochs epoch reloading hmem := (h.epochs epoch reloading hmem).trans hsame.epoch
  one := by
    have hone := h.one
    rw [hphase, if_neg (by simp)] at hone
    rw [hended, if_neg (by simp)]
    exact hone
  idle shards hmem := absurd hmem (h.not_idle (by simp [hphase]))
  fresh hfresh := by
    have hnone := (h.fresh (hsame.started.symm.trans hfresh)).2.2.1
    exact absurd (hphase.symm.trans hnone) (by simp)
  stopped hstopped := by
    rw [hsame.running]
    rw [hsame.stops] at hstopped
    exact h.stopped hstopped

theorem Orderly.called {r' : Replica} (h : Orderly r calls) (hphase : r.reload = .discovering)
    (hsame : Same r r') (hleasing : r'.reload = .leasing)
    (hclaim : ∀ epoch reloading, call = .claim epoch reloading → epoch ≤ r'.leaseEpoch)
    (hidle : ∀ shards, call = .idleRelease shards → r'.wantsLeases = false ∧ r'.leases = [] ∧
      r.leaseEpoch < r'.leaseEpoch) (hstop : ∀ shards, call ≠ .stopRelease shards) :
    Orderly r' (calls ++ [call]) where
  epochs epoch reloading hmem := by
    rcases List.mem_append.mp hmem with hmem | hmem
    · exact (h.epochs epoch reloading hmem).trans hsame.epoch
    · exact hclaim epoch reloading (List.mem_singleton.mp hmem).symm
  one := by
    have hone := h.one
    rw [hphase, if_neg (by simp)] at hone
    rw [hleasing, if_pos rfl, List.countP_append]
    have hlast : [call].countP ofReload ≤ [call].length := List.countP_le_length
    simp only [List.length_singleton] at hlast
    omega
  idle shards hmem := by
    rcases List.mem_append.mp hmem with hmem | hmem
    · exact absurd hmem (h.not_idle (by simp [hphase]))
    · obtain rfl := List.mem_singleton.mp hmem
      obtain ⟨hwants, hleases, hepoch⟩ := hidle shards rfl
      refine ⟨hwants, hleases, fun epoch reloading hmem => ?_⟩
      rcases List.mem_append.mp hmem with hmem | hmem
      · exact (h.epochs epoch reloading hmem).trans_lt hepoch
      · exact absurd (List.mem_singleton.mp hmem) (by simp)
  fresh hfresh := by
    have hnone := (h.fresh (hsame.started.symm.trans hfresh)).2.2.1
    exact absurd (hphase.symm.trans hnone) (by simp)
  stopped hstopped := by
    rw [hsame.running]
    rw [hsame.stops] at hstopped
    refine h.stopped (hstopped.imp_right fun ⟨shards, hmem⟩ => ?_)
    rcases List.mem_append.mp hmem with hmem | hmem
    · exact ⟨shards, hmem⟩
    · exact absurd (List.mem_singleton.mp hmem).symm (hstop shards)

theorem Orderly.discovered (h : Orderly r calls) (hphase : r.reload = .discovering) {rows : Bool}
    {now : ℤ} : Orderly (r.discovered rows now).1 (calls ++ (r.discovered rows now).2.toList) := by
  unfold Replica.discovered
  dsimp only
  split
  · exact .silent (h.ended hphase ⟨rfl, rfl, rfl, le_rfl⟩ rfl)
  · rename_i hrunning
    split
    · split
      · rw [Replica.claimNow, if_neg hrunning, Option.toList_some]
        refine h.called hphase ⟨rfl, rfl, rfl, le_rfl⟩ rfl ?_ (by simp) (by simp)
        rintro epoch reloading hcall
        cases hcall
        exact le_rfl
      · exact .silent (h.ended hphase ⟨rfl, rfl, rfl, le_rfl⟩ rfl)
    · split
      · split
        · exact .silent (h.ended hphase ⟨rfl, rfl, rfl, Nat.le_succ _⟩ rfl)
        · rw [Option.toList_some]
          refine h.called hphase ⟨rfl, rfl, rfl, Nat.le_succ _⟩ rfl (by simp) ?_ (by simp)
          exact fun _ _ => ⟨rfl, rfl, Nat.lt_succ_self _⟩
      · exact .silent (h.ended hphase ⟨rfl, rfl, rfl, le_rfl⟩ rfl)

theorem Orderly.renewLeases (h : Orderly r calls) :
    Orderly r.renewLeases.1 (calls ++ r.renewLeases.2.toList) := by
  unfold Replica.renewLeases
  split
  · exact h.silent
  · rename_i hwants
    unfold Replica.claimNow
    split
    · exact h.silent
    · rename_i hrunning
      have hrunning : r.running = true := by simpa using hrunning
      rw [Option.toList_some]
      exact {
        epochs := by
          intro epoch reloading hmem
          rcases List.mem_append.mp hmem with hmem | hmem
          · exact h.epochs epoch reloading hmem
          · cases List.mem_singleton.mp hmem
            exact le_rfl
        one := by
          rw [List.countP_append]
          exact h.one
        idle := by
          intro shards hmem
          have hmem : .idleRelease shards ∈ calls := by simpa using hmem
          exact absurd (h.idle shards hmem).1 (by simpa using hwants)
        fresh := fun hfresh => absurd (hrunning.symm.trans (h.fresh hfresh).1) (by simp)
        stopped := fun hstopped => h.stopped (by simpa using hstopped) }

theorem Orderly.stopRelease (h : Orderly r calls) (hstops : r.stops ≠ 0)
    (hphase : r.reload ≠ .leasing) :
    Orderly r.stopRelease.1 (calls ++ r.stopRelease.2.toList) := by
  have hrunning := h.stopped (.inl hstops)
  have hfresh : ¬r.started = false := fun hfresh => hstops (h.fresh hfresh).2.2.2.1
  unfold Replica.stopRelease
  dsimp only
  split
  · rw [Option.toList_none, List.append_nil]
    exact ⟨h.epochs, h.one, fun _ hmem => absurd hmem (h.not_idle hphase),
      fun hnew => absurd hnew hfresh, fun _ => hrunning⟩
  · rw [Option.toList_some]
    refine ⟨?_, ?_, ?_, fun hnew => absurd hnew hfresh, fun _ => hrunning⟩
    · intro epoch reloading hmem
      exact h.epochs epoch reloading (by simpa using hmem)
    · rw [List.countP_append]
      exact h.one
    · intro shards hmem
      have hmem : .idleRelease shards ∈ calls := by simpa using hmem
      exact absurd hmem (h.not_idle hphase)

/-! ### What a replica does on an answer -/

theorem Orderly.started (h : Orderly r (call :: calls)) : r.started ≠ false :=
  fun hfresh => absurd (h.fresh hfresh).2.2.2.2 (List.cons_ne_nil _ _)

theorem Orderly.rest (h : Orderly r (call :: calls)) :
    Orderly (r.endReload (ofReload call)) calls := by
  have hone := h.one
  rw [List.countP_cons] at hone
  cases hcall : ofReload call with
  | false =>
    rw [hcall, if_neg (by simp)] at hone
    exact {
      epochs := fun epoch reloading hmem => h.epochs epoch reloading (List.mem_cons_of_mem _ hmem)
      one := hone
      idle := by
        intro shards hmem
        obtain ⟨hwants, hleases, hclaims⟩ := h.idle shards (List.mem_cons_of_mem _ hmem)
        exact ⟨hwants, hleases, fun epoch reloading hclaim =>
          hclaims epoch reloading (List.mem_cons_of_mem _ hclaim)⟩
      fresh := fun hfresh => absurd hfresh h.started
      stopped := fun hstopped => h.stopped <| hstopped.imp_right fun ⟨shards, hmem⟩ =>
        ⟨shards, List.mem_cons_of_mem _ hmem⟩ }
  | true =>
    rw [hcall, if_pos rfl] at hone
    have hnone : calls.countP ofReload = 0 := by
      split at hone
      · omega
      · omega
    exact {
      epochs := fun epoch reloading hmem => h.epochs epoch reloading (List.mem_cons_of_mem _ hmem)
      one := by simp [hnone]
      idle := by
        intro shards hmem
        exact absurd rfl (List.countP_eq_zero.mp hnone _ hmem)
      fresh := fun hfresh => absurd hfresh h.started
      stopped := fun hstopped => h.stopped <| hstopped.imp_right fun ⟨shards, hmem⟩ =>
        ⟨shards, List.mem_cons_of_mem _ hmem⟩ }

theorem Orderly.handBack {epoch : ℕ} {reloading : Bool} {shards : List ℕ}
    (h : Orderly r (.claim epoch reloading :: calls)) :
    Orderly r (calls ++ [.handBack shards reloading]) where
  epochs epoch reloading hmem :=
    h.epochs epoch reloading (List.mem_cons_of_mem _ (by simpa using hmem))
  one := by
    have hone := h.one
    rw [List.countP_cons] at hone
    rw [List.countP_append, List.countP_singleton]
    exact hone
  idle shards hmem := by
    have hmem : .idleRelease shards ∈ calls := by simpa using hmem
    obtain ⟨hwants, hleases, hclaims⟩ := h.idle shards (List.mem_cons_of_mem _ hmem)
    exact ⟨hwants, hleases, fun epoch reloading hclaim =>
      hclaims epoch reloading (List.mem_cons_of_mem _ (by simpa using hclaim))⟩
  fresh hfresh := absurd hfresh h.started
  stopped hstopped := h.stopped <| hstopped.imp_right fun ⟨shards, hmem⟩ =>
    ⟨shards, List.mem_cons_of_mem _ (by simpa using hmem)⟩

theorem Orderly.answered {granted : Option (List Lease)} (h : Orderly r (call :: calls)) :
    Orderly (r.answered call granted).1 (calls ++ (r.answered call granted).2.toList) := by
  have hrest := h.rest
  cases call with
  | claim epoch reloading =>
    cases granted with
    | none =>
      rw [Replica.answered]
      exact hrest.silent
    | some granted =>
      rw [Replica.answered]
      dsimp only
      split
      · split
        · exact hrest.silent
        · rw [Option.toList_some]
          exact h.handBack
      · rename_i hepoch
        obtain rfl : epoch = r.leaseEpoch := not_not.mp hepoch
        rw [Option.toList_none, List.append_nil]
        -- a grant that is not stale comes when no idle release is out
        have hidle : ∀ shards, .idleRelease shards ∉ calls := fun shards hmem =>
          lt_irrefl _ ((h.idle shards (List.mem_cons_of_mem _ hmem)).2.2 _ _ List.mem_cons_self)
        cases reloading with
        | false | true =>
          exact ⟨hrest.epochs, hrest.one, fun shards hmem => absurd hmem (hidle shards),
            fun hfresh => absurd hfresh h.started, hrest.stopped⟩
  | handBack shards reloading =>
    rw [Replica.answered]
    exact hrest.silent
  | idleRelease shards =>
    rw [Replica.answered]
    exact hrest.silent
  | stopRelease shards =>
    rw [Replica.answered, Option.toList_none, List.append_nil]
    exact ⟨hrest.epochs, hrest.one, fun shards hmem =>
      ⟨(hrest.idle shards hmem).1, rfl, (hrest.idle shards hmem).2.2⟩,
      fun hfresh => absurd hfresh h.started, hrest.stopped⟩

/-! ### Runs -/

/-- The calls that are out, sent or answered. -/
def outstanding (w : World) : List (String × Call) :=
  w.sent ++ w.answers.map fun answer => (answer.ownerId, answer.call)

def callsOf (w : World) (ownerId : String) : List Call :=
  ((outstanding w).filter (·.1 = ownerId)).map (·.2)

theorem mem_callsOf_of_sent {w : World} (h : (ownerId, call) ∈ w.sent) : call ∈ callsOf w ownerId :=
  List.mem_map.mpr ⟨(ownerId, call), List.mem_filter.mpr
    ⟨List.mem_append_left _ h, decide_eq_true rfl⟩, rfl⟩

theorem mem_callsOf_of_answer {w : World} {answer : Answer} (h : answer ∈ w.answers) :
    answer.call ∈ callsOf w answer.ownerId :=
  List.mem_map.mpr ⟨(answer.ownerId, answer.call), List.mem_filter.mpr
    ⟨List.mem_append_right _ (List.mem_map_of_mem h), decide_eq_true rfl⟩, rfl⟩

def AllOrderly (w : World) : Prop := ∀ ownerId, Orderly (w.replicas ownerId) (callsOf w ownerId)

variable {w v : World}

theorem allOrderly_init : AllOrderly World.init := fun _ => {
  epochs := nofun
  one := Nat.zero_le _
  idle := nofun
  fresh := fun _ => ⟨rfl, rfl, rfl, rfl, rfl⟩
  stopped := fun _ => rfl }

theorem callsOf_perm (h : (outstanding w).Perm (outstanding v)) (ownerId : String) :
    (callsOf w ownerId).Perm (callsOf v ownerId) := (h.filter _).map _

theorem callsOf_perm_cons (h : (outstanding w).Perm ((ownerId, call) :: outstanding v)) :
    (callsOf w ownerId).Perm (call :: callsOf v ownerId) := by
  simpa [callsOf] using (h.filter (·.1 = ownerId)).map (·.2)

theorem callsOf_perm_of_ne {ownerId other : String}
    (h : (outstanding w).Perm ((ownerId, call) :: outstanding v)) (hne : other ≠ ownerId) :
    (callsOf w other).Perm (callsOf v other) := by
  simpa [callsOf, hne.symm] using (h.filter (·.1 = other)).map (·.2)

theorem outstanding_setReplica {ownerId : String} {moved : Replica × Option Call} :
    (outstanding (w.setReplica ownerId moved)).Perm
      ((moved.2.map fun call => (ownerId, call)).toList ++ outstanding w) := by
  rw [outstanding, outstanding, World.setReplica]
  dsimp only
  rw [← List.append_assoc]
  exact List.perm_append_comm.append_right _

theorem outstanding_erase_sent (h : (ownerId, call) ∈ w.sent) : (outstanding w).Perm
      ((ownerId, call) :: outstanding { w with sent := w.sent.erase (ownerId, call) }) :=
  (List.perm_cons_erase h).append_right _

theorem outstanding_erase_answers {answer : Answer} (h : answer ∈ w.answers) :
    (outstanding w).Perm ((answer.ownerId, answer.call) ::
      outstanding { w with answers := w.answers.erase answer }) := by
  have hanswers := (List.perm_cons_erase h).map fun answer => (answer.ownerId, answer.call)
  exact (hanswers.append_left _).trans List.perm_middle

theorem AllOrderly.setReplica (h : AllOrderly w) {moved : Replica × Option Call}
    (hreplicas : v.replicas = w.replicas)
    (hother : ∀ other, other ≠ ownerId → (callsOf w other).Perm (callsOf v other))
    (hown : Orderly moved.1 (callsOf v ownerId ++ moved.2.toList)) :
    AllOrderly (v.setReplica ownerId moved) := by
  intro other
  obtain ⟨r, sends⟩ := moved
  have hcalls := @outstanding_setReplica v ownerId (r, sends)
  by_cases hself : other = ownerId
  · subst hself
    rw [setReplica_self]
    cases sends with
    | none =>
      rw [Option.toList_none, List.append_nil] at hown
      exact hown.perm (callsOf_perm hcalls.symm other)
    | some call =>
      rw [Option.toList_some] at hown
      refine hown.perm ((List.perm_append_singleton _ _).trans ?_)
      exact (callsOf_perm_cons hcalls).symm
  · rw [setReplica_of_ne hself, hreplicas]
    refine (h other).perm ((hother other hself).trans ?_)
    cases sends with
    | none => exact callsOf_perm hcalls.symm other
    | some call => exact (callsOf_perm_of_ne hcalls hself).symm

theorem AllOrderly.moves (h : AllOrderly w) {moved : Replica × Option Call}
    (hown : Orderly moved.1 (callsOf w ownerId ++ moved.2.toList)) :
    AllOrderly (w.setReplica ownerId moved) :=
  h.setReplica rfl (fun _ _ => List.Perm.refl _) hown

theorem AllOrderly.moves_silently (h : AllOrderly w) {r : Replica}
    (hown : Orderly r (callsOf w ownerId)) : AllOrderly (w.setReplica ownerId (r, none)) := by
  refine h.moves ?_
  exact hown.silent

theorem AllOrderly.answered (h : AllOrderly w) {granted : Option (List Lease)}
    (hreplicas : v.replicas = w.replicas)
    (hcalls : (outstanding w).Perm ((ownerId, call) :: outstanding v)) :
    AllOrderly (v.setReplica ownerId ((w.replicas ownerId).answered call granted)) := by
  refine h.setReplica hreplicas (fun other => callsOf_perm_of_ne hcalls) ?_
  exact ((h ownerId).perm (callsOf_perm_cons hcalls)).answered

theorem step_allOrderly {a : Action} (h : AllOrderly w) (hs : step w a = some v) :
    AllOrderly v := by
  cases a with
  | advance now =>
    obtain ⟨-, hs⟩ := Option.ite_none_right_eq_some.mp hs
    cases hs
    exact h
  | start ownerId =>
    obtain ⟨hfresh, hs⟩ := Option.ite_none_left_eq_some.mp hs
    cases hs
    exact h.moves_silently ((h ownerId).start (Bool.eq_false_iff.mpr hfresh))
  | reload ownerId =>
    cases hs
    exact h.moves_silently (h ownerId).trackedReload
  | discovered ownerId rows =>
    obtain ⟨hphase, hs⟩ := Option.ite_none_right_eq_some.mp hs
    cases hs
    exact h.moves ((h ownerId).discovered hphase)
  | discoveryFailed ownerId =>
    obtain ⟨hphase, hs⟩ := Option.ite_none_right_eq_some.mp hs
    cases hs
    exact h.moves_silently ((h ownerId).ended hphase ⟨rfl, rfl, rfl, le_rfl⟩ rfl)
  | renew ownerId =>
    cases hs
    exact h.moves (h ownerId).renewLeases
  | stop ownerId =>
    obtain ⟨hstarted, hs⟩ := Option.ite_none_right_eq_some.mp hs
    cases hs
    exact h.moves_silently ((h ownerId).stop hstarted)
  | stopRelease ownerId =>
    obtain ⟨hstops, hs⟩ := Option.ite_none_right_eq_some.mp hs
    cases hs
    obtain ⟨hstops, hphase⟩ : (w.replicas ownerId).stops ≠ 0 ∧ (w.replicas ownerId).reload = .none := by
      simpa using hstops
    exact h.moves ((h ownerId).stopRelease hstops (by simp [hphase]))
  | execute ownerId call =>
    obtain ⟨hsent, hs⟩ := Option.ite_none_right_eq_some.mp hs
    cases hs
    intro other
    refine (h other).perm (callsOf_perm ((outstanding_erase_sent hsent).trans ?_) other)
    exact List.perm_middle.symm
  | deliver answer | lose answer =>
    obtain ⟨hanswer, hs⟩ := Option.ite_none_right_eq_some.mp hs
    cases hs
    exact h.answered rfl (outstanding_erase_answers hanswer)
  | fail ownerId call =>
    obtain ⟨hsent, hs⟩ := Option.ite_none_right_eq_some.mp hs
    cases hs
    exact h.answered rfl (outstanding_erase_sent hsent)

theorem reachable_allOrderly (h : machine.Reachable w) : AllOrderly w := by
  refine h.induct allOrderly_init ?_
  exact fun _ _ _ _ horderly hs => step_allOrderly horderly hs

end Vigil.HighFreq.Outstanding
