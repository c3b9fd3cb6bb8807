import Vigil.Notifications.Fencing
import Mathlib.Data.List.Nodup
import Mathlib.Data.List.Perm.Subperm

/-! `replayDeliveries` of `notifications/channel-service.ts`, by any number of calls that interleave
with the outbox.  A call is one transaction in which each statement sees what is committed when it
runs: the count, the read of the originals and the insert are three steps, and its `now()` is one
instant, the one at which it began.  Two random keys that clash make an insert fail, and such a call
ends as an `abort`. -/

namespace Vigil.Notifications.Replay

open Js.Text Lib Outbox Fencing

/-- What is sent, and where to. -/
structure Content where
  channel : JsString
  channelId : Option ℕ
  provider : Option JsString
  event : Option JsString
  destination : JsString
  payload : JsString
  deriving DecidableEq

/-- The columns that no delivery writes. -/
structure Identity where
  organizationId : ℕ
  idempotencyKey : JsString
  content : Content
  replayOf : Option ℕ
  createdAt : ℤ

/-- A row as `select()` returns it. -/
structure Original where
  id : ℕ
  identity : Identity
  row : OutboxRow

/-- How a replay ended. -/
inductive Outcome where
  | replayed (replayed skipped : ℤ)
  | refused (message : JsString)
  | aborted
  deriving DecidableEq

/-- Where a call stands; `ids` are the deliveries that it was asked for. -/
inductive Call where
  | idle
  | counted (organizationId : ℕ) (ids : List ℕ) (now : ℤ) (recent : ℕ)
  | read (organizationId : ℕ) (ids : List ℕ) (now : ℤ) (recent : ℕ) (originals : List Original)
  | finished (ids : List ℕ) (outcome : Outcome)

structure World where
  db : Db
  identities : List (ℕ × Identity)
  calls : ℕ → Call

def maxReplay : ℕ := 100

def replayPerHour : ℕ := 500

def hourMs : ℤ := 3600000

def World.setCall (s : World) (n : ℕ) (call : Call) : World :=
  { s with calls := Function.update s.calls n call }

/-- The replays of the organization since an hour before `now`. -/
def recentReplays (s : World) (organizationId : ℕ) (now : ℤ) : ℕ :=
  s.identities.countP fun (_, identity) =>
    identity.organizationId = organizationId && identity.replayOf.isSome &&
      now - hourMs ≤ identity.createdAt

/-- What a call does up to its count. -/
def count (s : World) (organizationId : ℕ) (ids : List ℕ) (now : ℤ) : Call :=
  if ids = [] then .finished ids (.replayed 0 0)
  else if maxReplay < ids.length then
    .finished ids (.refused (js "Replay at most 100 deliveries at a time."))
  else
    let recent := recentReplays s organizationId now
    if replayPerHour < recent + ids.length then
      .finished ids (.refused (js "Replay is limited to 500 deliveries an hour in this workspace. " ++
        js "Wait before replaying more."))
    else .counted organizationId ids now recent

/-- The finished deliveries among those that were asked for. -/
def originalsOf (s : World) (organizationId : ℕ) (ids : List ℕ) : List Original :=
  s.identities.filterMap fun (id, identity) =>
    if identity.organizationId = organizationId ∧ id ∈ ids then
      ((s.db.rows id).filter (·.state.terminal)).map fun row => { id, identity, row }
    else none

def afterRead (organizationId : ℕ) (ids : List ℕ) (now : ℤ) (recent : ℕ) :
    List Original → Call
  | [] => .finished ids (.refused (js "Nothing to replay: those deliveries are still in progress, " ++
      js "or are not in this workspace."))
  | originals => .read organizationId ids now recent originals

/-- The copy of an original, where `random` is the text of the random bytes in its key. -/
def copyOf (now : ℤ) (random : JsString) (original : Original) : Identity :=
  { original.identity with
    idempotencyKey :=
      (js "replay:" ++ (random ++ (js ":" ++ original.identity.idempotencyKey))).take 400
    replayOf := some original.id
    createdAt := now }

def copiesOf (now : ℤ) (randoms : List JsString) (originals : List Original) : List Identity :=
  randoms.zipWith (copyOf now) originals

inductive Action where
  /-- An operation on the outbox other than an insert. -/
  | deliver (action : Outbox.Action)
  /-- Any other insert. -/
  | enqueue (id : ℕ) (now : ℤ) (organizationId : ℕ) (idempotencyKey : JsString) (content : Content)
  | count (n organizationId : ℕ) (ids : List ℕ) (now : ℤ)
  | readOriginals (n : ℕ)
  | insert (n : ℕ) (newIds : List ℕ) (randoms : List JsString)
  | abort (n : ℕ)

/-- The action inserts a row. -/
def isEnqueue : Outbox.Action → Bool
  | .enqueue _ _ => true
  | _ => false

/-- One step of the outbox or of a replay. -/
def step (policy : RetryPolicy) (s : World) : Action → Option World
  | .deliver action =>
    if isEnqueue action then none
    else (Outbox.step policy s.db action).map fun db => { s with db }
  | .enqueue id now organizationId idempotencyKey content =>
    (Outbox.enqueue policy s.db id now).map fun db =>
      { s with
        db
        identities := s.identities ++
          [(id, { organizationId, idempotencyKey, content, replayOf := none, createdAt := now })] }
  | .count n organizationId ids now =>
    match s.calls n with
    | .idle => some (s.setCall n (count s organizationId ids now))
    | _ => none
  | .readOriginals n =>
    match s.calls n with
    | .counted organizationId ids now recent =>
      some (s.setCall n
        (afterRead organizationId ids now recent (originalsOf s organizationId ids)))
    | _ => none
  | .insert n newIds randoms =>
    match s.calls n with
    | .read _ ids now _ originals =>
      if newIds.length = originals.length ∧ randoms.length = originals.length then
        (newIds.foldlM (fun db id => Outbox.enqueue policy db id now) s.db).map fun db =>
          { s with
            db
            identities := s.identities ++ newIds.zip (copiesOf now randoms originals)
            calls := Function.update s.calls n (.finished ids
              (.replayed (copiesOf now randoms originals).length
                (ids.length - originals.length))) }
      else none
    | _ => none
  | .abort n =>
    match s.calls n with
    | .counted _ ids _ _ => some (s.setCall n (.finished ids .aborted))
    | .read _ ids _ _ _ => some (s.setCall n (.finished ids .aborted))
    | _ => none

def machine (policy : RetryPolicy) : Machine World Action where
  init := { db := (Outbox.machine policy).init, identities := [], calls := fun _ => .idle }
  step := step policy

/-! ### The rows of an insert -/

/-- Fresh rows, queued and never tried; nothing else is touched. -/
structure Inserted (db db' : Db) (ids : List ℕ) : Prop where
  nodup : ids.Nodup
  fresh : ∀ id ∈ ids, db.rows id = none
  queued : ∀ id ∈ ids, ∃ row, db'.rows id = some row ∧ row.state = .queued ∧ row.attempts = 0
  kept : ∀ id ∉ ids, db'.rows id = db.rows id
  attempts : db'.attempts = db.attempts

variable {db db' : Db} {ids newIds : List ℕ} {id : ℕ} {now : ℤ} {s t : World} {call : Call}
  {action : Action} {randoms : List JsString} {originals : List Original}

theorem Inserted.rows (h : Inserted db db' ids) {row : OutboxRow} (hrow : db.rows id = some row) :
    db'.rows id = some row := by
  have hid : id ∉ ids := by
    intro hmem
    rw [h.fresh id hmem] at hrow
    cases hrow
  rw [h.kept id hid, hrow]

variable {policy : RetryPolicy}

theorem inserted_enqueue (h : Outbox.enqueue policy db id now = some db') :
    Inserted db db' [id] := by
  unfold Outbox.enqueue at h
  cases hrow : db.rows id with
  | some row => simp [hrow] at h
  | none =>
    simp only [hrow] at h
    cases h
    refine ⟨List.nodup_singleton _, ?_, ?_, ?_, rfl⟩
    · intro other hother
      rwa [List.mem_singleton.mp hother]
    · intro other hother
      rw [List.mem_singleton.mp hother]
      exact ⟨_, setRow_rows_self _ _ _, rfl, rfl⟩
    · intro other hother
      exact setRow_rows_of_ne _ _ fun heq => hother (List.mem_singleton.mpr heq)

theorem inserted_all (h : ids.foldlM (fun db id => Outbox.enqueue policy db id now) db = some db') :
    Inserted db db' ids := by
  induction ids generalizing db with
  | nil =>
    obtain rfl : db = db' := by simpa using h
    exact ⟨List.nodup_nil, nofun,
      nofun, fun _ _ => rfl, rfl⟩
  | cons id ids ih =>
    rw [List.foldlM_cons] at h
    obtain ⟨next, hnext, hrest⟩ := Option.bind_eq_some_iff.mp h
    have hone := inserted_enqueue hnext
    have hmany := ih hrest
    have hid : id ∉ ids := by
      intro hmem
      obtain ⟨row, hrow, -⟩ := hone.queued id List.mem_cons_self
      rw [hmany.fresh id hmem] at hrow
      cases hrow
    have hother {other : ℕ} (hmem : other ∈ ids) : other ∉ [id] := by
      intro heq
      exact hid (List.mem_singleton.mp heq ▸ hmem)
    refine ⟨List.nodup_cons.mpr ⟨hid, hmany.nodup⟩, fun other hmem => ?_, fun other hmem => ?_,
      fun other hmem => ?_, hmany.attempts.trans hone.attempts⟩
    · rcases List.mem_cons.mp hmem with rfl | hmem
      · exact hone.fresh other List.mem_cons_self
      · rw [← hone.kept other (hother hmem)]
        exact hmany.fresh other hmem
    · rcases List.mem_cons.mp hmem with rfl | hmem
      · obtain ⟨row, hrow, hqueued⟩ := hone.queued other List.mem_cons_self
        exact ⟨row, hmany.rows hrow, hqueued⟩
      · exact hmany.queued other hmem
    · rw [List.mem_cons, not_or] at hmem
      rw [hmany.kept other hmem.2]
      exact hone.kept other fun heq => hmem.1 (List.mem_singleton.mp heq)

/-! ### What holds in every state -/

/-- What a call that has read its originals goes by. -/
structure Chosen (s : World) (organizationId : ℕ) (ids : List ℕ) (recent : ℕ)
    (originals : List Original) : Prop where
  original : ∀ original ∈ originals, (original.id, original.identity) ∈ s.identities ∧
    original.identity.organizationId = organizationId ∧ original.row.state.terminal = true
  length : originals.length ≤ ids.length
  fits : recent + ids.length ≤ replayPerHour

/-- What a call knows, wherever it stands. -/
def CallOk (s : World) : Call → Prop
  | .idle => True
  | .counted _ ids _ recent => recent + ids.length ≤ replayPerHour
  | .read organizationId ids _ recent originals => Chosen s organizationId ids recent originals
  | .finished ids outcome =>
    ∀ replayed skipped, outcome = .replayed replayed skipped → replayed + skipped = ids.length

structure Inv (s : World) : Prop where
  fencing : Fencing.Inv s.db
  nodup : (s.identities.map Prod.fst).Nodup
  stored : ∀ pair ∈ s.identities, (s.db.rows pair.1).isSome = true
  calls : ∀ n, CallOk s (s.calls n)

/-- What a call knows stays so while rows are only added. -/
theorem CallOk.mono (h : CallOk s call) (hsub : s.identities ⊆ t.identities) : CallOk t call := by
  cases call with
  | idle => trivial
  | counted _ _ _ _ => exact h
  | read _ _ _ _ originals =>
    refine ⟨fun original horiginal => ?_, h.length, h.fits⟩
    obtain ⟨hmem, hrest⟩ := h.original original horiginal
    exact ⟨hsub hmem, hrest⟩
  | finished _ _ => exact h

theorem Inv.setCall (h : Inv s) {n : ℕ} (hcall : CallOk s call) : Inv (s.setCall n call) where
  fencing := h.fencing
  nodup := h.nodup
  stored := h.stored
  calls m := by
    by_cases hm : m = n
    · subst hm
      rw [World.setCall]
      dsimp only
      rw [Function.update_self]
      exact hcall.mono fun _ hx => hx
    · rw [World.setCall]
      dsimp only
      rw [Function.update_of_ne hm]
      exact (h.calls m).mono fun _ hx => hx

theorem callOk_count (s : World) (organizationId : ℕ) (ids : List ℕ) (now : ℤ) :
    CallOk s (count s organizationId ids now) := by
  unfold count
  split
  · rename_i hnil
    rintro replayed skipped ⟨⟩
    rw [hnil]
    rfl
  · split
    · rintro replayed skipped ⟨⟩
    · dsimp only
      split
      · rintro replayed skipped ⟨⟩
      · rename_i hfits
        exact Nat.not_lt.mp hfits

/-- An original is one of the finished deliveries that were asked for, as it is stored. -/
theorem mem_originalsOf {organizationId : ℕ} {original : Original} :
    original ∈ originalsOf s organizationId ids ↔
      (original.id, original.identity) ∈ s.identities ∧
      (original.identity.organizationId = organizationId ∧ original.id ∈ ids) ∧
      s.db.rows original.id = some original.row ∧ original.row.state.terminal = true := by
  constructor
  · intro h
    obtain ⟨⟨id, identity⟩, hpair, hsome⟩ := List.mem_filterMap.mp h
    dsimp only at hsome
    split at hsome
    · rename_i hwanted
      obtain ⟨row, hrow, rfl⟩ := Option.map_eq_some_iff.mp hsome
      obtain ⟨hrow, hterminal⟩ := Option.filter_eq_some_iff.mp hrow
      exact ⟨hpair, hwanted, hrow, hterminal⟩
    · cases hsome
  · rintro ⟨hpair, hwanted, hrow, hterminal⟩
    refine List.mem_filterMap.mpr ⟨_, hpair, ?_⟩
    dsimp only
    rw [if_pos hwanted, hrow, Option.filter_some, if_pos hterminal]
    rfl

theorem originalsOf_ids (s : World) (organizationId : ℕ) (ids : List ℕ) :
    List.Sublist ((originalsOf s organizationId ids).map (·.id)) (s.identities.map Prod.fst) := by
  unfold originalsOf
  induction s.identities with
  | nil => exact .slnil
  | cons pair rest ih =>
    obtain ⟨id, identity⟩ := pair
    rw [List.filterMap_cons, List.map_cons]
    split
    · exact ih.cons _
    · rename_i original hsome
      have hid : original.id = id := by
        dsimp only at hsome
        split at hsome
        · obtain ⟨row, -, rfl⟩ := Option.map_eq_some_iff.mp hsome
          rfl
        · cases hsome
      rw [List.map_cons, hid]
      exact ih.cons_cons _

/-- No delivery is read twice, however often it was asked for. -/
theorem length_originalsOf (h : Inv s) (organizationId : ℕ) (ids : List ℕ) :
    (originalsOf s organizationId ids).length ≤ ids.length := by
  have hnodup : ((originalsOf s organizationId ids).map (·.id)).Nodup :=
    (originalsOf_ids s organizationId ids).nodup h.nodup
  have hsub : (originalsOf s organizationId ids).map (·.id) ⊆ ids := by
    intro id hid
    obtain ⟨original, horiginal, rfl⟩ := List.mem_map.mp hid
    exact (mem_originalsOf.mp horiginal).2.1.2
  have hlength := (List.Nodup.subperm hnodup hsub).length_le
  rwa [List.length_map] at hlength

theorem callOk_afterRead (h : Inv s) {organizationId : ℕ} (now : ℤ) {recent : ℕ}
    (hfits : recent + ids.length ≤ replayPerHour) :
    CallOk s (afterRead organizationId ids now recent (originalsOf s organizationId ids)) := by
  have hchosen : Chosen s organizationId ids recent (originalsOf s organizationId ids) := by
    refine ⟨fun original horiginal => ?_, length_originalsOf h organizationId ids, hfits⟩
    obtain ⟨hpair, hwanted, -, hterminal⟩ := mem_originalsOf.mp horiginal
    exact ⟨hpair, hwanted.1, hterminal⟩
  cases horiginals : originalsOf s organizationId ids with
  | nil =>
    rintro replayed skipped ⟨⟩
  | cons original rest =>
    rw [horiginals] at hchosen
    exact hchosen

/-! ### One step -/

/-- What the step that an action names does. -/
inductive Taken (policy : RetryPolicy) (s : World) : Action → World → Prop where
  | deliver {action : Outbox.Action} {db : Db} (h : Outbox.step policy s.db action = some db) :
    Taken policy s (.deliver action) { s with db }
  | enqueue {id organizationId : ℕ} {now : ℤ} {idempotencyKey : JsString} {content : Content}
      {db : Db} (h : Outbox.enqueue policy s.db id now = some db) :
    Taken policy s (.enqueue id now organizationId idempotencyKey content)
      { s with
        db
        identities := s.identities ++
          [(id, { organizationId, idempotencyKey, content, replayOf := none, createdAt := now })] }
  | count {n organizationId : ℕ} {ids : List ℕ} {now : ℤ} (h : s.calls n = .idle) :
    Taken policy s (.count n organizationId ids now)
      (s.setCall n (Replay.count s organizationId ids now))
  | readOriginals {n organizationId recent : ℕ} {ids : List ℕ} {now : ℤ}
      (h : s.calls n = .counted organizationId ids now recent) :
    Taken policy s (.readOriginals n)
      (s.setCall n (afterRead organizationId ids now recent (originalsOf s organizationId ids)))
  | insert {n organizationId recent : ℕ} {ids newIds : List ℕ} {now : ℤ} {randoms : List JsString}
      {originals : List Original} {db : Db}
      (h : s.calls n = .read organizationId ids now recent originals)
      (hids : newIds.length = originals.length) (hrandoms : randoms.length = originals.length)
      (hdb : Inserted s.db db newIds)
      (hsteps : newIds.foldlM (fun db id => Outbox.enqueue policy db id now) s.db = some db) :
    Taken policy s (.insert n newIds randoms)
      { s with
        db
        identities := s.identities ++ newIds.zip (copiesOf now randoms originals)
        calls := Function.update s.calls n (.finished ids
          (.replayed (copiesOf now randoms originals).length (ids.length - originals.length))) }
  | abort {n : ℕ} (ids : List ℕ) : Taken policy s (.abort n) (s.setCall n (.finished ids .aborted))

theorem step_taken (h : step policy s action = some t) : Taken policy s action t := by
  cases action with
  | deliver action =>
    simp only [step] at h
    split at h
    · cases h
    · obtain ⟨db, hdb, rfl⟩ := Option.map_eq_some_iff.mp h
      exact .deliver hdb
  | enqueue id now organizationId idempotencyKey content =>
    obtain ⟨db, hdb, rfl⟩ := Option.map_eq_some_iff.mp h
    exact .enqueue hdb
  | count n organizationId ids now =>
    simp only [step] at h
    split at h
    · rename_i hidle
      exact Option.some.inj h ▸ .count hidle
    · cases h
  | readOriginals n =>
    simp only [step] at h
    split at h
    · rename_i hcounted
      exact Option.some.inj h ▸ .readOriginals hcounted
    · cases h
  | insert n newIds randoms =>
    simp only [step] at h
    split at h
    · rename_i hread
      split at h
      · rename_i hlengths
        obtain ⟨db, hdb, rfl⟩ := Option.map_eq_some_iff.mp h
        exact .insert hread hlengths.1 hlengths.2 (inserted_all hdb) hdb
      · cases h
    · cases h
  | abort n =>
    simp only [step] at h
    split at h
    · exact Option.some.inj h ▸ .abort _
    · exact Option.some.inj h ▸ .abort _
    · cases h

theorem rows_kept {s t : Db} {action : Outbox.Action} (hi : Fencing.Inv s)
    (h : Outbox.step policy s action = some t) (hrow : (s.rows id).isSome = true) :
    (t.rows id).isSome = true := by
  have hkept : RowsRel (fun _ _ => True) s t := by
    by_cases haction : ∃ worker id, action = .expireRow worker id
    · obtain ⟨worker, id, rfl⟩ := haction
      obtain ⟨row, hrow, ht⟩ := expireRow_spec h
      exact .of_setRow (fun _ => trivial) ht hrow trivial
    · intro id row hrow
      obtain ⟨row', hrow', -⟩ := step_lawful hi h
        (fun worker id heq => haction ⟨worker, id, heq⟩) id row hrow
      exact ⟨row', hrow', trivial⟩
  obtain ⟨row, hsome⟩ := Option.isSome_iff_exists.mp hrow
  obtain ⟨row', hrow', -⟩ := hkept id row hsome
  rw [hrow']
  rfl

theorem fencing_enqueues (hi : Fencing.Inv db)
    (h : ids.foldlM (fun db id => Outbox.enqueue policy db id now) db = some db') :
    Fencing.Inv db' := by
  induction ids generalizing db with
  | nil =>
    obtain rfl : db = db' := by simpa using h
    exact hi
  | cons id ids ih =>
    rw [List.foldlM_cons] at h
    obtain ⟨next, hnext, hrest⟩ := Option.bind_eq_some_iff.mp h
    have hone : Outbox.step policy db (.enqueue id now) = some next := hnext
    exact ih (Fencing.step_inv hi hone) hrest

theorem length_copiesOf (h : randoms.length = originals.length) :
    (copiesOf now randoms originals).length = originals.length := by
  rw [copiesOf, List.length_zipWith, h, min_self]

theorem map_fst_copies (hids : newIds.length = originals.length)
    (hrandoms : randoms.length = originals.length) :
    (newIds.zip (copiesOf now randoms originals)).map Prod.fst = newIds :=
  List.map_fst_zip (by rw [length_copiesOf hrandoms, hids])

theorem mem_copies {copy : ℕ × Identity} (h : copy ∈ newIds.zip (copiesOf now randoms originals)) :
    copy.1 ∈ newIds ∧ ∃ random, ∃ original ∈ originals, copyOf now random original = copy.2 := by
  refine ⟨(List.of_mem_zip h).1, ?_⟩
  have hcopy : copy.2 ∈ copiesOf now randoms originals := (List.of_mem_zip h).2
  unfold copiesOf at hcopy
  rw [← List.map_uncurry_zip_eq_zipWith] at hcopy
  obtain ⟨⟨random, original⟩, hpair, heq⟩ := List.mem_map.mp hcopy
  exact ⟨random, original, (List.of_mem_zip hpair).2, heq⟩

theorem Inv.fresh (h : Inv s) (hid : s.db.rows id = none) : id ∉ s.identities.map Prod.fst := by
  intro hmem
  obtain ⟨pair, hpair, rfl⟩ := List.mem_map.mp hmem
  have hsome := h.stored pair hpair
  rw [hid] at hsome
  cases hsome

theorem Inv.step (h : Inv s) (hstep : step policy s action = some t) : Inv t := by
  cases step_taken hstep with
  | deliver hdb =>
    exact ⟨Fencing.step_inv h.fencing hdb, h.nodup,
      fun pair hpair => rows_kept h.fencing hdb (h.stored pair hpair),
      fun n => (h.calls n).mono fun _ hx => hx⟩
  | @enqueue id organizationId now idempotencyKey content db hdb =>
    have hinserted := inserted_enqueue hdb
    have hone : Outbox.step policy s.db (.enqueue id now) = some db := hdb
    refine ⟨Fencing.step_inv h.fencing hone, ?_, fun pair hpair => ?_, fun n =>
      (h.calls n).mono (List.subset_append_left _ _)⟩
    · rw [List.map_append, List.map_singleton, List.nodup_append_comm, List.singleton_append,
        List.nodup_cons]
      exact ⟨h.fresh (hinserted.fresh id List.mem_cons_self), h.nodup⟩
    · rcases List.mem_append.mp hpair with hpair | hpair
      · exact rows_kept h.fencing hone (h.stored pair hpair)
      · obtain ⟨row, hrow, -⟩ := hinserted.queued id List.mem_cons_self
        rw [List.mem_singleton.mp hpair, hrow]
        rfl
  | count hidle => exact h.setCall (callOk_count s _ _ _)
  | @readOriginals n organizationId recent ids now hcounted =>
    have hfits := h.calls n
    rw [hcounted] at hfits
    exact h.setCall (callOk_afterRead h now hfits)
  | @insert n organizationId recent ids newIds now randoms originals db hread hids hrandoms hdb hsteps =>
    have hmap : (newIds.zip (copiesOf now randoms originals)).map Prod.fst = newIds :=
      map_fst_copies hids hrandoms
    refine ⟨fencing_enqueues h.fencing hsteps, ?_, fun pair hpair => ?_, fun m => ?_⟩
    · rw [List.map_append, hmap, List.nodup_append]
      refine ⟨h.nodup, hdb.nodup, ?_⟩
      rintro id hid _ hnew rfl
      exact h.fresh (hdb.fresh id hnew) hid
    · rcases List.mem_append.mp hpair with hpair | hpair
      · obtain ⟨row, hrow⟩ := Option.isSome_iff_exists.mp (h.stored pair hpair)
        rw [hdb.rows hrow]
        rfl
      · have hnew : pair.1 ∈ newIds := hmap ▸ List.mem_map_of_mem hpair
        obtain ⟨row, hrow, -⟩ := hdb.queued pair.1 hnew
        rw [hrow]
        rfl
    · by_cases hm : m = n
      · subst hm
        dsimp only
        rw [Function.update_self]
        rintro replayed skipped ⟨⟩
        rw [length_copiesOf hrandoms]
        omega
      · dsimp only
        rw [Function.update_of_ne hm]
        exact (h.calls m).mono (List.subset_append_left _ _)
  | abort ids => exact h.setCall nofun

theorem Inv.init : Inv (machine policy).init where
  fencing := Fencing.init_inv policy
  nodup := List.nodup_nil
  stored _ hpair := absurd hpair List.not_mem_nil
  calls _ := trivial

theorem Inv.reachable (h : (machine policy).Reachable s) : Inv s :=
  h.induct Inv.init fun _ _ _ _ hinv hstep => hinv.step hstep

/-! ### What a replay adds -/

/-- The action is a step of a replay. -/
def Action.isReplay : Action → Bool
  | .deliver _ => false
  | .enqueue _ _ _ _ _ => false
  | .count _ _ _ _ => true
  | .readOriginals _ => true
  | .insert _ _ _ => true
  | .abort _ => true

/-- A row that an insert adds, queued and never tried, is a copy of an original. -/
structure Copied (s t : World) (originals : List Original) (copy : ℕ × Identity) : Prop where
  fresh : s.db.rows copy.1 = none
  queued : ∃ row, t.db.rows copy.1 = some row ∧ row.state = .queued ∧ row.attempts = 0
  original : ∃ original ∈ originals, copy.2.replayOf = some original.id ∧
    (original.id, original.identity) ∈ s.identities ∧
    original.identity.organizationId = copy.2.organizationId ∧
    original.row.state.terminal = true ∧ copy.2.content = original.identity.content

/-- What a step of a replay does: it changes no row, and adds copies of what the call read. -/
structure Adds (s : World) (action : Action) (t : World) : Prop where
  rows : ∀ id row, s.db.rows id = some row → t.db.rows id = some row
  attempts : t.db.attempts = s.db.attempts
  copies : ∃ copies, t.identities = s.identities ++ copies ∧ ∀ copy ∈ copies,
    ∃ n newIds randoms organizationId ids now recent originals,
      action = .insert n newIds randoms ∧
      s.calls n = .read organizationId ids now recent originals ∧ Copied s t originals copy
  read : ∀ n, action = .readOriginals n → ∀ organizationId ids now recent originals,
    t.calls n = .read organizationId ids now recent originals →
      ∀ original ∈ originals, s.db.rows original.id = some original.row

theorem Adds.of_setCall {n : ℕ} (h : ∀ n, action ≠ .readOriginals n) :
    Adds s action (s.setCall n call) where
  rows _ _ hrow := hrow
  attempts := rfl
  copies := ⟨[], (List.append_nil _).symm, nofun⟩
  read n heq := absurd heq (h n)

theorem Inv.adds (h : Inv s) (hstep : Replay.step policy s action = some t)
    (hreplay : action.isReplay = true) : Adds s action t := by
  cases step_taken hstep with
  | deliver _ => cases hreplay
  | enqueue _ => cases hreplay
  | count _ => exact .of_setCall nofun
  | abort _ => exact .of_setCall nofun
  | @readOriginals n organizationId recent ids now hcounted =>
    refine ⟨fun _ _ hrow => hrow, rfl,
      ⟨[], (List.append_nil _).symm, nofun⟩, ?_⟩
    intro m heq organizationId' ids' now' recent' originals hread original horiginal
    cases heq
    rw [World.setCall] at hread
    dsimp only at hread
    rw [Function.update_self] at hread
    have hall : original ∈ originalsOf s organizationId ids := by
      cases hfound : originalsOf s organizationId ids with
      | nil =>
        rw [hfound] at hread
        cases hread
      | cons head tail =>
        rw [hfound] at hread
        cases hread
        exact horiginal
    exact (mem_originalsOf.mp hall).2.2.1
  | @insert n organizationId recent ids newIds now randoms originals db hread hids hrandoms hdb hsteps =>
    have hchosen := h.calls n
    rw [hread] at hchosen
    refine ⟨fun _ _ hrow => hdb.rows hrow, hdb.attempts, ⟨_, rfl, fun copy hcopy => ?_⟩,
      nofun⟩
    obtain ⟨hnew, random, original, horiginal, hcopied⟩ := mem_copies hcopy
    obtain ⟨hstored, horganization, hterminal⟩ := hchosen.original original horiginal
    refine ⟨n, newIds, randoms, organizationId, ids, now, recent, originals, rfl, hread, ?_⟩
    refine ⟨hdb.fresh _ hnew, hdb.queued _ hnew, original, horiginal, ?_, hstored, ?_, hterminal, ?_⟩
    · rw [← hcopied]
      rfl
    · rw [← hcopied]
      rfl
    · rw [← hcopied]
      rfl

/-! ### The bound of an hour -/

/-- The replays of the organization in the hour from `start` on. -/
def replaysIn (s : World) (organizationId : ℕ) (start : ℤ) : ℕ :=
  s.identities.countP fun (_, identity) =>
    identity.organizationId = organizationId && identity.replayOf.isSome &&
      (start ≤ identity.createdAt && identity.createdAt ≤ start + hourMs)

def WithinHour (s : World) : Prop :=
  ∀ organizationId start, replaysIn s organizationId start ≤ replayPerHour

/-- When a call inserts, the replays that it counted are still all that there are. -/
def Undisturbed (s : World) (action : Action) : Prop :=
  ∀ n newIds randoms, action = .insert n newIds randoms →
    ∀ organizationId ids now recent originals,
      s.calls n = .read organizationId ids now recent originals →
        recentReplays s organizationId now ≤ recent

theorem withinHour_of_same (h : WithinHour s) (ht : t.identities = s.identities) :
    WithinHour t := by
  intro organizationId start
  have hsame : replaysIn t organizationId start = replaysIn s organizationId start := by
    rw [replaysIn, replaysIn, ht]
  exact hsame ▸ h organizationId start

theorem replaysIn_le_recent (s : World) (organizationId : ℕ) {start now : ℤ}
    (hnow : now ≤ start + hourMs) :
    replaysIn s organizationId start ≤ recentReplays s organizationId now := by
  refine List.countP_mono_left fun pair _ hpair => ?_
  simp only [Bool.and_eq_true, decide_eq_true_eq] at hpair ⊢
  exact ⟨hpair.1, by omega⟩

theorem withinHour_insert {organizationId recent : ℕ} (h : WithinHour s)
    (hchosen : Chosen s organizationId ids recent originals)
    (hrecent : recentReplays s organizationId now ≤ recent)
    (hids : newIds.length = originals.length) (hrandoms : randoms.length = originals.length)
    (ht : t.identities = s.identities ++ newIds.zip (copiesOf now randoms originals)) :
    WithinHour t := by
  intro organization start
  have hcopies : (newIds.zip (copiesOf now randoms originals)).length ≤ ids.length := by
    rw [List.length_zip, length_copiesOf hrandoms, hids, min_self]
    exact hchosen.length
  have hcreated : ∀ pair ∈ newIds.zip (copiesOf now randoms originals),
      pair.2.organizationId = organizationId ∧ pair.2.createdAt = now := by
    intro pair hpair
    obtain ⟨-, random, original, horiginal, heq⟩ := mem_copies hpair
    rw [← heq]
    exact ⟨(hchosen.original original horiginal).2.1, rfl⟩
  have hsplit : replaysIn t organization start = replaysIn s organization start +
      (newIds.zip (copiesOf now randoms originals)).countP fun (_, identity) =>
        identity.organizationId = organization && identity.replayOf.isSome &&
          (start ≤ identity.createdAt && identity.createdAt ≤ start + hourMs) := by
    rw [replaysIn, ht, List.countP_append]
    rfl
  rw [hsplit]
  by_cases hinside : organizationId = organization ∧ start ≤ now ∧ now ≤ start + hourMs
  · obtain ⟨rfl, -, hnow⟩ := hinside
    have hbefore := replaysIn_le_recent s organizationId hnow
    have hadded := (List.countP_le_length
      (p := fun pair : ℕ × Identity => pair.2.organizationId = organizationId &&
        pair.2.replayOf.isSome &&
          (start ≤ pair.2.createdAt && pair.2.createdAt ≤ start + hourMs))
      (l := newIds.zip (copiesOf now randoms originals))).trans hcopies
    have hfits := hchosen.fits
    exact (Nat.add_le_add (hbefore.trans hrecent) hadded).trans hfits
  · have hnone : (newIds.zip (copiesOf now randoms originals)).countP (fun (_, identity) =>
        identity.organizationId = organization && identity.replayOf.isSome &&
          (start ≤ identity.createdAt && identity.createdAt ≤ start + hourMs)) = 0 := by
      refine List.countP_eq_zero.mpr fun pair hpair hcounted => hinside ?_
      simp only [Bool.and_eq_true, decide_eq_true_eq] at hcounted
      obtain ⟨horganization, hnow⟩ := hcreated pair hpair
      rw [← horganization, ← hnow]
      exact ⟨hcounted.1.1, hcounted.2⟩
    rw [hnone]
    exact h organization start

theorem WithinHour.step (h : WithinHour s) (hi : Inv s) (hundisturbed : Undisturbed s action)
    (hstep : step policy s action = some t) : WithinHour t := by
  cases step_taken hstep with
  | deliver _ => exact withinHour_of_same h rfl
  | count _ => exact withinHour_of_same h rfl
  | readOriginals _ => exact withinHour_of_same h rfl
  | abort _ => exact withinHour_of_same h rfl
  | enqueue _ =>
    intro organization start
    have hsame := h organization start
    rw [replaysIn] at hsame ⊢
    rw [List.countP_append]
    simpa using hsame
  | @insert n organizationId recent ids newIds now randoms originals db hread hids hrandoms hdb hsteps =>
    have hchosen := hi.calls n
    rw [hread] at hchosen
    exact withinHour_insert h hchosen
      (hundisturbed n newIds randoms rfl organizationId ids now recent originals hread) hids hrandoms
      rfl

/-- A replay adds copies and changes nothing, and its counts add up; and when no replay of the
organization is added between a call's count and its insert, no hour has more than the limit. -/
theorem replay_adds_within_limit (policy : RetryPolicy) (acts : List Action) :
    (machine policy).EachMove acts (fun s action t => action.isReplay = true → Adds s action t) ∧
    (machine policy).Always acts (fun s => ∀ n ids replayed skipped,
      s.calls n = .finished ids (.replayed replayed skipped) → replayed + skipped = ids.length) ∧
    ((machine policy).EachStep acts Undisturbed → (machine policy).Always acts WithinHour) := by
  refine ⟨.of_reachable (fun s _ _ hs hstep hreplay => (Inv.reachable hs).adds hstep hreplay) acts,
    .of_reachable (fun s hs n ids replayed skipped hfinished => ?_) acts, fun heach => ?_⟩
  · have hcall := (Inv.reachable hs).calls n
    rw [hfinished] at hcall
    exact hcall replayed skipped rfl
  · refine .of_eachStep (fun _ _ => Nat.zero_le _) ?_ heach
    exact fun _ _ _ hs h hundisturbed hstep => h.step (Inv.reachable hs) hundisturbed hstep

/-! ### Six calls at once -/

def samplePolicy : RetryPolicy := { maxAttempts := 15, horizonHours := 1 }

def sampleContent : Content where
  channel := js "channel"
  channelId := some 1
  provider := some (js "slack")
  event := some (js "incident.opened")
  destination := js "#ops"
  payload := js "{}"

/-- So many deliveries of organization 1, all of them expired. -/
def expiredDeliveries (count : ℕ) : List Action :=
  (List.range count).map (fun id => .enqueue id 0 1 [id.toUInt16] sampleContent) ++
    .deliver (.expireScan 1 (List.range count) 3600000) ::
      (List.range count).map fun id => .deliver (.expireRow 1 id)

/-- The insert of call `n`, of rows that are numbered by the call. -/
def insertOf (count n : ℕ) : Action :=
  .insert n (List.range' (count * (n + 1)) count)
    ((List.range count).map fun i => [n.toUInt16, i.toUInt16])

/-- Every call counts before any of them inserts. -/
def race (calls count : ℕ) : List Action :=
  expiredDeliveries count ++
    (List.range calls).map (fun n => .count n 1 (List.range count) 3600000) ++
    (List.range calls).map (fun n => .readOriginals n) ++
    (List.range calls).map (insertOf count)

/-- One call after another. -/
def inTurn (calls count : ℕ) : List Action :=
  expiredDeliveries count ++ (List.range calls).flatMap fun n =>
    [.count n 1 (List.range count) 3600000, .readOriginals n, insertOf count n]

def undisturbed (s : World) : Action → Bool
  | .insert n _ _ =>
    match s.calls n with
    | .read organizationId _ now recent _ => recentReplays s organizationId now ≤ recent
    | _ => true
  | _ => true

theorem undisturbed_of (h : undisturbed s action = true) : Undisturbed s action := by
  rintro n newIds randoms rfl organizationId ids now recent originals hread
  simp only [undisturbed, hread, decide_eq_true_eq] at h
  exact h

theorem in_turn_within_limit :
    (machine samplePolicy).Always (inTurn 2 2) WithinHour := by
  have hchecks : Machine.checks (step samplePolicy) undisturbed (machine samplePolicy).init
      (inTurn 2 2) = true := by decide +kernel
  exact (replay_adds_within_limit samplePolicy (inTurn 2 2)).2.2
    (.of_checks (fun _ _ => undisturbed_of) hchecks)

theorem enqueue_all (hnodup : ids.Nodup) (hfresh : ∀ id ∈ ids, db.rows id = none) :
    ∃ db', ids.foldlM (fun db id => Outbox.enqueue policy db id now) db = some db' := by
  induction ids generalizing db with
  | nil => exact ⟨db, rfl⟩
  | cons id ids ih =>
    obtain ⟨hid, hnodup⟩ := List.nodup_cons.mp hnodup
    obtain ⟨next, hnext⟩ : ∃ next, Outbox.enqueue policy db id now = some next := by
      simp [Outbox.enqueue, hfresh id List.mem_cons_self]
    have hkept (other : ℕ) (hother : other ∈ ids) : next.rows other = none := by
      rw [(inserted_enqueue hnext).kept other fun heq => hid (List.mem_singleton.mp heq ▸ hother)]
      exact hfresh other (List.mem_cons_of_mem _ hother)
    obtain ⟨db', hrest⟩ := ih hnodup hkept
    exact ⟨db', by rw [List.foldlM_cons, hnext]; exact hrest⟩

/-- A call that has read its originals inserts them, whatever was inserted since it counted. -/
theorem insert_goes_on {n organizationId recent : ℕ}
    (hread : s.calls n = .read organizationId ids now recent originals)
    (horganization : ∀ original ∈ originals, original.identity.organizationId = organizationId)
    (hids : newIds.length = originals.length) (hrandoms : randoms.length = originals.length)
    (hnodup : newIds.Nodup) (hfresh : ∀ id ∈ newIds, s.db.rows id = none) :
    ∃ t, step policy s (.insert n newIds randoms) = some t ∧
      (∀ m, m ≠ n → t.calls m = s.calls m) ∧
      (∀ id, id ∉ newIds → t.db.rows id = s.db.rows id) ∧
      replaysIn t organizationId now = replaysIn s organizationId now + originals.length := by
  obtain ⟨db, hdb⟩ : ∃ db, newIds.foldlM (fun db id => Outbox.enqueue policy db id now) s.db =
      some db := enqueue_all hnodup hfresh
  refine ⟨{ s with
      db
      identities := s.identities ++ newIds.zip (copiesOf now randoms originals)
      calls := Function.update s.calls n (.finished ids
        (.replayed (copiesOf now randoms originals).length (ids.length - originals.length))) },
    ?_, fun m hm => ?_, fun id hid => ?_, ?_⟩
  · simp only [step, hread]
    rw [if_pos ⟨hids, hrandoms⟩, hdb]
    rfl
  · exact Function.update_of_ne hm _ _
  · exact (inserted_all hdb).kept id hid
  · have hall : (newIds.zip (copiesOf now randoms originals)).countP (fun (_, identity) =>
        identity.organizationId = organizationId && identity.replayOf.isSome &&
          (now ≤ identity.createdAt && identity.createdAt ≤ now + hourMs)) = originals.length := by
      have hlength : (newIds.zip (copiesOf now randoms originals)).length = originals.length := by
        rw [List.length_zip, length_copiesOf hrandoms, hids, min_self]
      rw [← hlength]
      refine List.countP_eq_length.mpr fun pair hpair => ?_
      obtain ⟨-, random, original, horiginal, heq⟩ := mem_copies hpair
      have hhour : now ≤ now + hourMs := by
        unfold hourMs
        omega
      simp [← heq, copyOf, horganization original horiginal, hhour]
    rw [replaysIn, replaysIn, List.countP_append, hall]

/-- Call `n` is about to insert so many copies at the end of the first hour. -/
def Ready (count : ℕ) (s : World) (n : ℕ) : Prop :=
  ∃ ids recent originals, s.calls n = .read 1 ids 3600000 recent originals ∧
    originals.length = count ∧ ∀ original ∈ originals, original.identity.organizationId = 1

theorem inserts_go_on {count : ℕ} : ∀ (calls first : ℕ) {s : World},
    (∀ n, first ≤ n → n < first + calls → Ready count s n) →
    (∀ id, count * (first + 1) ≤ id → s.db.rows id = none) →
    ∃ t, (machine policy).execFrom s ((List.range' first calls).map (insertOf count)) = some t ∧
      replaysIn t 1 3600000 = replaysIn s 1 3600000 + calls * count
  | 0, _, s, _, _ => ⟨s, rfl, by omega⟩
  | calls + 1, first, s, hready, hfresh => by
    obtain ⟨ids, recent, originals, hread, hlength, horganization⟩ :=
      hready first (Nat.le_refl _) (by omega)
    have hids : (List.range' (count * (first + 1)) count).length = originals.length := by
      rw [List.length_range', hlength]
    have hrandoms : ((List.range count).map fun i => [first.toUInt16, i.toUInt16]).length =
        originals.length := by
      rw [List.length_map, List.length_range, hlength]
    have hnone : ∀ id ∈ List.range' (count * (first + 1)) count, s.db.rows id = none :=
      fun id hid => hfresh id (List.mem_range'_1.mp hid).1
    obtain ⟨next, hnext, hcalls, hrows, hcount⟩ : ∃ next,
        step policy s (insertOf count first) = some next ∧
        (∀ m, m ≠ first → next.calls m = s.calls m) ∧
        (∀ id, id ∉ List.range' (count * (first + 1)) count → next.db.rows id = s.db.rows id) ∧
        replaysIn next 1 3600000 = replaysIn s 1 3600000 + originals.length :=
      insert_goes_on hread horganization hids hrandoms List.nodup_range' hnone
    have hready' : ∀ n, first + 1 ≤ n → n < first + 1 + calls → Ready count next n := by
      intro n hlow hhigh
      obtain ⟨ids, recent, originals, hread, hrest⟩ := hready n (by omega) (by omega)
      exact ⟨ids, recent, originals, (hcalls n (by omega)).trans hread, hrest⟩
    have hfresh' : ∀ id, count * (first + 1 + 1) ≤ id → next.db.rows id = none := by
      intro id hid
      rw [Nat.mul_succ] at hid
      rw [hrows id fun hmem => ?_]
      · exact hfresh id (by omega)
      · have hbelow := (List.mem_range'_1.mp hmem).2
        omega
    obtain ⟨t, ht, htotal⟩ := inserts_go_on calls (first + 1) hready' hfresh'
    refine ⟨t, ?_, ?_⟩
    · rw [List.range'_succ, List.map_cons]
      exact Option.bind_eq_some_iff.mpr ⟨next, hnext, ht⟩
    · rw [htotal, hcount, hlength, Nat.succ_mul]
      omega

/-- The actions of the calls up to their reads, which store no row from `count` on. -/
def isEarly (count : ℕ) : Action → Bool
  | .enqueue id _ _ _ _ => id < count
  | .deliver (.expireScan _ _ _) => true
  | .deliver (.expireRow _ _) => true
  | .count _ _ _ _ => true
  | .readOriginals _ => true
  | _ => false

theorem rows_early {count : ℕ} (h : ∀ id, count ≤ id → s.db.rows id = none)
    (hearly : isEarly count action = true) (hstep : step policy s action = some t) :
    ∀ id, count ≤ id → t.db.rows id = none := by
  intro id hid
  cases step_taken hstep with
  | count _ => exact h id hid
  | readOriginals _ => exact h id hid
  | insert _ _ _ _ _ => cases hearly
  | abort _ => cases hearly
  | @enqueue other _ _ _ _ db hdb =>
    have hother : other < count := of_decide_eq_true hearly
    have hne : id ∉ [other] := by
      rw [List.mem_singleton]
      omega
    rw [(inserted_enqueue hdb).kept id hne]
    exact h id hid
  | @deliver action db hdb =>
    cases action with
    | expireScan worker ids now =>
      simp only [Outbox.step] at hdb
      split at hdb
      · cases hdb
        exact h id hid
      · cases hdb
    | expireRow worker other =>
      obtain ⟨row, hrow, ht⟩ := expireRow_spec hdb
      have hne : id ≠ other := by
        rintro rfl
        rw [h id hid] at hrow
        cases hrow
      dsimp only
      rw [ht, setRow_rows_of_ne _ _ hne]
      exact h id hid
    | _ => cases hearly

/-- The race up to its inserts. -/
def beforeInserts (calls count : ℕ) : List Action :=
  expiredDeliveries count ++
    (List.range calls).map (fun n => .count n 1 (List.range count) 3600000) ++
    (List.range calls).map fun n => .readOriginals n

def ready (count : ℕ) (s : World) (n : ℕ) : Bool :=
  match s.calls n with
  | .read organizationId _ now _ originals =>
    organizationId = 1 && now = 3600000 && originals.length = count &&
      originals.all fun original => original.identity.organizationId = 1
  | _ => false

theorem ready_of {count : ℕ} {n : ℕ} (h : ready count s n = true) : Ready count s n := by
  unfold ready at h
  split at h
  · rename_i organizationId ids now recent originals hread
    simp only [Bool.and_eq_true, decide_eq_true_eq, List.all_eq_true] at h
    obtain ⟨⟨⟨rfl, rfl⟩, hlength⟩, hall⟩ := h
    exact ⟨ids, recent, originals, hread, hlength, hall⟩
  · cases h

/-- Six calls of 84 each pass the check together, and the hour has 504 replays. -/
theorem race_exceeds_limit :
    ∃ s, (machine samplePolicy).exec (race 6 84) = some s ∧ replaysIn s 1 3600000 = 504 := by
  have hstart : ((machine samplePolicy).exec (beforeInserts 6 84)).any (fun s =>
      replaysIn s 1 3600000 = 0 && (List.range 6).all (ready 84 s)) = true := by decide +kernel
  obtain ⟨s, hs, hready⟩ := (Option.any_eq_true _ _).mp hstart
  simp only [Bool.and_eq_true, decide_eq_true_eq, List.all_eq_true] at hready
  have hearly : ∀ action ∈ beforeInserts 6 84, isEarly 84 action = true :=
    List.all_eq_true.mp (by decide +kernel)
  have hfresh : ∀ id, 84 ≤ id → s.db.rows id = none :=
    Machine.execFrom_induct (M := machine samplePolicy) hs (fun _ _ => rfl)
      fun _ action _ haction h hstep => rows_early h (hearly action haction) hstep
  obtain ⟨t, ht, hcount⟩ : ∃ t, (machine samplePolicy).execFrom s
        ((List.range' 0 6).map (insertOf 84)) = some t ∧
      replaysIn t 1 3600000 = replaysIn s 1 3600000 + 6 * 84 :=
    inserts_go_on 6 0 (fun n _ hn => ready_of (hready.2 n (List.mem_range.mpr (by omega))))
      fun id hid => hfresh id (by omega)
  refine ⟨t, ?_, by rw [hcount, hready.1]⟩
  rw [← List.range_eq_range'] at ht
  exact Machine.exec_append_eq_some hs ht

end Vigil.Notifications.Replay
