import Vigil.Lib.Run
import Vigil.Ledger.Chain
import Vigil.Ledger.Hlc

/-! Appending to an actor's chain: the transactions of `recordCheckOutcome` that go through
`stampFact` of `ledger/service.ts`, for one actor.  A transaction is cut at its statements.  Its
first `UPDATE` takes the lock of the actor's row, so it waits until no other transaction holds it and
then reads what was committed last; nothing it writes is seen before it commits, and an abort, which
can come after any statement, leaves nothing behind. -/

namespace Vigil.Ledger.Stamp

open Js.Text Canonical Chain Hlc Lib

structure Actor where
  sequence : ℤ
  lastHlc : ℤ
  headHash : Option JsString

structure StampInput where
  kind : FactKind
  subject : JsString
  specVersion : Option ℤ
  claim : JsValue

def bigintBound : ℤ := 2 ^ 63

/-- How far a transaction has come, with its own view of the actor's row. -/
inductive Tx where
  | idle
  | advanced (input : StampInput) (nowMs : ℤ) (row : Actor)
  | stamped (fact : Fact) (row : Actor)
  | inserted (fact : Fact) (row : Actor)

/-- What is committed, and the transactions that are not. -/
structure Db where
  actor : Actor
  facts : List Fact
  lock : Option ℕ
  txs : ℕ → Tx

/-- The statements that a transaction of some worker executes. -/
inductive Action where
  /-- `UPDATE actors SET sequence = sequence + 1 .. RETURNING ..`. -/
  | advance (worker : ℕ) (input : StampInput) (nowMs : ℤ)
  /-- `UPDATE actors SET last_hlc = .., head_hash = ..`. -/
  | stamp (worker : ℕ)
  /-- `INSERT INTO monitor_checks ..`. -/
  | insert (worker : ℕ)
  | commit (worker : ℕ)
  | abort (worker : ℕ)

section

variable (sha256 : List UInt8 → JsString) (actorId : JsString)

/-- The fact that `stampFact` hashes, from the advanced row and the next clock value. -/
def stampFact (input : StampInput) (row : Actor) (hlc : ℤ) : Fact :=
  let fact : FactInput :=
    { actorId
      seq := row.sequence
      hlc
      prevHash := row.headHash
      kind := input.kind
      subject := input.subject
      specVersion := input.specVersion
      claim := input.claim }
  { fact with hash := factHash sha256 fact }

def setTx (s : Db) (worker : ℕ) (tx : Tx) : Db :=
  { s with txs := Function.update s.txs worker tx }

@[simp] theorem setTx_self (s : Db) (worker : ℕ) (tx : Tx) :
    (setTx s worker tx).txs worker = tx := by
  simp [setTx]

theorem setTx_of_ne {w worker : ℕ} (h : w ≠ worker) (s : Db) (tx : Tx) :
    (setTx s worker tx).txs w = s.txs w := by
  simp [setTx, h]

/-- A statement happens only where the row lock of the actor lets it, and its transaction is there.
-/
def step (s : Db) : Action → Option Db
  | .advance worker input nowMs =>
    if s.lock = none ∧ s.actor.sequence + 1 < bigintBound then
      let row := { s.actor with sequence := s.actor.sequence + 1 }
      some { setTx s worker (.advanced input nowMs row) with lock := some worker }
    else none
  | .stamp worker =>
    match s.txs worker with
    | .advanced input nowMs row =>
      match nextHlc row.lastHlc nowMs with
      | .error _ => none
      | .ok hlc =>
        -- a value that the column cannot hold fails the statement
        if hlc < bigintBound then
          let fact := stampFact sha256 actorId input row hlc
          some (setTx s worker
            (.stamped fact { row with lastHlc := hlc, headHash := some fact.hash }))
        else none
    | _ => none
  | .insert worker =>
    match s.txs worker with
    | .stamped fact row => some (setTx s worker (.inserted fact row))
    | _ => none
  | .commit worker =>
    match s.txs worker with
    | .inserted fact row =>
      some { setTx s worker .idle with actor := row, facts := s.facts ++ [fact], lock := none }
    | _ => none
  | .abort worker =>
    match s.txs worker with
    | .idle => none
    | _ => some { setTx s worker .idle with lock := none }

def machine : Machine Db Action where
  init := { actor := ⟨0, 0, none⟩, facts := [], lock := none, txs := fun _ => .idle }
  step := step sha256 actorId

end

def orderBySeq (facts : List Fact) : List Fact := facts.insertionSort fun a b => a.seq ≤ b.seq

/-! ### The invariant -/

/-- The row `actor` is the head of the verified chain `facts`. -/
structure Heads (sha256 : List UInt8 → JsString) (actor : Actor) (facts : List Fact) : Prop where
  isSealed : Sealed sha256 facts
  chain : facts.IsChain Linked
  first : ∀ fact ∈ facts.head?, fact.seq = 1 ∧ fact.prevHash = none
  sequence : actor.sequence = facts.length
  lastSeq : ∀ fact ∈ facts.getLast?, fact.seq = actor.sequence
  headHash : actor.headHash = facts.getLast?.map (·.hash)
  lastHlc : ∀ fact ∈ facts.getLast?, fact.hlc = actor.lastHlc
  nonneg : 0 ≤ actor.lastHlc

/-- What a transaction has done so far, over the committed row and facts. -/
def TxInv (sha256 : List UInt8 → JsString) (actor : Actor) (facts : List Fact) : Tx → Prop
  | .idle => True
  | .advanced _ _ row => row = { actor with sequence := actor.sequence + 1 }
  | .stamped fact row => Heads sha256 row (facts ++ [fact])
  | .inserted fact row => Heads sha256 row (facts ++ [fact])

structure Inv (sha256 : List UInt8 → JsString) (s : Db) : Prop where
  heads : Heads sha256 s.actor s.facts
  locked : ∀ worker, s.txs worker ≠ .idle → s.lock = some worker
  txs : ∀ worker, TxInv sha256 s.actor s.facts (s.txs worker)

variable {sha256 : List UInt8 → JsString} {actorId : JsString}

variable {facts : List Fact} {s : Db}

/-- A fact stamped on the head extends the chain and becomes its head. -/
theorem Heads.stamp {actor : Actor} (h : Heads sha256 actor facts) (input : StampInput) {hlc : ℤ}
    (hhlc : actor.lastHlc < hlc) : let row := { actor with sequence := actor.sequence + 1 }
    let fact := stampFact sha256 actorId input row hlc
    Heads sha256 { row with lastHlc := hlc, headHash := some fact.hash } (facts ++ [fact]) := by
  intro row fact
  have hlink : ∀ last ∈ facts.getLast?, Linked last fact := by
    intro last hlast
    refine ⟨?_, ?_, ?_⟩
    · show actor.headHash = some last.hash
      rw [h.headHash, Option.mem_def.mp hlast, Option.map_some]
    · show actor.sequence + 1 = last.seq + 1
      rw [h.lastSeq last hlast]
    · show last.hlc < hlc
      rw [h.lastHlc last hlast]
      exact hhlc
  refine ⟨?_, ?_, ?_, ?_, ?_, ?_, ?_, ?_⟩
  · intro f hf
    rcases List.mem_append.mp hf with hf | hf
    · exact h.isSealed f hf
    · obtain rfl := List.mem_singleton.mp hf
      rfl
  · refine List.isChain_append.mpr ⟨h.chain, by simp, fun last hlast next hnext => ?_⟩
    obtain rfl : fact = next := by simpa using hnext
    exact hlink last hlast
  · intro f hf
    cases facts with
    | nil =>
      obtain rfl : fact = f := by simpa using hf
      have hsequence := h.sequence
      simp only [List.length_nil] at hsequence
      refine ⟨?_, h.headHash⟩
      show actor.sequence + 1 = 1
      omega
    | cons a rest => exact h.first f (by simpa using hf)
  · show actor.sequence + 1 = ((facts ++ [fact]).length : ℤ)
    simp [h.sequence]
  · intro f hf
    obtain rfl : fact = f := by simpa using hf
    rfl
  · simp
  · intro f hf
    obtain rfl : fact = f := by simpa using hf
    rfl
  · exact (h.nonneg.trans_lt hhlc).le

theorem init_inv : Inv sha256 (machine sha256 actorId).init where
  heads :=
    { isSealed := nofun
      chain := List.isChain_nil
      first := by simp [machine]
      sequence := rfl
      lastSeq := by simp [machine]
      headHash := rfl
      lastHlc := by simp [machine]
      nonneg := le_rfl }
  locked := fun _ h => absurd rfl h
  txs := fun _ => trivial

theorem Inv.other_idle {worker w : ℕ} (h : Inv sha256 s) (hlock : s.lock = some worker)
    (hw : w ≠ worker) : s.txs w = .idle := by
  by_contra hbusy
  exact hw (Option.some.inj ((h.locked w hbusy).symm.trans hlock))

/-- The worker that holds the lock moves on; nothing is committed. -/
theorem Inv.setTx {worker : ℕ} {tx : Tx} (h : Inv sha256 s) (hlock : s.lock = some worker)
    (htx : TxInv sha256 s.actor s.facts tx) : Inv sha256 (setTx s worker tx) where
  heads := h.heads
  locked := by
    intro w hw
    by_cases hww : w = worker
    · rw [hww]
      exact hlock
    · rw [setTx_of_ne hww] at hw
      exact h.locked w hw
  txs := by
    intro w
    by_cases hww : w = worker
    · rw [hww, setTx_self]
      exact htx
    · rw [setTx_of_ne hww]
      exact h.txs w

theorem Inv.idle_after {worker : ℕ} (h : Inv sha256 s) (hlock : s.lock = some worker) (w : ℕ) :
    (Stamp.setTx s worker .idle).txs w = .idle := by
  by_cases hww : w = worker
  · rw [hww, setTx_self]
  · rw [setTx_of_ne hww]
    exact h.other_idle hlock hww

theorem Inv.of_idle (heads : Heads sha256 s.actor s.facts) (idle : ∀ worker, s.txs worker = .idle) :
    Inv sha256 s where
  heads := heads
  locked := fun worker hw => absurd (idle worker) hw
  txs := fun worker => by
    rw [idle worker]
    trivial

theorem step_inv {s t : Db} {a : Action} (h : Inv sha256 s)
    (hs : step sha256 actorId s a = some t) : Inv sha256 t := by
  cases a with
  | advance worker input nowMs =>
    simp only [step] at hs
    split at hs
    · rename_i hfree
      cases hs
      -- no other transaction is under way, or it would hold the lock
      have hidle : ∀ w, s.txs w = .idle := by
        intro w
        by_contra hw
        simp [h.locked w hw] at hfree
      have hlocked : Inv sha256 { s with lock := some worker } := .of_idle h.heads hidle
      exact hlocked.setTx rfl rfl
    · cases hs
  | stamp worker =>
    simp only [step] at hs
    split at hs
    · rename_i input nowMs row htx
      have hlock := h.locked worker (by simp [htx])
      have hinv := h.txs worker
      rw [htx] at hinv
      obtain rfl : row = { s.actor with sequence := s.actor.sequence + 1 } := hinv
      obtain ⟨hlc, hnext, hadvance⟩ := nextHlc_spec h.heads.nonneg nowMs
      simp only [hnext] at hs
      split at hs
      · cases hs
        exact h.setTx hlock (h.heads.stamp input hadvance)
      · cases hs
    · cases hs
  | insert worker =>
    simp only [step] at hs
    split at hs
    · rename_i fact row htx
      cases hs
      have hheads := h.txs worker
      rw [htx] at hheads
      exact h.setTx (h.locked worker (by simp [htx])) hheads
    · cases hs
  | commit worker =>
    simp only [step] at hs
    split at hs
    · rename_i fact row htx
      cases hs
      have hheads := h.txs worker
      rw [htx] at hheads
      exact .of_idle hheads (h.idle_after (h.locked worker (by simp [htx])))
    · cases hs
  | abort worker =>
    simp only [step] at hs
    split at hs
    · cases hs
    · rename_i htx
      cases hs
      exact .of_idle h.heads (h.idle_after (h.locked worker htx))

theorem reachable_inv (h : (machine sha256 actorId).Reachable s) : Inv sha256 s :=
  h.induct init_inv fun _ _ _ _ hi hs => step_inv hi hs

/-! ### The committed chain -/

theorem chain_seq (hchain : facts.IsChain Linked) (hfirst : ∀ fact ∈ facts.head?, fact.seq = 1)
    {i : ℕ} {fact : Fact} (h : facts[i]? = some fact) : fact.seq = i + 1 := by
  cases facts with
  | nil => simp at h
  | cons a rest =>
    have hseq := seq_of_chain hchain h
    have ha := hfirst a rfl
    omega

theorem pairwise_of_chain (hchain : facts.IsChain Linked) :
    facts.Pairwise fun a b => a.seq < b.seq ∧ a.hlc < b.hlc := by
  have htrans : IsTrans Fact fun a b => a.seq < b.seq ∧ a.hlc < b.hlc :=
    ⟨fun a b c hab hbc => ⟨hab.1.trans hbc.1, hab.2.trans hbc.2⟩⟩
  refine List.isChain_iff_pairwise.mp (hchain.imp fun a b hab => ⟨?_, hab.hlc⟩)
  rw [hab.seq]
  exact Int.lt_succ a.seq

/-- Whatever commits and aborts, in whatever order and whatever the wall clock reads, the committed
facts ordered by their sequence verify: they count from one without a gap, their clock strictly
increases, and each names the hash of the one before it. -/
theorem committed_chain_verifies (sha256 : List UInt8 → JsString) (actorId : JsString)
    (acts : List Action) (s : Db) (hrun : (machine sha256 actorId).exec acts = some s) :
    let facts := orderBySeq s.facts
    facts.Perm s.facts ∧ verifyChain sha256 facts = .valid ∧
      (∀ (i : ℕ) (fact : Fact), facts[i]? = some fact → fact.seq = i + 1) ∧
      facts.Pairwise (fun a b => a.hlc < b.hlc) ∧
      (∀ fact ∈ facts.head?, fact.prevHash = none) ∧
      facts.IsChain fun a b => b.prevHash = some a.hash := by
  have h := (reachable_inv ⟨acts, hrun⟩).heads
  have hpairwise := pairwise_of_chain h.chain
  have hordered : orderBySeq s.facts = s.facts :=
    (hpairwise.imp fun h => h.1.le).insertionSort_eq
  rw [hordered]
  exact ⟨.refl _, (verifyChain_valid_iff _).mpr ⟨h.isSealed, h.chain⟩,
    fun i fact hi => chain_seq h.chain (fun f hf => (h.first f hf).1) hi,
    hpairwise.imp fun h => h.2, fun f hf => (h.first f hf).2, h.chain.imp fun _ _ h => h.prevHash⟩

/-- Two workers: the second waits for the first, which aborts after it inserted its fact, and the
clock of the second reads before the epoch. -/
theorem committed_chain_verifies_after_abort :
    let sha256 : List UInt8 → JsString := List.map fun b => b.toUInt16
    let input : StampInput := ⟨.observation, js "m1", none, .null⟩
    ∃ s, (machine sha256 (js "worker")).exec
        [.advance 0 input 5, .stamp 0, .insert 0, .abort 0, .advance 1 input (-7), .stamp 1,
          .insert 1, .commit 1] = some s ∧
      s.facts.length = 1 ∧ verifyChain sha256 (orderBySeq s.facts) = .valid := by
  intro sha256 input
  refine ⟨_, rfl, rfl, ?_⟩
  exact (committed_chain_verifies sha256 (js "worker")
    [.advance 0 input 5, .stamp 0, .insert 0, .abort 0, .advance 1 input (-7), .stamp 1,
      .insert 1, .commit 1] _ rfl).2.1

end Vigil.Ledger.Stamp
