import Vigil.Lib.Run
import Vigil.Js.Text
import Mathlib.Algebra.BigOperators.Group.List.Basic

/-! `SampleWriter` of `highfreq/writer.ts`: samples are buffered, a flush takes the buffer and waits
for its insert, and a second flush only joins the first.  The database settles an insert when it
likes.  What an insert left behind is counted by `write`, and the flush ends in a later step, so that
calls may come in between. -/

namespace Vigil.HighFreq.Writer

open Lib Js.Text

def hfBatchRows : ℕ := 500

def hfWriterHighWaterRows : ℕ := 25000

def maxErrorChars : ℕ := 200

/-- A sample, as it is written. -/
structure HfSample where
  monitorId : ℕ
  observedAt : ℤ
  ok : Bool
  verdict : JsString
  responseTimeMs : Option ℕ
  error : Option JsString
  deriving DecidableEq, Repr

/-- What the writer counts. -/
structure WriterStats where
  accepted : ℕ
  written : ℕ
  rejected : ℕ
  dropped : ℕ
  statements : ℕ
  pending : ℕ
  deriving DecidableEq, Repr

structure SampleWriter where
  buffer : List HfSample
  timer : Bool
  /-- The number of the statement that the flush in progress waits for. -/
  flushing : Option ℕ
  stopped : Bool
  stats : WriterStats
  deriving DecidableEq, Repr

/-- A writer, the statements that the database has not settled, all that were ever issued, the
`stop()` calls that have not returned, and whether one has. -/
structure State where
  writer : SampleWriter
  inserts : List (ℕ × List HfSample)
  issued : List (List HfSample)
  stops : ℕ
  stopReturned : Bool
  deriving DecidableEq, Repr

/-- What happens to the writer; statements settle at any time. -/
inductive Action where
  | add (sample : HfSample)
  | timerFires
  | insertSettles (statement : ℕ) (ok : Bool)
  | flushEnds
  | stop
  | stopReturns
  deriving DecidableEq, Repr

def SampleWriter.saturated (writer : SampleWriter) : Bool :=
  writer.buffer.length ≥ hfWriterHighWaterRows

def HfSample.truncated (sample : HfSample) : HfSample :=
  { sample with error := sample.error.map (·.take maxErrorChars) }

/-- `flush` up to where it waits; `write` has issued its statement there. -/
def flush (s : State) : State :=
  if s.writer.flushing.isSome then s
  else if s.writer.buffer.length = 0 then s
  else
    let batch := s.writer.buffer
    { s with
      writer := { s.writer with
        buffer := []
        timer := false
        flushing := some s.issued.length
        stats := { s.writer.stats with pending := 0 } }
      inserts := s.inserts ++ [(s.issued.length, batch)]
      issued := s.issued ++ [batch] }

def SampleWriter.accept (writer : SampleWriter) : SampleWriter :=
  { writer with stats := { writer.stats with accepted := writer.stats.accepted + 1 } }

def SampleWriter.reject (writer : SampleWriter) : SampleWriter :=
  { writer with stats := { writer.stats with rejected := writer.stats.rejected + 1 } }

def SampleWriter.push (writer : SampleWriter) (sample : HfSample) : SampleWriter :=
  { writer with
    buffer := writer.buffer ++ [sample.truncated]
    stats := { writer.stats with pending := writer.buffer.length + 1 } }

def add (s : State) (sample : HfSample) : State :=
  if s.writer.stopped then s
  else if s.writer.saturated then { s with writer := s.writer.accept.reject }
  else
    let writer := s.writer.accept.push sample
    if writer.buffer.length ≥ hfBatchRows then flush { s with writer := writer }
    else { s with writer := { writer with timer := true } }

/-- What `write` counts when its statement has succeeded or failed. -/
def SampleWriter.settle (writer : SampleWriter) (rows : ℕ) : Bool → SampleWriter
  | true => { writer with stats := { writer.stats with
      written := writer.stats.written + rows
      statements := writer.stats.statements + 1 } }
  | false => { writer with stats := { writer.stats with dropped := writer.stats.dropped + rows } }

def close (s : State) : State :=
  { s with writer := { s.writer with stopped := true, timer := false } }

/-- `stop` up to where it waits. -/
def stop (s : State) : State := { flush (close s) with stops := s.stops + 1 }

/-- A `stop()` returns when no flush is in progress: it waits for the one that it began or joined,
and then for the one in progress. -/
def step (s : State) : Action → Option State
  | .add sample => some (add s sample)
  | .timerFires =>
    if s.writer.timer then some (flush { s with writer := { s.writer with timer := false } })
    else none
  | .insertSettles statement ok => do
    let (_, batch) ← s.inserts.find? (·.1 = statement)
    some { s with
      writer := s.writer.settle batch.length ok
      inserts := s.inserts.eraseP (·.1 = statement) }
  | .flushEnds => do
    let statement ← s.writer.flushing
    if s.inserts.any (·.1 = statement) then none
    else some { s with writer := { s.writer with flushing := none } }
  | .stop => some (stop s)
  | .stopReturns =>
    if 0 < s.stops ∧ s.writer.flushing = none then
      some { s with stops := s.stops - 1, stopReturned := true }
    else none

def SampleWriter.new : SampleWriter where
  buffer := []
  timer := false
  flushing := none
  stopped := false
  stats := { accepted := 0, written := 0, rejected := 0, dropped := 0, statements := 0, pending := 0 }

def machine : Machine State Action where
  init := { writer := .new, inserts := [], issued := [], stops := 0, stopReturned := false }
  step := step

/-! ### What the operations do -/

theorem flush_cases (s : State) :
    (flush s = s ∧ (s.writer.flushing ≠ none ∨ s.writer.buffer = [])) ∨
    (s.writer.flushing = none ∧ s.writer.buffer ≠ [] ∧
      flush s = { s with
        writer := { s.writer with
          buffer := []
          timer := false
          flushing := some s.issued.length
          stats := { s.writer.stats with pending := 0 } }
        inserts := s.inserts ++ [(s.issued.length, s.writer.buffer)]
        issued := s.issued ++ [s.writer.buffer] }) := by
  unfold flush
  split
  · rename_i hflushing
    exact .inl ⟨rfl, .inl (Option.isSome_iff_ne_none.mp hflushing)⟩
  · rename_i hflushing
    split
    · rename_i hbuffer
      exact .inl ⟨rfl, .inr (List.length_eq_zero_iff.mp hbuffer)⟩
    · rename_i hbuffer
      refine .inr ⟨by simpa using hflushing, fun h => hbuffer (by rw [h]; rfl), rfl⟩

/-- A call of `add` is ignored, rejects its sample, or buffers it; then it flushes or sets the
timer. -/
theorem add_cases (s : State) (sample : HfSample) :
    (s.writer.stopped = true ∧ add s sample = s) ∨
    (s.writer.stopped = false ∧ hfWriterHighWaterRows ≤ s.writer.buffer.length ∧
      add s sample = { s with writer := s.writer.accept.reject }) ∨
    (s.writer.stopped = false ∧ s.writer.buffer.length < hfWriterHighWaterRows ∧
      (add s sample = flush { s with writer := s.writer.accept.push sample } ∨
        add s sample = { s with writer := { s.writer.accept.push sample with timer := true } })) := by
  unfold add
  split
  · rename_i hstopped
    exact .inl ⟨hstopped, rfl⟩
  · rename_i hstopped
    rw [Bool.not_eq_true] at hstopped
    split
    · rename_i hfull
      exact .inr (.inl ⟨hstopped, of_decide_eq_true hfull, rfl⟩)
    · rename_i hfull
      refine .inr (.inr ⟨hstopped, by simpa [SampleWriter.saturated] using hfull, ?_⟩)
      dsimp only
      split
      · exact .inl rfl
      · exact .inr rfl

theorem step_cases {s t : State} {a : Action} (h : step s a = some t) :
    (∃ sample, a = .add sample ∧ t = add s sample) ∨
    (a = .timerFires ∧ s.writer.timer = true ∧
      t = flush { s with writer := { s.writer with timer := false } }) ∨
    (∃ statement ok batch, a = .insertSettles statement ok ∧
      s.inserts.find? (·.1 = statement) = some (statement, batch) ∧
      t = { s with
        writer := s.writer.settle batch.length ok
        inserts := s.inserts.eraseP (·.1 = statement) }) ∨
    (∃ statement, a = .flushEnds ∧ s.writer.flushing = some statement ∧
      (∀ insert ∈ s.inserts, insert.1 ≠ statement) ∧
      t = { s with writer := { s.writer with flushing := none } }) ∨
    (a = .stop ∧ t = stop s) ∨
    (a = .stopReturns ∧ 0 < s.stops ∧ s.writer.flushing = none ∧
      t = { s with stops := s.stops - 1, stopReturned := true }) := by
  cases a with
  | add sample => exact .inl ⟨sample, rfl, (Option.some.inj h).symm⟩
  | timerFires =>
    obtain ⟨htimer, ht⟩ := Option.ite_none_right_eq_some.mp h
    exact .inr (.inl ⟨rfl, htimer, (Option.some.inj ht).symm⟩)
  | insertSettles statement ok =>
    obtain ⟨⟨k, batch⟩, hfind, ht⟩ := Option.bind_eq_some_iff.mp h
    obtain rfl : k = statement := by simpa using List.find?_some hfind
    exact .inr (.inr (.inl ⟨k, ok, batch, rfl, hfind, (Option.some.inj ht).symm⟩))
  | flushEnds =>
    obtain ⟨statement, hflushing, ht⟩ := Option.bind_eq_some_iff.mp h
    obtain ⟨hsettled, ht⟩ := Option.ite_none_left_eq_some.mp ht
    refine .inr (.inr (.inr (.inl ⟨statement, rfl, hflushing, ?_, (Option.some.inj ht).symm⟩)))
    exact fun insert hinsert heq => hsettled (List.any_eq_true.mpr ⟨insert, hinsert, by simpa using heq⟩)
  | stop => exact .inr (.inr (.inr (.inr (.inl ⟨rfl, (Option.some.inj h).symm⟩))))
  | stopReturns =>
    obtain ⟨⟨hstops, hflushing⟩, ht⟩ := Option.ite_none_right_eq_some.mp h
    exact .inr (.inr (.inr (.inr (.inr ⟨rfl, hstops, hflushing, (Option.some.inj ht).symm⟩))))

/-! ### Conservation -/

def inFlight (s : State) : ℕ := (s.inserts.map fun insert => insert.2.length).sum

/-- Every accepted sample is in one place, and a statement that is not settled is the one that the
flush in progress waits for. -/
structure Conserved (s : State) : Prop where
  counted : s.writer.stats.accepted = s.writer.stats.written + s.writer.stats.rejected +
    s.writer.stats.dropped + s.writer.buffer.length + inFlight s
  single : s.inserts = [] ∨
    ∃ statement batch, s.inserts = [(statement, batch)] ∧ s.writer.flushing = some statement

namespace Conserved

variable {s : State}

theorem inserts_eq_nil (h : Conserved s) (hidle : s.writer.flushing = none) : s.inserts = [] :=
  h.single.resolve_right fun ⟨statement, _, _, hflushing⟩ => by
    rw [hidle] at hflushing
    cases hflushing

theorem flush {s : State} (h : Conserved s) : Conserved (Writer.flush s) := by
  rcases flush_cases s with ⟨heq, -⟩ | ⟨hidle, -, heq⟩
  · rwa [heq]
  · have hnone := h.inserts_eq_nil hidle
    rw [heq]
    refine ⟨?_, .inr ⟨s.issued.length, s.writer.buffer, by rw [hnone]; rfl, rfl⟩⟩
    have hcounted := h.counted
    simp only [inFlight, hnone, List.map_nil, List.sum_nil, List.nil_append, List.map_cons,
      List.sum_cons, List.length_nil] at hcounted ⊢
    omega

theorem add (h : Conserved s) (sample : HfSample) : Conserved (Writer.add s sample) := by
  have hcounted := h.counted
  have hpushed : Conserved { s with writer := s.writer.accept.push sample } := by
    refine ⟨?_, h.single⟩
    simp only [SampleWriter.push, SampleWriter.accept, List.length_append, List.length_singleton,
      inFlight] at hcounted ⊢
    omega
  rcases add_cases s sample with ⟨-, heq⟩ | ⟨-, -, heq⟩ | ⟨-, -, heq | heq⟩
  · rwa [heq]
  · rw [heq]
    refine ⟨?_, h.single⟩
    simp only [SampleWriter.reject, SampleWriter.accept, inFlight] at hcounted ⊢
    omega
  · rw [heq]
    exact hpushed.flush
  · rw [heq]
    exact ⟨hpushed.counted, hpushed.single⟩

theorem settle (h : Conserved s) {statement : ℕ} {batch : List HfSample} (ok : Bool)
    (hfind : s.inserts.find? (·.1 = statement) = some (statement, batch)) : Conserved { s with
      writer := s.writer.settle batch.length ok
      inserts := s.inserts.eraseP (·.1 = statement) } := by
  rcases h.single with hnone | ⟨k, batch', hone, -⟩
  · rw [hnone] at hfind
    cases hfind
  · have hmem := List.mem_of_find?_eq_some hfind
    rw [hone, List.mem_singleton] at hmem
    cases hmem
    have herase : s.inserts.eraseP (·.1 = statement) = [] := by simp [hone]
    have hcounted := h.counted
    refine ⟨?_, .inl herase⟩
    cases ok
    all_goals
      simp only [inFlight, hone, List.map_cons, List.map_nil, List.sum_cons, List.sum_nil] at hcounted
      simp only [inFlight, herase, SampleWriter.settle, List.map_nil, List.sum_nil]
      omega

theorem step {s t : State} {a : Action} (h : Conserved s) (hstep : Writer.step s a = some t) :
    Conserved t := by
  rcases step_cases hstep with ⟨sample, rfl, rfl⟩ | ⟨rfl, -, rfl⟩ |
    ⟨statement, ok, batch, rfl, hfind, rfl⟩ | ⟨statement, rfl, hflushing, hsettled, rfl⟩ |
    ⟨rfl, rfl⟩ | ⟨rfl, -, -, rfl⟩
  · exact h.add sample
  · exact flush ⟨h.counted, h.single⟩
  · exact h.settle ok hfind
  · refine ⟨h.counted, .inl (h.single.resolve_right ?_)⟩
    rintro ⟨k, batch, hone, hk⟩
    obtain rfl := Option.some.inj (hflushing.symm.trans hk)
    exact hsettled (statement, batch) (hone ▸ List.mem_singleton_self _) rfl
  · have hflushed : Conserved (Writer.flush (close s)) := flush ⟨h.counted, h.single⟩
    exact ⟨hflushed.counted, hflushed.single⟩
  · exact ⟨h.counted, h.single⟩

theorem reachable (h : machine.Reachable s) : Conserved s :=
  h.induct ⟨rfl, .inl rfl⟩ fun _ _ _ _ hs hstep => hs.step hstep

theorem inserts_le_one (h : Conserved s) : s.inserts.length ≤ 1 := by
  rcases h.single with hnone | ⟨statement, batch, hone, -⟩
  · rw [hnone]
    exact Nat.zero_le 1
  · rw [hone]
    exact le_rfl

end Conserved

/-! ### Stopping -/

/-- A returned `stop()` has left nothing behind: each accepted sample was written, rejected or
counted as dropped. -/
def Drained (s : State) : Prop :=
  s.stopReturned = true → s.writer.buffer = [] ∧ s.inserts = [] ∧
    s.writer.stats.accepted =
      s.writer.stats.written + s.writer.stats.rejected + s.writer.stats.dropped

/-- `stop()` is called when no flush is in progress, or nothing is buffered. -/
def StopsIdle (s : State) : Action → Prop
  | .stop => s.writer.flushing = none ∨ s.writer.buffer = []
  | _ => True

instance (s : State) : DecidablePred (StopsIdle s)
  | .stop => inferInstanceAs (Decidable (_ ∨ _))
  | .add _ | .timerFires | .insertSettles _ _ | .flushEnds | .stopReturns => .isTrue trivial

/-- After a call of `stop()` nothing is buffered, and after its return no statement is left. -/
structure Quiet (s : State) : Prop where
  stopped : 0 < s.stops ∨ s.stopReturned = true → s.writer.stopped = true ∧ s.writer.buffer = []
  settled : s.stopReturned = true → s.inserts = []

variable {s : State}

theorem flush_of_nil (h : s.writer.buffer = []) : flush s = s :=
  (flush_cases s).elim And.left fun ⟨_, hbuffer, _⟩ => absurd h hbuffer

theorem add_of_stopped (h : s.writer.stopped = true) (sample : HfSample) : add s sample = s := by
  rw [add, if_pos h]

@[simp] theorem flush_stops (s : State) : (flush s).stops = s.stops := by
  rcases flush_cases s with ⟨heq, -⟩ | ⟨-, -, heq⟩
  · rw [heq]
  · rw [heq]

@[simp] theorem flush_stopReturned (s : State) : (flush s).stopReturned = s.stopReturned := by
  rcases flush_cases s with ⟨heq, -⟩ | ⟨-, -, heq⟩
  · rw [heq]
  · rw [heq]

@[simp] theorem flush_stopped (s : State) : (flush s).writer.stopped = s.writer.stopped := by
  rcases flush_cases s with ⟨heq, -⟩ | ⟨-, -, heq⟩
  · rw [heq]
  · rw [heq]

theorem add_stops (s : State) (sample : HfSample) :
    (add s sample).stops = s.stops ∧ (add s sample).stopReturned = s.stopReturned := by
  rcases add_cases s sample with ⟨-, heq⟩ | ⟨-, -, heq⟩ | ⟨-, -, heq | heq⟩
  all_goals simp [heq]

theorem Quiet.flush {s : State} (h : Quiet s) : Quiet (Writer.flush s) := by
  rcases flush_cases s with ⟨heq, -⟩ | ⟨-, hbuffer, heq⟩
  · rwa [heq]
  · have hrunning : ¬(0 < s.stops ∨ s.stopReturned = true) := fun hstop =>
      hbuffer (h.stopped hstop).2
    rw [heq]
    exact ⟨fun hstop => absurd hstop hrunning, fun hreturned => absurd (.inr hreturned) hrunning⟩

theorem Quiet.add (h : Quiet s) (sample : HfSample) : Quiet (Writer.add s sample) := by
  obtain ⟨hstops, hreturned⟩ := add_stops s sample
  by_cases hstopped : s.writer.stopped = true
  · rwa [add_of_stopped hstopped]
  · refine ⟨fun hstop => ?_, fun hret => ?_⟩
    · rw [hstops, hreturned] at hstop
      exact absurd (h.stopped hstop).1 hstopped
    · rw [hreturned] at hret
      exact absurd (h.stopped (.inr hret)).1 hstopped

theorem stop_buffer (h : StopsIdle s .stop) : (stop s).writer.buffer = [] := by
  rcases flush_cases (close s) with ⟨heq, hnothing⟩ | ⟨-, -, heq⟩
  · rw [stop, heq]
    exact h.elim (fun hidle => hnothing.resolve_left (not_not_intro hidle)) id
  · rw [stop, heq]

theorem Quiet.stop (h : Quiet s) (hidle : StopsIdle s .stop) : Quiet (Writer.stop s) := by
  refine ⟨fun _ => ⟨by simp [Writer.stop, close], stop_buffer hidle⟩, fun hreturned => ?_⟩
  have hbefore : s.stopReturned = true := by simpa [Writer.stop, close] using hreturned
  have hnothing : Writer.flush (close s) = close s := flush_of_nil (h.stopped (.inr hbefore)).2
  rw [Writer.stop, hnothing]
  exact h.settled hbefore

theorem Quiet.step {s t : State} {a : Action} (h : Quiet s) (hconserved : Conserved s)
    (hidle : StopsIdle s a) (hstep : Writer.step s a = some t) : Quiet t := by
  rcases step_cases hstep with ⟨sample, rfl, rfl⟩ | ⟨rfl, -, rfl⟩ |
    ⟨statement, ok, batch, rfl, -, rfl⟩ | ⟨statement, rfl, -, -, rfl⟩ | ⟨rfl, rfl⟩ |
    ⟨rfl, hstops, hflushing, rfl⟩
  · exact h.add sample
  · exact Quiet.flush ⟨h.stopped, h.settled⟩
  · refine ⟨fun hstop => ?_, fun hreturned => ?_⟩
    · cases ok
      all_goals exact h.stopped hstop
    · dsimp only
      rw [h.settled hreturned]
      rfl
  · exact ⟨h.stopped, h.settled⟩
  · exact h.stop hidle
  · exact ⟨fun _ => h.stopped (.inl hstops), fun _ => hconserved.inserts_eq_nil hflushing⟩

theorem Quiet.drained (h : Quiet s) (hconserved : Conserved s) : Drained s := by
  intro hreturned
  have hbuffer := (h.stopped (.inr hreturned)).2
  have hinserts := h.settled hreturned
  refine ⟨hbuffer, hinserts, ?_⟩
  have hcounted := hconserved.counted
  rwa [hbuffer, inFlight, hinserts] at hcounted

theorem drained_of_stopsIdle {acts : List Action} (h : machine.EachStep acts StopsIdle) :
    machine.Always acts Drained := by
  have hquiet : machine.Always acts fun s => Conserved s ∧ Quiet s :=
    Machine.Always.of_eachStep
      ⟨.reachable .init, by simp [machine], by simp [machine]⟩
      (fun s a t hs hP hidle hstep => ⟨hP.1.step hstep, hP.2.step hP.1 hidle hstep⟩) h
  exact fun visited hpre s hs => (hquiet visited hpre s hs).2.drained (hquiet visited hpre s hs).1

/-- What a stop that joins a flush leaves in the buffer stays there. -/
structure LeftBehind (left : List HfSample) (s : State) : Prop where
  stopped : s.writer.stopped = true
  timer : s.writer.timer = false
  buffer : s.writer.buffer = left

theorem LeftBehind.of_stop (h : ¬StopsIdle s .stop) : LeftBehind s.writer.buffer (stop s) := by
  obtain ⟨hflushing, -⟩ := not_or.mp h
  rcases flush_cases (close s) with ⟨heq, -⟩ | ⟨hidle, -, -⟩
  · rw [stop, heq]
    exact ⟨rfl, rfl, rfl⟩
  · exact absurd hidle hflushing

theorem LeftBehind.step {left : List HfSample} {s t : State} {a : Action} (h : LeftBehind left s)
    (ha : a ≠ .stop) (hstep : Writer.step s a = some t) : LeftBehind left t := by
  rcases step_cases hstep with ⟨sample, rfl, rfl⟩ | ⟨rfl, htimer, rfl⟩ |
    ⟨statement, ok, batch, rfl, -, rfl⟩ | ⟨statement, rfl, -, -, rfl⟩ | ⟨rfl, rfl⟩ |
    ⟨rfl, -, -, rfl⟩
  · rwa [add_of_stopped h.stopped]
  · rw [h.timer] at htimer
    cases htimer
  · cases ok
    all_goals exact ⟨h.stopped, h.timer, h.buffer⟩
  · exact ⟨h.stopped, h.timer, h.buffer⟩
  · exact absurd rfl ha
  · exact ⟨h.stopped, h.timer, h.buffer⟩

theorem left_behind {visited after : List Action} {s t : State}
    (hs : machine.exec visited = some s) (hbusy : ¬StopsIdle s .stop) (hafter : .stop ∉ after)
    (ht : machine.exec (visited ++ .stop :: after) = some t) :
    t.writer.buffer = s.writer.buffer := by
  rw [Machine.exec, List.foldlM_append] at ht
  obtain ⟨r, hr, hrest⟩ := Option.bind_eq_some_iff.mp ht
  obtain rfl := Option.some.inj (hs.symm.trans hr)
  have hrun : machine.execFrom (stop s) after = some t := hrest
  have hleft : LeftBehind s.writer.buffer t :=
    Machine.execFrom_induct hrun (LeftBehind.of_stop hbusy)
      fun _ a _ ha hP hstep => hP.step (fun heq => hafter (heq ▸ ha)) hstep
  exact hleft.buffer

/-- Every run conserves the samples and has one insert in flight at most.  Where each stop is idle, a
returned stop has drained the writer; one that is not leaves what is buffered, for as long as there
is no further stop. -/
theorem samples_conserved (acts : List Action) :
    (∀ s, machine.exec acts = some s → s.writer.stats.accepted = s.writer.stats.written +
      s.writer.stats.rejected + s.writer.stats.dropped + s.writer.buffer.length + inFlight s ∧
      s.inserts.length ≤ 1) ∧
    (machine.EachStep acts StopsIdle → machine.Always acts Drained) ∧
    (∀ visited after s t, acts = visited ++ .stop :: after → machine.exec visited = some s →
      ¬StopsIdle s .stop → .stop ∉ after → machine.exec acts = some t →
      t.writer.buffer = s.writer.buffer ∧ t.writer.buffer ≠ []) := by
  refine ⟨fun s hs => ?_, drained_of_stopsIdle, fun visited after s t hacts hs hbusy hafter ht => ?_⟩
  · have h := Conserved.reachable ⟨acts, hs⟩
    exact ⟨h.counted, h.inserts_le_one⟩
  · subst hacts
    have hbuffer := left_behind hs hbusy hafter ht
    exact ⟨hbuffer, hbuffer ▸ (not_or.mp hbusy).2⟩

def sampleAt (t : ℤ) : HfSample :=
  { monitorId := 1, observedAt := t, ok := true, verdict := js "up", responseTimeMs := some 12
    error := none }

/-- A stop that comes while a flush waits for its insert, with one more sample buffered. -/
def busyStop : List Action :=
  [.add (sampleAt 0), .timerFires, .add (sampleAt 500), .stop, .insertSettles 0 true, .flushEnds,
    .stopReturns]

theorem busyStop_not_drained :
    (machine.exec busyStop).isSome = true ∧ ¬Drained (machine.reached busyStop) :=
  ⟨by decide +kernel, fun h => absurd (h (by decide +kernel)).1 (by decide +kernel)⟩

/-- The same run, with the stop after the flush has ended. -/
theorem samples_conserved_idleStop :
    machine.Always [.add (sampleAt 0), .timerFires, .add (sampleAt 500), .insertSettles 0 false,
      .flushEnds, .stop, .insertSettles 1 true, .flushEnds, .stopReturns] Drained :=
  (samples_conserved _).2.1 (.of_checks (fun _ _ => of_decide_eq_true) (by decide +kernel))

end Vigil.HighFreq.Writer
