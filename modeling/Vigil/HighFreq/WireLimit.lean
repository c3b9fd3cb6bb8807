import Vigil.HighFreq.Writer

/-! The parameters that the inserts of `SampleWriter` bind.  A statement takes the whole buffer, and
the buffer is bounded by its high-water mark, not by the batch size: it grows while a flush waits. -/

namespace Vigil.HighFreq.WireLimit

open Lib Writer

/-- The columns of `monitor_hf_samples`: a row binds a value for each. -/
def columns : List String :=
  ["monitor_id", "observed_at", "ok", "verdict", "response_time_ms", "error"]

def parameters (batch : List HfSample) : ℕ := batch.length * columns.length

/-- What one `Bind` message takes. -/
def maxParameters : ℕ := 65535

/-- The rows that fit in one statement. -/
def maxRows : ℕ := maxParameters / columns.length

/-- Every statement that was issued fits in one message. -/
def FitsWire (s : State) : Prop := ∀ batch ∈ s.issued, parameters batch ≤ maxParameters

/-- No sample is added to a buffer that already holds all that fits in one statement. -/
def AddsInRoom (s : State) : Action → Prop
  | .add _ => s.writer.stopped = true ∨ s.writer.buffer.length < maxRows
  | _ => True

instance (s : State) : DecidablePred (AddsInRoom s)
  | .add _ => inferInstanceAs (Decidable (_ ∨ _))
  | .timerFires | .insertSettles _ _ | .flushEnds | .stop | .stopReturns => .isTrue trivial

theorem parameters_le_iff (batch : List HfSample) :
    parameters batch ≤ maxParameters ↔ batch.length ≤ maxRows := by
  rw [parameters, maxRows, Nat.le_div_iff_mul_le (by decide)]

/-- Every statement fits, and so does the next one. -/
structure InRoom (s : State) : Prop where
  issued : ∀ batch ∈ s.issued, batch.length ≤ maxRows
  buffer : s.writer.buffer.length ≤ maxRows

theorem InRoom.flush {s : State} (h : InRoom s) : InRoom (Writer.flush s) := by
  rcases flush_cases s with ⟨heq, -⟩ | ⟨-, -, heq⟩
  · rwa [heq]
  · rw [heq]
    refine ⟨fun batch hbatch => ?_, Nat.zero_le _⟩
    rcases List.mem_append.mp hbatch with hold | hnew
    · exact h.issued batch hold
    · rw [List.mem_singleton.mp hnew]
      exact h.buffer

variable {s : State} {rows : ℕ}

theorem InRoom.add (h : InRoom s) {sample : HfSample} (hroom : AddsInRoom s (.add sample)) :
    InRoom (Writer.add s sample) := by
  rcases add_cases s sample with ⟨-, heq⟩ | ⟨-, -, heq⟩ | ⟨hrunning, -, hpushed⟩
  · rwa [heq]
  · rw [heq]
    exact ⟨h.issued, h.buffer⟩
  · have hlt : s.writer.buffer.length < maxRows := hroom.resolve_left (by simp [hrunning])
    have hbuffer : (s.writer.buffer ++ [sample.truncated]).length ≤ maxRows := by
      rw [List.length_append]
      exact hlt
    rcases hpushed with heq | heq
    · rw [heq]
      exact InRoom.flush ⟨h.issued, hbuffer⟩
    · rw [heq]
      exact ⟨h.issued, hbuffer⟩

theorem InRoom.step {s t : State} {a : Action} (h : InRoom s) (hroom : AddsInRoom s a)
    (hstep : Writer.step s a = some t) : InRoom t := by
  rcases step_cases hstep with ⟨sample, rfl, rfl⟩ | ⟨rfl, -, rfl⟩ |
    ⟨statement, ok, batch, rfl, -, rfl⟩ | ⟨statement, rfl, -, -, rfl⟩ | ⟨rfl, rfl⟩ |
    ⟨rfl, -, -, rfl⟩
  · exact h.add hroom
  · exact InRoom.flush ⟨h.issued, h.buffer⟩
  · cases ok
    all_goals exact ⟨h.issued, h.buffer⟩
  · exact ⟨h.issued, h.buffer⟩
  · have hflushed : InRoom (Writer.flush (close s)) := InRoom.flush ⟨h.issued, h.buffer⟩
    exact ⟨hflushed.issued, hflushed.buffer⟩
  · exact ⟨h.issued, h.buffer⟩

/-- In a run that adds no sample to a buffer of 10,922 every statement fits. -/
theorem statements_fit {acts : List Action} (h : machine.EachStep acts AddsInRoom) :
    machine.Always acts FitsWire := by
  have hroom : machine.Always acts InRoom :=
    Machine.Always.of_eachStep ⟨nofun, Nat.zero_le _⟩
      (fun _ _ _ _ hs hadds hstep => hs.step hadds hstep) h
  exact fun visited hpre s hs batch hbatch =>
    (parameters_le_iff batch).mpr ((hroom visited hpre s hs).issued batch hbatch)

/-! ### A buffer that has grown too large -/

/-- No statement was issued since `issued`, and what is buffered does not fit in one; or one was
issued that does not fit. -/
def Overfull (issued : List (List HfSample)) (s : State) : Prop :=
  s.issued = issued ∧ maxRows < s.writer.buffer.length ∨ ¬FitsWire s

theorem Overfull.flush {issued : List (List HfSample)} {s : State} (h : Overfull issued s) :
    Overfull issued (Writer.flush s) := by
  rcases flush_cases s with ⟨heq, -⟩ | ⟨-, -, heq⟩
  · rwa [heq]
  · right
    rw [heq]
    intro hfits
    rcases h with ⟨-, hlarge⟩ | hbefore
    · exact absurd ((parameters_le_iff _).mp (hfits s.writer.buffer (by simp)))
        (Nat.not_le_of_lt hlarge)
    · exact hbefore fun batch hbatch => hfits batch (List.mem_append_left _ hbatch)

theorem Overfull.add {issued : List (List HfSample)} (h : Overfull issued s) (sample : HfSample) :
    Overfull issued (Writer.add s sample) := by
  have hpushed : Overfull issued { s with writer := s.writer.accept.push sample } :=
    h.imp_left fun ⟨hsame, hlarge⟩ => ⟨hsame, by
      rw [SampleWriter.push, List.length_append]
      exact Nat.lt_add_right _ hlarge⟩
  rcases add_cases s sample with ⟨-, heq⟩ | ⟨-, -, heq⟩ | ⟨-, -, heq | heq⟩
  · rwa [heq]
  · rwa [heq]
  · rw [heq]
    exact hpushed.flush
  · rwa [heq]

theorem Overfull.step {issued : List (List HfSample)} {s t : State} {a : Action}
    (h : Overfull issued s) (hstep : Writer.step s a = some t) : Overfull issued t := by
  rcases step_cases hstep with ⟨sample, rfl, rfl⟩ | ⟨rfl, -, rfl⟩ |
    ⟨statement, ok, batch, rfl, -, rfl⟩ | ⟨statement, rfl, -, -, rfl⟩ | ⟨rfl, rfl⟩ |
    ⟨rfl, -, -, rfl⟩
  · exact h.add sample
  · exact Overfull.flush h
  · cases ok
    all_goals exact h
  · exact h
  · exact @Overfull.flush issued (close s) h
  · exact h

/-- When no sample is added to a buffer of 10,922, every statement fits.  Once the buffer holds
more, the next statement does not. -/
theorem statements_fit_wire (acts : List Action) :
    (machine.EachStep acts AddsInRoom → machine.Always acts FitsWire) ∧
    (∀ s t, maxRows < s.writer.buffer.length → machine.execFrom s acts = some t →
      t.issued = s.issued ∨ ¬FitsWire t) := by
  refine ⟨statements_fit, fun s t hlarge ht => ?_⟩
  have hover : Overfull s.issued t :=
    Machine.execFrom_induct ht (.inl ⟨rfl, hlarge⟩) fun _ _ _ _ hr hstep => hr.step hstep
  exact hover.imp_left And.left

/-! ### A run that sends too much -/

/-- The first flush waits for its insert, and `rows` samples are buffered meanwhile. -/
structure Waiting (rows : ℕ) (s : State) : Prop where
  running : s.writer.stopped = false
  flushing : s.writer.flushing = some 0
  timer : s.writer.timer = true
  inserts : ∃ batch, s.inserts = [(0, batch)]
  buffer : s.writer.buffer.length = rows

theorem Waiting.add (h : Waiting rows s) (hroom : rows < hfWriterHighWaterRows)
    (sample : HfSample) : Waiting (rows + 1) (Writer.add s sample) := by
  have hlength : (s.writer.buffer ++ [sample.truncated]).length = rows + 1 := by
    rw [List.length_append, h.buffer]
    rfl
  rcases add_cases s sample with ⟨hstopped, -⟩ | ⟨-, hfull, -⟩ | ⟨-, -, hpushed⟩
  · rw [h.running] at hstopped
    cases hstopped
  · rw [h.buffer] at hfull
    exact absurd hroom (Nat.not_lt_of_le hfull)
  · rcases hpushed with heq | heq
    · have hjoin : flush { s with writer := s.writer.accept.push sample } =
          { s with writer := s.writer.accept.push sample } := by
        rw [flush, if_pos]
        exact Option.isSome_iff_ne_none.mpr fun hidle => by
          cases h.flushing.symm.trans hidle
      rw [heq, hjoin]
      exact ⟨h.running, h.flushing, h.timer, h.inserts, hlength⟩
    · rw [heq]
      exact ⟨h.running, h.flushing, rfl, h.inserts, hlength⟩

theorem Waiting.adds (h : Waiting rows s) (sample : HfSample) (n : ℕ)
    (hroom : rows + n ≤ hfWriterHighWaterRows) :
    ∃ t, machine.execFrom s (List.replicate n (.add sample)) = some t ∧ Waiting (rows + n) t := by
  induction n generalizing rows s with
  | zero => exact ⟨s, rfl, h⟩
  | succ n ih =>
    obtain ⟨t, ht, hwaiting⟩ := ih (h.add (by omega) sample) (by omega)
    exact ⟨t, ht, by rwa [Nat.add_assoc, Nat.add_comm 1] at hwaiting⟩

/-- When the insert has settled, the timer sends all that is buffered in one statement. -/
theorem Waiting.sends (h : Waiting rows s) (hrows : rows ≠ 0) :
    ∃ t, machine.execFrom s [.insertSettles 0 true, .flushEnds, .timerFires] = some t ∧
      s.writer.buffer ∈ t.issued := by
  obtain ⟨⟨buffer, timer, flushing, stopped, stats⟩, inserts, issued, stops, stopReturned⟩ := s
  obtain ⟨rfl, rfl, rfl, ⟨batch, rfl⟩, rfl⟩ := h
  refine ⟨_, rfl, ?_⟩
  have hbuffer : buffer ≠ [] := fun h => hrows (by rw [h]; rfl)
  simp [flush, SampleWriter.settle, hbuffer]

def longFlush : List Action :=
  [.add (sampleAt 0), .timerFires, .add (sampleAt 1)] ++
    (List.replicate 10922 (.add (sampleAt 2)) ++ [.insertSettles 0 true, .flushEnds, .timerFires])

theorem longFlush_does_not_fit : ∃ s, machine.exec longFlush = some s ∧ ¬FitsWire s := by
  obtain ⟨s, hs, hwaiting⟩ : ∃ s, machine.exec [.add (sampleAt 0), .timerFires, .add (sampleAt 1)] =
      some s ∧ Waiting 1 s :=
    ⟨_, rfl, rfl, rfl, rfl, ⟨_, rfl⟩, rfl⟩
  obtain ⟨r, hr, hfull⟩ := hwaiting.adds (sampleAt 2) 10922 (by decide)
  obtain ⟨t, ht, hissued⟩ := hfull.sends (by decide)
  refine ⟨t, Machine.exec_append_eq_some hs ?_, fun hfits => ?_⟩
  · rw [Machine.execFrom, List.foldlM_append]
    exact Option.bind_eq_some_iff.mpr ⟨r, hr, ht⟩
  · have hrows := (parameters_le_iff _).mp (hfits _ hissued)
    rw [hfull.buffer] at hrows
    exact absurd hrows (by decide)

/-- A run with two statements, of one sample and of two. -/
theorem statements_fit_wire_shortFlush :
    machine.Always [.add (sampleAt 0), .timerFires, .add (sampleAt 1), .add (sampleAt 2),
      .insertSettles 0 true, .flushEnds, .timerFires] FitsWire :=
  (statements_fit_wire _).1 (.of_checks (fun _ _ => of_decide_eq_true) (by decide +kernel))

end Vigil.HighFreq.WireLimit
