import Vigil.Lib.Entries
import Mathlib.Data.List.Pairwise
import Mathlib.Data.List.Sort

/-! The rate limiter of one process.  `checkRateLimit` keeps the attempts of a key that are inside
its window, refuses a key that has as many of them as it may, and sweeps the map from time to time.
The limiter that it is compared with remembers every allowed call. -/

namespace Vigil.Limits.RateLimit

open Lib.Entries

/-- How many attempts a key has in how many milliseconds.  With none at all the newest attempt of a
refused key would not be there. -/
structure Rate where
  limit : ℕ
  windowMs : ℤ
  positive : 1 ≤ limit

structure Window where
  /-- Oldest first. -/
  hits : List ℤ
  expiresAt : ℤ

variable {Key : Type} [DecidableEq Key]

structure Limiter (Key : Type) where
  windows : List (Key × Window) := []
  sinceSweep : ℕ := 0

/-- A call of a key under a rate at an instant. -/
structure Call (Key : Type) where
  key : Key
  rate : Rate
  now : ℤ

/-- What the map is trimmed back to. -/
def target : ℕ := 10000

/-- The keys that the map never holds more of. -/
def hardCap : ℕ := 20000

def sweepEvery : ℕ := 1000

omit [DecidableEq Key] in
def expired (windows : List (Key × Window)) (now : ℤ) : List (Key × Window) :=
  windows.filter fun entry => ¬entry.2.expiresAt ≤ now

/-- The keys whose windows expire soonest, as many as there are above `target`. -/
def evicted (windows : List (Key × Window)) : List Key :=
  let byExpiry := windows.mergeSort fun a b => a.2.expiresAt ≤ b.2.expiresAt
  (byExpiry.take (windows.length - target)).map (·.1)

def sweep (now : ℤ) (limiter : Limiter Key) : Limiter Key :=
  let windows := expired limiter.windows now
  if windows.length ≤ hardCap then ⟨windows, 0⟩
  else ⟨windows.filter fun entry => entry.1 ∉ evicted windows, 0⟩

def hitsOf (limiter : Limiter Key) (key : Key) : List ℤ :=
  match limiter.windows.lookup key with
  | none => []
  | some window => window.hits

/-- The attempts of the key of a call that are inside its window. -/
def recent (limiter : Limiter Key) (call : Call Key) : List ℤ :=
  (hitsOf limiter call.key).filter fun ts => ts > call.now - call.rate.windowMs

/-- The answer to a call and the map that has the call in it, before it is swept. -/
def record (limiter : Limiter Key) (call : Call Key) : Bool × Limiter Key :=
  let hits := recent limiter call
  if hfull : hits.length ≥ call.rate.limit then
    let newest := hits.getLast (List.ne_nil_of_length_pos (call.rate.positive.trans hfull))
    let window : Window := ⟨hits, newest + call.rate.windowMs⟩
    (false, { limiter with windows := set call.key window limiter.windows })
  else
    let window : Window := ⟨hits ++ [call.now], call.now + call.rate.windowMs⟩
    (true, ⟨set call.key window limiter.windows, limiter.sinceSweep + 1⟩)

def checkRateLimit (limiter : Limiter Key) (call : Call Key) : Bool × Limiter Key :=
  match record limiter call with
  | (false, recorded) => (false, recorded)
  | (true, recorded) =>
    if recorded.windows.length > hardCap ∨ recorded.sinceSweep ≥ sweepEvery then
      (true, sweep call.now recorded)
    else (true, recorded)

/-- The limiter after some calls. -/
def after (limiter : Limiter Key) (calls : List (Call Key)) : Limiter Key :=
  calls.foldl (fun limiter call => (checkRateLimit limiter call).2) limiter

def answers (limiter : Limiter Key) : List (Call Key) → List Bool
  | [] => []
  | call :: rest =>
    (checkRateLimit limiter call).1 :: answers (checkRateLimit limiter call).2 rest

/-! ### A limiter that removes nothing -/

/-- The allowed calls of a key that are later than an instant. -/
def since (log : List (Call Key)) (key : Key) (instant : ℤ) : List (Call Key) :=
  log.filter fun call => call.key = key ∧ instant < call.now

/-- A call is allowed while fewer than `limit` calls of its key were allowed inside its window. -/
def allows (log : List (Call Key)) (call : Call Key) : Bool :=
  (since log call.key (call.now - call.rate.windowMs)).length < call.rate.limit

/-- The allowed calls after one more call. -/
def remember (log : List (Call Key)) (call : Call Key) : List (Call Key) :=
  if allows log call then log ++ [call] else log

def allowed (log : List (Call Key)) (calls : List (Call Key)) : List (Call Key) :=
  calls.foldl remember log

def ledgerAnswers (log : List (Call Key)) : List (Call Key) → List Bool
  | [] => []
  | call :: rest => allows log call :: ledgerAnswers (remember log call) rest

/-- The code without its sweep. -/
def unsweptAnswers (limiter : Limiter Key) : List (Call Key) → List Bool
  | [] => []
  | call :: rest => (record limiter call).1 :: unsweptAnswers (record limiter call).2 rest

/-- The calls that were answered with `true`. -/
def granted (calls : List (Call Key)) (answers : List Bool) : List (Call Key) :=
  ((calls.zip answers).filter (·.2)).map (·.1)

/-- The map never has more than `hardCap` keys, with each call in it and not swept yet. -/
def Fits (limiter : Limiter Key) : List (Call Key) → Prop
  | [] => True
  | call :: rest =>
    (record limiter call).2.windows.length ≤ hardCap ∧ Fits (checkRateLimit limiter call).2 rest

/-! ### What the map remembers -/

variable {window : Key → ℤ} {log : List (Call Key)} {limiter : Limiter Key} {clock : ℤ}
  {call : Call Key} {calls : List (Call Key)}

/-- At the instant `clock` the map has every allowed call that can still count, and a window does
not expire before its hits are out of it. -/
structure Tracks (window : Key → ℤ) (log : List (Call Key)) (limiter : Limiter Key) (clock : ℤ) :
    Prop where
  keys : (limiter.windows.map (·.1)).Nodup
  hits : ∀ key instant, clock - window key ≤ instant →
    (hitsOf limiter key).filter (instant < ·) = (since log key instant).map (·.now)
  sorted : ∀ key, (hitsOf limiter key).Pairwise (· ≤ ·)
  past : ∀ key, ∀ hit ∈ hitsOf limiter key, hit ≤ clock
  expiry : ∀ key entry, limiter.windows.lookup key = some entry →
    ∀ hit ∈ entry.hits, hit + window key ≤ entry.expiresAt

theorem tracks_start (window : Key → ℤ) (clock : ℤ) : Tracks window [] {} clock where
  keys := List.nodup_nil
  hits := fun _ _ _ => rfl
  sorted := fun _ => .nil
  past := nofun
  expiry := fun _ _ h => nomatch h

theorem hitsOf_set (h : (limiter.windows.map (·.1)).Nodup) (key : Key) (entry : Window) (n : ℕ)
    (other : Key) :
    hitsOf ⟨set key entry limiter.windows, n⟩ other =
      if other = key then entry.hits else hitsOf limiter other := by
  unfold hitsOf
  rw [lookup_set h]
  by_cases heq : other = key
  · rw [if_pos heq, if_pos heq]
  · rw [if_neg heq, if_neg heq]

theorem Tracks.set_step (h : Tracks window log limiter clock) {now : ℤ} (hclock : clock ≤ now) {key : Key}
    {entry : Window} {log' : List (Call Key)} (n : ℕ)
    (hothers : ∀ other ≠ key, ∀ instant, since log' other instant = since log other instant)
    (hhits : ∀ instant, now - window key ≤ instant →
      entry.hits.filter (instant < ·) = (since log' key instant).map (·.now))
    (hsorted : entry.hits.Pairwise (· ≤ ·)) (hpast : ∀ hit ∈ entry.hits, hit ≤ now)
    (hexpiry : ∀ hit ∈ entry.hits, hit + window key ≤ entry.expiresAt) :
    Tracks window log' ⟨set key entry limiter.windows, n⟩ now where
  keys := nodup_set h.keys key entry
  hits := by
    intro other instant hinstant
    rw [hitsOf_set h.keys]
    split
    · rename_i heq
      subst heq
      exact hhits instant hinstant
    · rename_i hne
      rw [hothers other hne]
      exact h.hits other instant (by omega)
  sorted := by
    intro other
    rw [hitsOf_set h.keys]
    split
    · exact hsorted
    · exact h.sorted other
  past := by
    intro other hit hhit
    rw [hitsOf_set h.keys] at hhit
    split at hhit
    · exact hpast hit hhit
    · exact (h.past other hit hhit).trans hclock
  expiry := by
    intro other found hfound
    rw [lookup_set h.keys] at hfound
    split at hfound
    · rename_i heq
      subst heq
      cases hfound
      exact hexpiry
    · exact h.expiry other found hfound

theorem record_full (hfull : call.rate.limit ≤ (recent limiter call).length) :
    record limiter call = (false, { limiter with
      windows := set call.key ⟨recent limiter call, (recent limiter call).getLast
        (List.ne_nil_of_length_pos (call.rate.positive.trans hfull)) + call.rate.windowMs⟩
        limiter.windows }) :=
  dif_pos hfull

theorem record_room (hroom : ¬call.rate.limit ≤ (recent limiter call).length) :
    record limiter call = (true,
      ⟨set call.key ⟨recent limiter call ++ [call.now], call.now + call.rate.windowMs⟩
        limiter.windows, limiter.sinceSweep + 1⟩) :=
  dif_neg hroom

theorem since_concat (log : List (Call Key)) (call : Call Key) (key : Key) (instant : ℤ) :
    since (log ++ [call]) key instant =
      since log key instant ++ if call.key = key ∧ instant < call.now then [call] else [] := by
  rw [since, List.filter_append, List.filter_singleton]
  by_cases hnew : call.key = key ∧ instant < call.now
  · rw [if_pos hnew, decide_eq_true hnew]
    rfl
  · rw [if_neg hnew, decide_eq_false hnew]
    rfl

section Record

variable (h : Tracks window log limiter clock) (hclock : clock ≤ call.now)
  (hwindow : call.rate.windowMs = window call.key)

include h hclock hwindow

theorem Tracks.recent_eq :
    recent limiter call =
      (since log call.key (call.now - call.rate.windowMs)).map (·.now) := by
  apply h.hits
  omega

theorem Tracks.room_iff :
    allows log call = true ↔ ¬call.rate.limit ≤ (recent limiter call).length := by
  rw [h.recent_eq hclock hwindow, List.length_map, Nat.not_le, allows, decide_eq_true_eq]

theorem Tracks.record_answer : (record limiter call).1 = allows log call := by
  have hroom := h.room_iff hclock hwindow
  by_cases hfull : call.rate.limit ≤ (recent limiter call).length
  · rw [record_full hfull]
    exact (Bool.eq_false_iff.mpr fun hallows => hroom.mp hallows hfull).symm
  · rw [record_room hfull]
    exact (hroom.mpr hfull).symm

theorem Tracks.recent_filter {instant : ℤ} (hinstant : call.now - window call.key ≤ instant) :
    (recent limiter call).filter (instant < ·) =
      (since log call.key instant).map (·.now) := by
  rw [← h.hits call.key instant (by omega), recent, List.filter_filter]
  refine List.filter_congr fun hit _ => ?_
  simp only [Bool.and_eq_left_iff_imp, decide_eq_true_eq, hwindow]
  omega

theorem Tracks.record_step :
    Tracks window (remember log call) (record limiter call).2 call.now := by
  have hroom := h.room_iff hclock hwindow
  have hsub : (recent limiter call).Sublist (hitsOf limiter call.key) :=
    List.filter_sublist
  have hsorted := (h.sorted call.key).sublist hsub
  have hpast : ∀ hit ∈ recent limiter call, hit ≤ call.now :=
    fun hit hhit => (h.past call.key hit (hsub.subset hhit)).trans hclock
  by_cases hfull : call.rate.limit ≤ (recent limiter call).length
  · rw [record_full hfull, remember, if_neg fun hallows => hroom.mp hallows hfull]
    refine h.set_step hclock _ (fun _ _ _ => rfl) (fun _ => h.recent_filter hclock hwindow) hsorted
      hpast fun hit hhit => ?_
    have hlast := hsorted.rel_getLast hhit
    rw [hwindow]
    exact Int.add_le_add_right hlast _
  · rw [record_room hfull, remember, if_pos (hroom.mpr hfull)]
    refine h.set_step hclock _ (fun other hother instant => ?_) (fun instant hinstant => ?_) ?_ ?_ ?_
    · rw [since_concat, if_neg fun hsame => hother hsame.1.symm, List.append_nil]
    · rw [since_concat, List.filter_append, h.recent_filter hclock hwindow hinstant,
        List.filter_singleton]
      by_cases hlater : instant < call.now <;> simp [hlater]
    · refine List.pairwise_append.mpr ⟨hsorted, List.pairwise_singleton _ _, ?_⟩
      intro hit hhit now hnow
      rw [List.mem_singleton.mp hnow]
      exact hpast hit hhit
    · intro hit hhit
      rcases List.mem_append.mp hhit with hhit | hhit
      · exact hpast hit hhit
      · rw [List.mem_singleton.mp hhit]
    · intro hit hhit
      have hle : hit ≤ call.now := by
        rcases List.mem_append.mp hhit with hhit | hhit
        · exact hpast hit hhit
        · rw [List.mem_singleton.mp hhit]
      rw [hwindow]
      exact Int.add_le_add_right hle _

end Record

/-! ### The sweep -/

omit [DecidableEq Key] in
theorem length_expired_le (windows : List (Key × Window)) (now : ℤ) :
    (expired windows now).length ≤ windows.length :=
  List.length_filter_le _ _

theorem sweep_of_fits (hfits : limiter.windows.length ≤ hardCap) (now : ℤ) :
    sweep now limiter = ⟨expired limiter.windows now, 0⟩ :=
  if_pos ((length_expired_le _ _).trans hfits)

theorem lookup_expired (h : (limiter.windows.map (·.1)).Nodup) (now : ℤ) (key : Key) :
    (expired limiter.windows now).lookup key =
      (limiter.windows.lookup key).filter fun entry => ¬entry.expiresAt ≤ now :=
  lookup_filter h _ key

/-- The sweep leaves the hits of a key or takes hits that are out of its window. -/
theorem Tracks.hitsOf_expired (h : Tracks window log limiter clock) (n : ℕ) (key : Key) :
    hitsOf ⟨expired limiter.windows clock, n⟩ key = hitsOf limiter key ∨
      hitsOf ⟨expired limiter.windows clock, n⟩ key = [] ∧
        ∀ hit ∈ hitsOf limiter key, hit ≤ clock - window key := by
  unfold hitsOf
  rw [lookup_expired h.keys]
  cases hlookup : limiter.windows.lookup key with
  | none => exact .inl rfl
  | some entry =>
    by_cases hover : entry.expiresAt ≤ clock
    · rw [Option.filter_some, if_neg (by simpa using hover)]
      refine .inr ⟨rfl, fun hit hhit => ?_⟩
      have hexpiry := h.expiry key entry hlookup hit hhit
      omega
    · rw [Option.filter_some, if_pos (by simpa using hover)]
      exact .inl rfl

theorem Tracks.sweep_step (h : Tracks window log limiter clock)
    (hfits : limiter.windows.length ≤ hardCap) : Tracks window log (sweep clock limiter) clock := by
  rw [sweep_of_fits hfits]
  refine ⟨h.keys.sublist (List.filter_sublist.map _), ?_, ?_, ?_, ?_⟩
  · intro key instant hinstant
    rw [← h.hits key instant hinstant]
    rcases h.hitsOf_expired 0 key with hsame | ⟨hnone, hout⟩
    · rw [hsame]
    · rw [hnone, List.filter_nil, eq_comm, List.filter_eq_nil_iff]
      intro hit hhit hlater
      have hle := hout hit hhit
      have hlt := of_decide_eq_true hlater
      omega
  · intro key
    rcases h.hitsOf_expired 0 key with hsame | ⟨hnone, -⟩
    · rw [hsame]
      exact h.sorted key
    · rw [hnone]
      exact .nil
  · intro key hit hhit
    rcases h.hitsOf_expired 0 key with hsame | ⟨hnone, -⟩
    · rw [hsame] at hhit
      exact h.past key hit hhit
    · rw [hnone] at hhit
      cases hhit
  · intro key entry hentry
    rw [lookup_expired h.keys] at hentry
    exact h.expiry key entry (Option.filter_eq_some_iff.mp hentry).1

/-! ### Whole runs -/

theorem checkRateLimit_answer (limiter : Limiter Key) (call : Call Key) :
    (checkRateLimit limiter call).1 = (record limiter call).1 := by
  unfold checkRateLimit
  split
  · rename_i heq
    rw [heq]
  · rename_i heq
    rw [heq]
    split <;> rfl

theorem checkRateLimit_state (limiter : Limiter Key) (call : Call Key) :
    (checkRateLimit limiter call).2 = (record limiter call).2 ∨
      (checkRateLimit limiter call).2 = sweep call.now (record limiter call).2 := by
  unfold checkRateLimit
  split
  · rename_i heq
    exact .inl (by rw [heq])
  · rename_i heq
    rw [heq]
    split
    · exact .inr rfl
    · exact .inl rfl

theorem Tracks.check_step (h : Tracks window log limiter clock) (hclock : clock ≤ call.now)
    (hwindow : call.rate.windowMs = window call.key)
    (hfits : (record limiter call).2.windows.length ≤ hardCap) :
    Tracks window (remember log call) (checkRateLimit limiter call).2 call.now := by
  have hrecord := h.record_step hclock hwindow
  rcases checkRateLimit_state limiter call with hstate | hstate
  · rw [hstate]
    exact hrecord
  · rw [hstate]
    exact hrecord.sweep_step hfits

section Answers

variable (hclock : (calls.map (·.now)).Pairwise (· ≤ ·)) (hlater : ∀ call ∈ calls, clock ≤ call.now)
  (hwindow : ∀ call ∈ calls, call.rate.windowMs = window call.key)

include hclock hlater hwindow

theorem answers_eq (h : Tracks window log limiter clock) (hfits : Fits limiter calls) :
    answers limiter calls = ledgerAnswers log calls := by
  induction calls generalizing limiter log clock with
  | nil => rfl
  | cons call rest ih =>
    have hnow := hlater call List.mem_cons_self
    have hown := hwindow call List.mem_cons_self
    obtain ⟨hfirst, hrest⟩ := List.pairwise_cons.mp hclock
    rw [answers, ledgerAnswers, checkRateLimit_answer, h.record_answer hnow hown]
    refine congrArg _ (ih hrest ?_ ?_ (h.check_step hnow hown hfits.1) hfits.2)
    · exact fun later hmem => hfirst _ (List.mem_map_of_mem hmem)
    · exact fun later hmem => hwindow later (List.mem_cons_of_mem _ hmem)

theorem unsweptAnswers_eq (h : Tracks window log limiter clock) :
    unsweptAnswers limiter calls = ledgerAnswers log calls := by
  induction calls generalizing limiter log clock with
  | nil => rfl
  | cons call rest ih =>
    have hnow := hlater call List.mem_cons_self
    have hown := hwindow call List.mem_cons_self
    obtain ⟨hfirst, hrest⟩ := List.pairwise_cons.mp hclock
    rw [unsweptAnswers, ledgerAnswers, h.record_answer hnow hown]
    refine congrArg _ (ih hrest ?_ ?_ (h.record_step hnow hown))
    · exact fun later hmem => hfirst _ (List.mem_map_of_mem hmem)
    · exact fun later hmem => hwindow later (List.mem_cons_of_mem _ hmem)

end Answers

/-! ### How many calls are allowed -/

omit [DecidableEq Key] in
theorem granted_cons (call : Call Key) (answer : Bool) (answers : List Bool) :
    granted (call :: calls) (answer :: answers) =
      if answer then call :: granted calls answers else granted calls answers := by
  cases answer <;> rfl

theorem allowed_eq (log calls : List (Call Key)) :
    allowed log calls = log ++ granted calls (ledgerAnswers log calls) := by
  induction calls generalizing log with
  | nil => exact (List.append_nil log).symm
  | cons call rest ih =>
    rw [allowed, List.foldl_cons, ← allowed, ih, ledgerAnswers, granted_cons, remember]
    split
    · rw [List.append_assoc, List.singleton_append]
    · rfl

/-- The calls of a key in the span of time that ends with `instant`. -/
def inSpan (log : List (Call Key)) (key : Key) (windowMs instant : ℤ) : List (Call Key) :=
  (since log key (instant - windowMs)).filter fun call => call.now ≤ instant

/-- Of the calls of a key, no span as long as its window has more than its limit allows. -/
theorem length_inSpan_allowed (calls : List (Call Key)) {key : Key} {limit : ℕ} {windowMs : ℤ}
    (hrate : ∀ call ∈ calls, call.key = key →
      call.rate.windowMs = windowMs ∧ call.rate.limit ≤ limit)
    (instant : ℤ) : (inSpan (allowed [] calls) key windowMs instant).length ≤ limit := by
  induction calls using List.reverseRecOn with
  | nil => exact Nat.zero_le _
  | append_singleton calls call ih =>
    have hearlier := ih fun c hc => hrate c (List.mem_append_left _ hc)
    have hlast : allowed [] (calls ++ [call]) = remember (allowed [] calls) call := by
      rw [allowed, List.foldl_append]
      rfl
    rw [hlast, remember]
    split
    · rename_i hallows
      rw [inSpan, since_concat, List.filter_append, List.length_append]
      split
      · rename_i hcounts
        obtain ⟨hkey, hafter⟩ := hcounts
        by_cases hin : call.now ≤ instant
        · obtain ⟨hwindow, hlimit⟩ := hrate call (List.mem_append_right _ List.mem_cons_self) hkey
          -- What is in the span is in the window of the call.
          have hsub : (inSpan (allowed [] calls) key windowMs instant).Sublist
              (since (allowed [] calls) call.key (call.now - call.rate.windowMs)) := by
            refine List.filter_sublist.trans (List.monotone_filter_right _ ?_)
            intro c hc
            simp only [decide_eq_true_eq, hkey, hwindow] at hc ⊢
            exact ⟨hc.1, by omega⟩
          have hroom := of_decide_eq_true hallows
          have hlength := hsub.length_le
          rw [List.filter_cons_of_pos (by simpa using hin), List.filter_nil, List.length_singleton]
          exact (Nat.succ_le_of_lt (Nat.lt_of_le_of_lt hlength hroom)).trans hlimit
        · rw [List.filter_cons_of_neg (by simpa using hin), List.filter_nil, List.length_nil]
          exact hearlier
      · exact hearlier
    · exact hearlier

/-! ### How many keys are held -/

theorem length_evict_le (windows : List (Key × Window)) :
    (windows.filter fun entry => entry.1 ∉ evicted windows).length ≤ target := by
  have hperm := List.mergeSort_perm windows fun a b => a.2.expiresAt ≤ b.2.expiresAt
  have hsplit := List.take_append_drop (windows.length - target)
    (windows.mergeSort fun a b => a.2.expiresAt ≤ b.2.expiresAt)
  rw [← (hperm.filter _).length_eq, ← hsplit, List.filter_append, List.length_append]
  have hgone : ((windows.mergeSort fun a b => a.2.expiresAt ≤ b.2.expiresAt).take
      (windows.length - target)).filter (fun entry => entry.1 ∉ evicted windows) = [] := by
    apply List.filter_eq_nil_iff.mpr
    intro entry hentry
    have hmem : entry.1 ∈ evicted windows := List.mem_map_of_mem hentry
    simpa using hmem
  have hrest := List.length_filter_le (fun entry => decide (entry.1 ∉ evicted windows))
    ((windows.mergeSort fun a b => a.2.expiresAt ≤ b.2.expiresAt).drop (windows.length - target))
  rw [List.length_drop, hperm.length_eq] at hrest
  rw [hgone, List.length_nil, Nat.zero_add]
  omega

theorem length_sweep_le (now : ℤ) (limiter : Limiter Key) :
    (sweep now limiter).windows.length ≤ hardCap := by
  unfold sweep
  dsimp only
  split
  · rename_i hfits
    exact hfits
  · exact (length_evict_le _).trans (by decide)

theorem length_record_of_refused (h : (record limiter call).1 = false) :
    (record limiter call).2.windows.length = limiter.windows.length := by
  by_cases hfull : call.rate.limit ≤ (recent limiter call).length
  · have hmem : call.key ∈ limiter.windows.map (·.1) := by
      by_contra hnot
      have hnone : hitsOf limiter call.key = [] := by
        rw [hitsOf, lookup_eq_none_of_notMem hnot]
      rw [recent, hnone, List.filter_nil, List.length_nil] at hfull
      exact absurd (call.rate.positive.trans hfull) (by decide)
    rw [record_full hfull]
    exact length_set_of_mem hmem _
  · rw [record_room hfull] at h
    cases h

theorem length_check_le (hfits : limiter.windows.length ≤ hardCap) (call : Call Key) :
    (checkRateLimit limiter call).2.windows.length ≤ hardCap := by
  unfold checkRateLimit
  split
  · rename_i recorded heq
    have hsame := length_record_of_refused (congrArg Prod.fst heq)
    rw [heq] at hsame
    exact hsame.le.trans hfits
  · split
    · exact length_sweep_le _ _
    · rename_i hsmall
      exact Nat.not_lt.mp (not_or.mp hsmall).1

theorem length_after_le (hfits : limiter.windows.length ≤ hardCap) (calls : List (Call Key)) :
    (after limiter calls).windows.length ≤ hardCap := by
  induction calls generalizing limiter with
  | nil => exact hfits
  | cons call rest ih => exact ih (length_check_le hfits call)

/-- The sweep is invisible: with a clock that does not go back and windows that are fixed for each
key, the answers are those of the code without its sweep and those of a limiter that remembers every
allowed call, as long as the map does not outgrow its cap.  In no span of a key's window are more
calls allowed than its limit.  The map holds `hardCap` keys at most after any call. -/
theorem sweep_invisible (window : Key → ℤ) (calls : List (Call Key)) :
    ((calls.map (·.now)).Pairwise (· ≤ ·) →
      (∀ call ∈ calls, call.rate.windowMs = window call.key) → Fits {} calls →
        answers {} calls = ledgerAnswers [] calls ∧ answers {} calls = unsweptAnswers {} calls ∧
        ∀ key limit, (∀ call ∈ calls, call.key = key → call.rate.limit ≤ limit) → ∀ instant,
          (inSpan (granted calls (answers {} calls)) key (window key) instant).length ≤ limit) ∧
    (after {} calls).windows.length ≤ hardCap := by
  refine ⟨fun hclock hwindow hfits => ?_, length_after_le (Nat.zero_le _) calls⟩
  obtain ⟨clock, hlater⟩ : ∃ clock : ℤ, ∀ call ∈ calls, clock ≤ call.now := by
    cases calls with
    | nil => exact ⟨0, nofun⟩
    | cons first rest =>
      refine ⟨first.now, fun call hcall => ?_⟩
      rcases List.mem_cons.mp hcall with rfl | hcall
      · exact le_rfl
      · exact (List.pairwise_cons.mp hclock).1 _ (List.mem_map_of_mem hcall)
  have hstart := tracks_start window clock
  have hledger := answers_eq hclock hlater hwindow hstart hfits
  refine ⟨hledger, hledger.trans (unsweptAnswers_eq hclock hlater hwindow hstart).symm, ?_⟩
  intro key limit hlimit instant
  have hgranted := allowed_eq [] calls
  rw [List.nil_append] at hgranted
  rw [hledger, ← hgranted]
  apply length_inSpan_allowed
  exact fun call hcall hkey => ⟨hkey ▸ hwindow call hcall, hlimit call hcall hkey⟩

/-- Two calls at once of a key that may have one in ten milliseconds, and one when they are over. -/
def burst : List (Call ℕ) :=
  [⟨1, ⟨1, 10, le_rfl⟩, 100⟩, ⟨1, ⟨1, 10, le_rfl⟩, 100⟩, ⟨1, ⟨1, 10, le_rfl⟩, 110⟩]

theorem burst_allowed : ledgerAnswers [] burst = [true, false, true] ∧
    answers {} burst = ledgerAnswers [] burst :=
  ⟨by decide, ((sweep_invisible (fun _ => 10) burst).1 (by decide) (by decide)
    ⟨by decide, by decide, by decide, trivial⟩).1⟩

end Vigil.Limits.RateLimit
