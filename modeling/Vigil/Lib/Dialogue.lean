import Mathlib.Data.List.Basic

/-! Conversations over a stream that arrives in chunks.  A reader takes units off the front of what
has arrived, and what comes behind a unit changes nothing in it.  A party answers one unit after
another until it is done.  What it hears and says does not depend on how the stream was cut, and what
one answer keeps a whole conversation keeps. -/

namespace Vigil.Lib.Dialogue

variable {α β σ ω : Type}

/-- Takes units off the front of a buffer. -/
structure Reader (α β : Type) where
  take : List α → Option (β × List α)
  shorter : ∀ {buffer unit rest}, take buffer = some (unit, rest) → rest.length < buffer.length
  stable : ∀ {buffer unit rest} more, take buffer = some (unit, rest) →
    take (buffer ++ more) = some (unit, rest ++ more)

/-- One side of a conversation. -/
structure Party (β σ ω : Type) where
  done : σ → Bool
  answer : σ → β → σ × List ω

/-- How far a conversation has come, and what has arrived and was not read yet. -/
@[ext] structure Talk (α β σ ω : Type) where
  state : σ
  heard : List β
  said : List ω
  buffer : List α

def Talk.hear (party : Party β σ ω) (t : Talk α β σ ω) (unit : β) (rest : List α) :
    Talk α β σ ω where
  state := (party.answer t.state unit).1
  heard := t.heard ++ [unit]
  said := t.said ++ (party.answer t.state unit).2
  buffer := rest

def Talk.arrive (t : Talk α β σ ω) (chunk : List α) : Talk α β σ ω :=
  { t with buffer := t.buffer ++ chunk }

section

variable (reader : Reader α β) (party : Party β σ ω)

/-- Reads and answers until the party is done or a unit is not there whole. -/
def turns : ℕ → Talk α β σ ω → Talk α β σ ω
  | 0, t => t
  | fuel + 1, t =>
    if party.done t.state then t
    else
      match reader.take t.buffer with
      | none => t
      | some (unit, rest) => turns fuel (t.hear party unit rest)

/-- As many turns as there are elements are enough. -/
def pump (t : Talk α β σ ω) : Talk α β σ ω := turns reader party t.buffer.length t

def receive (t : Talk α β σ ω) (chunk : List α) : Talk α β σ ω :=
  pump reader party (t.arrive chunk)

end

variable {reader : Reader α β} {party : Party β σ ω}

theorem take_nil : reader.take [] = none := by
  cases htake : reader.take [] with
  | none => rfl
  | some found => exact absurd (reader.shorter htake) (Nat.not_lt_zero _)

variable {t : Talk α β σ ω}

/-- Where more turns than there are elements are allowed, nothing more happens. -/
theorem turns_eq {fuel fuel' : ℕ} (h : t.buffer.length ≤ fuel) (h' : t.buffer.length ≤ fuel') :
    turns reader party fuel t = turns reader party fuel' t := by
  induction fuel generalizing fuel' t with
  | zero =>
    have hnil : t.buffer = [] := List.length_eq_zero_iff.mp (Nat.le_zero.mp h)
    cases fuel' with
    | zero => rfl
    | succ fuel' =>
      simp only [turns, hnil, take_nil]
      split
      · rfl
      · rfl
  | succ fuel ih =>
    cases fuel' with
    | zero =>
      have hnil : t.buffer = [] := List.length_eq_zero_iff.mp (Nat.le_zero.mp h')
      simp only [turns, hnil, take_nil]
      split
      · rfl
      · rfl
    | succ fuel' =>
      simp only [turns]
      split
      · rfl
      · split
        · rfl
        · rename_i unit rest htake
          have hshort : rest.length < t.buffer.length := reader.shorter htake
          apply ih
          · show rest.length ≤ fuel
            omega
          · show rest.length ≤ fuel'
            omega

theorem pump_done (h : party.done t.state = true) : pump reader party t = t := by
  cases hlength : t.buffer.length with
  | zero => rw [pump, hlength, turns]
  | succ fuel => rw [pump, hlength, turns, if_pos h]

theorem pump_wait (h : reader.take t.buffer = none) : pump reader party t = t := by
  cases hlength : t.buffer.length with
  | zero => rw [pump, hlength, turns]
  | succ fuel =>
    rw [pump, hlength, turns, h]
    exact ite_self t

theorem pump_hear (h : party.done t.state = false) {unit : β} {rest : List α}
    (htake : reader.take t.buffer = some (unit, rest)) :
    pump reader party t = pump reader party (t.hear party unit rest) := by
  have hshort := reader.shorter htake
  obtain ⟨fuel, hfuel⟩ := Nat.exists_eq_succ_of_ne_zero (Nat.ne_zero_of_lt hshort)
  rw [pump, hfuel, turns, h, if_neg Bool.false_ne_true, htake]
  apply turns_eq
  · show rest.length ≤ fuel
    omega
  · exact Nat.le_refl _

/-- The rule of a conversation: what holds at its beginning and is kept by each answer holds after
it. -/
theorem pump_induct {P : σ → List β → List ω → Prop} (start : P t.state t.heard t.said)
    (answer : ∀ s heard said unit, P s heard said → party.done s = false → P (party.answer s unit).1
      (heard ++ [unit]) (said ++ (party.answer s unit).2)) :
    P (pump reader party t).state (pump reader party t).heard (pump reader party t).said := by
  induction hlength : t.buffer.length using Nat.strongRecOn generalizing t with
  | ind n ih =>
    cases hdone : party.done t.state with
    | true => rwa [pump_done hdone]
    | false =>
      cases htake : reader.take t.buffer with
      | none => rwa [pump_wait htake]
      | some found =>
        obtain ⟨unit, rest⟩ := found
        rw [pump_hear hdone htake]
        have hshort : rest.length < n := hlength ▸ reader.shorter htake
        exact ih rest.length hshort
          (answer t.state t.heard t.said unit start hdone) rfl

theorem pump_arrive (t : Talk α β σ ω) (more : List α) :
    pump reader party ((pump reader party t).arrive more) = pump reader party (t.arrive more) := by
  induction hlength : t.buffer.length using Nat.strongRecOn generalizing t with
  | ind n ih =>
    cases hdone : party.done t.state with
    | true => rw [pump_done hdone]
    | false =>
      cases htake : reader.take t.buffer with
      | none => rw [pump_wait htake]
      | some found =>
        obtain ⟨unit, rest⟩ := found
        have hshort : rest.length < n := hlength ▸ reader.shorter htake
        have hstable : reader.take (t.arrive more).buffer = some (unit, rest ++ more) :=
          reader.stable more htake
        have hrest : pump reader party (t.arrive more) =
            pump reader party ((t.arrive more).hear party unit (rest ++ more)) :=
          pump_hear (t := t.arrive more) hdone hstable
        rw [pump_hear hdone htake, hrest]
        exact ih rest.length hshort (t.hear party unit rest) rfl

/-- Nothing that has arrived can be read yet. -/
def Waiting (reader : Reader α β) (party : Party β σ ω) (t : Talk α β σ ω) : Prop :=
  pump reader party t = t

theorem pump_pump (t : Talk α β σ ω) :
    pump reader party (pump reader party t) = pump reader party t := by
  have hnil (t : Talk α β σ ω) : t.arrive [] = t := by
    rw [Talk.arrive, List.append_nil]
  have h : pump reader party ((pump reader party t).arrive []) = pump reader party (t.arrive []) :=
    pump_arrive t []
  rwa [hnil, hnil] at h

theorem arrive_arrive (t : Talk α β σ ω) (chunk more : List α) :
    (t.arrive chunk).arrive more = t.arrive (chunk ++ more) := by
  rw [Talk.arrive, Talk.arrive, Talk.arrive, List.append_assoc]

theorem foldl_receive (h : Waiting reader party t) (chunks : List (List α)) :
    chunks.foldl (receive reader party) t = receive reader party t chunks.flatten := by
  induction chunks generalizing t with
  | nil =>
    rw [List.foldl_nil, List.flatten_nil, receive, Talk.arrive, List.append_nil]
    exact h.symm
  | cons chunk chunks ih =>
    have hwait : Waiting reader party (receive reader party t chunk) := pump_pump _
    rw [List.foldl_cons, List.flatten_cons, ih hwait, receive, receive, receive, pump_arrive,
      arrive_arrive]

theorem foldl_receive_congr (h : Waiting reader party t) {chunks chunks' : List (List α)}
    (hsame : chunks.flatten = chunks'.flatten) :
    chunks.foldl (receive reader party) t = chunks'.foldl (receive reader party) t := by
  rw [foldl_receive h, foldl_receive h, hsame]

theorem waiting_of_nil (h : t.buffer = []) : Waiting reader party t := by
  apply pump_wait
  rw [h, take_nil]

theorem length_pump_le (t : Talk α β σ ω) :
    (pump reader party t).buffer.length ≤ t.buffer.length := by
  induction hlength : t.buffer.length using Nat.strongRecOn generalizing t with
  | ind n ih =>
    cases hdone : party.done t.state with
    | true =>
      rw [pump_done hdone]
      exact Nat.le_of_eq hlength
    | false =>
      cases htake : reader.take t.buffer with
      | none =>
        rw [pump_wait htake]
        exact Nat.le_of_eq hlength
      | some found =>
        obtain ⟨unit, rest⟩ := found
        have hshort : rest.length < n := hlength ▸ reader.shorter htake
        rw [pump_hear hdone htake]
        exact Nat.le_trans (ih rest.length hshort (t.hear party unit rest) rfl)
          (Nat.le_of_lt hshort)

/-! ### Two conversations that look the same -/

theorem rel_cases {α' β' : Type} {r : α' → β' → Prop} {x : Option α'} {y : Option β'}
    (h : Option.Rel r x y) : x = none ∧ y = none ∨ ∃ a b, x = some a ∧ y = some b ∧ r a b := by
  cases h with
  | none => exact .inl ⟨rfl, rfl⟩
  | some hr => exact .inr ⟨_, _, rfl, rfl, hr⟩

section Respects

variable (reader party) (R : List α → List α → Prop) (U : β → β → Prop) (S : σ → σ → Prop)

structure Related (t t' : Talk α β σ ω) : Prop where
  buffer : R t.buffer t'.buffer
  state : S t.state t'.state
  said : t.said = t'.said

/-- Reading and answering do not tell related streams, units and states apart. -/
structure Respects : Prop where
  take : ∀ {buffer buffer'}, R buffer buffer' →
    Option.Rel (fun found found' => U found.1 found'.1 ∧ R found.2 found'.2)
      (reader.take buffer) (reader.take buffer')
  done : ∀ {s s'}, S s s' → party.done s = party.done s'
  state : ∀ {s s' unit unit'}, S s s' → U unit unit' →
    S (party.answer s unit).1 (party.answer s' unit').1
  said : ∀ {s s' unit unit'}, S s s' → U unit unit' →
    (party.answer s unit).2 = (party.answer s' unit').2

end Respects

variable {R : List α → List α → Prop} {U : β → β → Prop} {S : σ → σ → Prop}

/-- Conversations that are related stay so: the same is said in both. -/
theorem Respects.pump (h : Respects reader party R U S) {t t' : Talk α β σ ω}
    (hrelated : Related R S t t') : Related R S (pump reader party t) (pump reader party t') := by
  induction hlength : t.buffer.length using Nat.strongRecOn generalizing t t' with
  | ind n ih =>
    have hdone := h.done hrelated.state
    cases hleft : party.done t.state with
    | true =>
      rw [hleft] at hdone
      rwa [pump_done hleft, pump_done hdone.symm]
    | false =>
      rw [hleft] at hdone
      obtain ⟨hfound, hfound'⟩ | ⟨⟨unit, rest⟩, ⟨unit', rest'⟩, hfound, hfound', hunit, hrest⟩ :=
        rel_cases (h.take hrelated.buffer)
      · rwa [pump_wait hfound, pump_wait hfound']
      · rw [pump_hear hleft hfound, pump_hear hdone.symm hfound']
        have hshort : rest.length < n := hlength ▸ reader.shorter hfound
        refine ih rest.length hshort ⟨hrest, h.state hrelated.state hunit, ?_⟩ rfl
        show t.said ++ _ = t'.said ++ _
        rw [hrelated.said, h.said hrelated.state hunit]

end Vigil.Lib.Dialogue
