import Vigil.Notifications.Secretbox

/-! `sealPlainChannelSecrets` of `notifications/channel-service.ts`, which every worker runs when it
boots.  It reads the rows that a migration left plain and then writes them one by one, so that other
workers and operators come in between.  Nothing locks a row: a save is lost where a pass has read the
channel before it and writes it afterwards. -/

namespace Vigil.Notifications.Reseal

open Js.Text Function
open Lib Secretbox

variable {Key Id Pass : Type} [DecidableEq Id] [DecidableEq Pass]

/-- A channel's row with its envelope. -/
structure ChannelRow (Id : Type) where
  id : Id
  secrets : JsString

/-- The channels, and how far each pass has come. -/
structure State (Id Pass : Type) where
  channels : List (ChannelRow Id)
  /-- The rows that a pass has read and not come to yet. -/
  pending : Pass → Option (List (ChannelRow Id))
  /-- What was last saved to a channel, by a person or by the migration. -/
  saved : Id → Except SecretboxError SecretValues
  /-- Every id that a channel ever had. -/
  used : List Id
  /-- The copies made since a pass read the rows. -/
  copied : Pass → List Id

/-- The steps of a pass, and what else writes the channels. -/
inductive Action (Id Pass : Type) where
  /-- `select … where secrets like 'plain:%'` -/
  | read (pass : Pass)
  /-- The next turn of the loop of a pass. -/
  | turn (pass : Pass) (iv : Iv)
  | createChannel (id : Id) (iv : Iv) (secrets : SecretValues)
  | duplicateChannel (id newId : Id)
  | updateChannel (id : Id) (iv : Iv) (secrets : SecretValues)
  | deleteChannel (id : Id)

/-- `update … set secrets = … where id = …` -/
def write (channels : List (ChannelRow Id)) (id : Id) (secrets : JsString) :
    List (ChannelRow Id) :=
  channels.map fun row => if row.id = id then { row with secrets := secrets } else row

section

variable (cipher : Cipher Key) (key : Key)

/-- What a turn of a pass leaves of the channels. -/
def sealRow (channels : List (ChannelRow Id)) (row : ChannelRow Id) (iv : Iv) :
    List (ChannelRow Id) :=
  if !isPlainEnvelope row.secrets then channels
  else
    match openSecrets cipher key row.secrets with
    | .error _ => channels
    | .ok secrets => write channels row.id (sealSecrets cipher key iv secrets)

/-- One step of a pass, or one write. -/
def step (s : State Id Pass) : Action Id Pass → Option (State Id Pass)
  | .read pass =>
    if (s.pending pass).isSome then none
    else
      let rows := s.channels.filter fun row => isPlainEnvelope row.secrets
      some { s with pending := update s.pending pass (some rows), copied := update s.copied pass [] }
  | .turn pass iv =>
    match s.pending pass with
    | none | some [] => none
    | some (row :: rest) => some { s with
        channels := sealRow cipher key s.channels row iv
        pending := update s.pending pass (some rest) }
  | .createChannel id iv secrets =>
    if id ∈ s.used ∨ ¬(secrets.map (·.1)).Nodup then none
    else some { s with
      channels := s.channels ++ [{ id := id, secrets := sealSecrets cipher key iv secrets }]
      saved := update s.saved id (.ok (kept secrets))
      used := id :: s.used }
  | .duplicateChannel id newId =>
    match s.channels.find? fun row => row.id = id with
    | none => none
    | some current =>
      if newId ∈ s.used then none
      else some { s with
        channels := s.channels ++ [{ current with id := newId }]
        saved := update s.saved newId (s.saved id)
        used := newId :: s.used
        copied := fun pass => newId :: s.copied pass }
  | .updateChannel id iv secrets =>
    if (∀ row ∈ s.channels, row.id ≠ id) ∨ ¬(secrets.map (·.1)).Nodup then none
    else some { s with
      channels := write s.channels id (sealSecrets cipher key iv secrets)
      saved := update s.saved id (.ok (kept secrets)) }
  | .deleteChannel id =>
    some { s with channels := s.channels.filter fun row => row.id ≠ id }

/-- The table as the workers find it when they boot. -/
def booted (channels : List (ChannelRow Id)) : State Id Pass where
  channels := channels
  pending _ := none
  saved id :=
    match channels.find? fun row => row.id = id with
    | none => .ok []
    | some row => openSecrets cipher key row.secrets
  used := channels.map (·.id)
  copied _ := []

def boot (channels : List (ChannelRow Id)) : Machine (State Id Pass) (Action Id Pass) where
  init := booted cipher key channels
  step := step cipher key

end

/-- No save of a channel comes between a pass's reading and writing it. -/
def Apart (s : State Id Pass) (a : Action Id Pass) : Prop :=
  ∀ id iv secrets, a = .updateChannel id iv secrets →
    ∀ pass, ∀ rows ∈ s.pending pass, ∀ row ∈ rows, row.id ≠ id

section

variable {cipher : Cipher Key} {key : Key}

variable {channels : List (ChannelRow Id)}

theorem mem_write {id : Id} {secrets : JsString} {row : ChannelRow Id}
    (h : row ∈ write channels id secrets) :
    row ∈ channels ∧ row.id ≠ id ∨ row.id = id ∧ row.secrets = secrets ∧
      ∃ old ∈ channels, old.id = id := by
  obtain ⟨old, hold, rfl⟩ := List.mem_map.mp h
  by_cases hid : old.id = id
  · rw [if_pos hid]
    exact .inr ⟨hid, rfl, old, hold, hid⟩
  · rw [if_neg hid]
    exact .inl ⟨hold, hid⟩

/-- A row after a turn is as it was, or it is the row of the turn and was sealed. -/
theorem mem_sealRow {row next : ChannelRow Id} {iv : Iv}
    (h : next ∈ sealRow cipher key channels row iv) :
    next ∈ channels ∧ (next.id = row.id → isPlainEnvelope row.secrets = true →
        ∀ secrets, openSecrets cipher key row.secrets ≠ .ok secrets) ∨
      next.id = row.id ∧ (∃ old ∈ channels, old.id = row.id) ∧
        ∃ secrets, openSecrets cipher key row.secrets = .ok secrets ∧
          next.secrets = sealSecrets cipher key iv secrets := by
  unfold sealRow at h
  split at h
  · rename_i hplain
    refine .inl ⟨h, fun _ htrue => ?_⟩
    rw [htrue] at hplain
    cases hplain
  · split at h
    · rename_i error herror
      refine .inl ⟨h, fun _ _ secrets hok => ?_⟩
      rw [hok] at herror
      cases herror
    · rename_i secrets hok
      rcases mem_write h with ⟨hold, hne⟩ | ⟨hid, hsecrets, hold⟩
      · exact .inl ⟨hold, fun heq => absurd heq hne⟩
      · exact .inr ⟨hid, hold, secrets, hok, hsecrets⟩

/-! ### What every step keeps -/

/-- Nobody's secrets are lost, and a pass still has before it what it has to seal. -/
structure Intact (cipher : Cipher Key) (key : Key) (s : State Id Pass) : Prop where
  channels : ∀ row ∈ s.channels, openSecrets cipher key row.secrets = s.saved row.id
  pending : ∀ pass rows, s.pending pass = some rows → ∀ row ∈ rows,
    openSecrets cipher key row.secrets = s.saved row.id ∧ row.id ∈ s.used
  used : ∀ row ∈ s.channels, row.id ∈ s.used
  left : ∀ pass rows, s.pending pass = some rows → ∀ row ∈ s.channels,
    isPlainEnvelope row.secrets = true →
      row ∈ rows ∨ row.id ∈ s.copied pass ∨ ∀ secrets, openSecrets cipher key row.secrets ≠ .ok secrets

theorem update_cases {α β : Type} [DecidableEq α] {f : α → β} {a x : α} {b c : β}
    (h : update f a b x = c) : x = a ∧ b = c ∨ x ≠ a ∧ f x = c := by
  rw [update_apply] at h
  split at h
  · exact .inl ⟨‹_›, h⟩
  · exact .inr ⟨‹_›, h⟩

namespace Intact

variable {s : State Id Pass}

variable {id : Id}

omit [DecidableEq Pass] in
/-- What is saved under an id that no channel had changes nothing else. -/
theorem saved_of_new (h : Intact cipher key s) (hnew : id ∉ s.used)
    (value : Except SecretboxError SecretValues) :
    (∀ row ∈ s.channels, update s.saved id value row.id = s.saved row.id) ∧
      ∀ pass rows, s.pending pass = some rows → ∀ row ∈ rows,
        update s.saved id value row.id = s.saved row.id := by
  constructor
  · intro row hrow
    apply update_of_ne
    rintro rfl
    exact hnew (h.used row hrow)
  · intro pass rows hpending row hrow
    apply update_of_ne
    rintro rfl
    exact hnew (h.pending pass rows hpending row hrow).2

omit [DecidableEq Id] in
theorem read (h : Intact cipher key s) (pass : Pass) :
    Intact cipher key { s with
      pending := update s.pending pass (some (s.channels.filter fun row => isPlainEnvelope row.secrets))
      copied := update s.copied pass [] } where
  channels := h.channels
  used := h.used
  pending := by
    intro q rows hrows row hrow
    rcases update_cases hrows with ⟨-, heq⟩ | ⟨-, hold⟩
    · obtain rfl := Option.some.inj heq
      have hin := List.mem_of_mem_filter hrow
      exact ⟨h.channels row hin, h.used row hin⟩
    · exact h.pending q rows hold row hrow
  left := by
    intro q rows hrows row hrow hplain
    rcases update_cases hrows with ⟨-, heq⟩ | ⟨hne, hold⟩
    · obtain rfl := Option.some.inj heq
      exact .inl (List.mem_filter.mpr ⟨hrow, hplain⟩)
    · dsimp only
      rw [update_of_ne hne _ _]
      exact h.left q rows hold row hrow hplain

theorem turn (hsound : cipher.Sound) (h : Intact cipher key s) {pass : Pass}
    {row : ChannelRow Id} {rest : List (ChannelRow Id)} (hpending : s.pending pass = some (row :: rest))
    (iv : Iv) :
    Intact cipher key { s with
      channels := sealRow cipher key s.channels row iv
      pending := update s.pending pass (some rest) } where
  channels := by
    intro next hnext
    rcases mem_sealRow hnext with ⟨hold, -⟩ | ⟨hid, -, secrets, hopen, hsecrets⟩
    · exact h.channels next hold
    · have hrow := (h.pending pass _ hpending row List.mem_cons_self).1
      rw [hsecrets, hid, ← hrow, hopen]
      exact open_reseal key iv hsound hopen
  pending := by
    intro q rows hrows next hnext
    rcases update_cases hrows with ⟨rfl, heq⟩ | ⟨-, hold⟩
    · obtain rfl := Option.some.inj heq
      exact h.pending q _ hpending next (List.mem_cons_of_mem row hnext)
    · exact h.pending q rows hold next hnext
  used := by
    intro next hnext
    rcases mem_sealRow hnext with ⟨hold, -⟩ | ⟨hid, ⟨old, hold, hsame⟩, -⟩
    · exact h.used next hold
    · exact hid ▸ hsame ▸ h.used old hold
  left := by
    intro q rows hrows next hnext hplain
    rcases mem_sealRow hnext with ⟨hold, hleft⟩ | ⟨-, -, secrets, -, hsecrets⟩
    · rcases update_cases hrows with ⟨rfl, heq⟩ | ⟨-, hwas⟩
      · obtain rfl := Option.some.inj heq
        rcases h.left q _ hpending next hold hplain with hin | hrest
        · rcases List.mem_cons.mp hin with rfl | hin
          · exact .inr (.inr (hleft rfl hplain))
          · exact .inl hin
        · exact .inr hrest
      · exact h.left q rows hwas next hold hplain
    · rw [hsecrets, isPlainEnvelope_sealSecrets] at hplain
      cases hplain

omit [DecidableEq Pass] in
theorem createChannel (hsound : cipher.Sound) (h : Intact cipher key s) (hnew : id ∉ s.used)
    (iv : Iv) {secrets : SecretValues} (hkeys : (secrets.map (·.1)).Nodup) :
    Intact cipher key { s with
      channels := s.channels ++ [{ id := id, secrets := sealSecrets cipher key iv secrets }]
      saved := update s.saved id (.ok (kept secrets))
      used := id :: s.used } where
  channels := by
    intro row hrow
    rcases List.mem_append.mp hrow with hold | hadded
    · exact (h.channels row hold).trans ((h.saved_of_new hnew _).1 row hold).symm
    · obtain rfl := List.mem_singleton.mp hadded
      simp only [update_self]
      exact open_sealSecrets key iv hsound hkeys
  pending := by
    intro pass rows hrows row hrow
    obtain ⟨hopen, hused⟩ := h.pending pass rows hrows row hrow
    exact ⟨hopen.trans ((h.saved_of_new hnew _).2 pass rows hrows row hrow).symm,
      List.mem_cons_of_mem id hused⟩
  used := by
    intro row hrow
    rcases List.mem_append.mp hrow with hold | hadded
    · exact List.mem_cons_of_mem id (h.used row hold)
    · obtain rfl := List.mem_singleton.mp hadded
      exact List.mem_cons_self
  left := by
    intro pass rows hrows row hrow hplain
    rcases List.mem_append.mp hrow with hold | hadded
    · exact h.left pass rows hrows row hold hplain
    · obtain rfl := List.mem_singleton.mp hadded
      rw [isPlainEnvelope_sealSecrets] at hplain
      cases hplain

omit [DecidableEq Pass] in
theorem duplicateChannel (h : Intact cipher key s) {current : ChannelRow Id}
    (hcurrent : current ∈ s.channels) {newId : Id} (hnew : newId ∉ s.used) :
    Intact cipher key { s with
      channels := s.channels ++ [{ current with id := newId }]
      saved := update s.saved newId (s.saved current.id)
      used := newId :: s.used
      copied := fun pass => newId :: s.copied pass } where
  channels := by
    intro row hrow
    rcases List.mem_append.mp hrow with hold | hadded
    · exact (h.channels row hold).trans ((h.saved_of_new hnew _).1 row hold).symm
    · obtain rfl := List.mem_singleton.mp hadded
      simp only [update_self]
      exact h.channels current hcurrent
  pending := by
    intro pass rows hrows row hrow
    obtain ⟨hopen, hused⟩ := h.pending pass rows hrows row hrow
    exact ⟨hopen.trans ((h.saved_of_new hnew _).2 pass rows hrows row hrow).symm,
      List.mem_cons_of_mem newId hused⟩
  used := by
    intro row hrow
    rcases List.mem_append.mp hrow with hold | hadded
    · exact List.mem_cons_of_mem newId (h.used row hold)
    · obtain rfl := List.mem_singleton.mp hadded
      exact List.mem_cons_self
  left := by
    intro pass rows hrows row hrow hplain
    rcases List.mem_append.mp hrow with hold | hadded
    · exact (h.left pass rows hrows row hold hplain).imp_right fun hor =>
        hor.imp_left (List.mem_cons_of_mem newId)
    · obtain rfl := List.mem_singleton.mp hadded
      exact .inr (.inl List.mem_cons_self)

omit [DecidableEq Pass] in
theorem updateChannel (hsound : cipher.Sound) (h : Intact cipher key s) (iv : Iv)
    {secrets : SecretValues} (hkeys : (secrets.map (·.1)).Nodup)
    (hapart : ∀ pass, ∀ rows ∈ s.pending pass, ∀ row ∈ rows, row.id ≠ id) :
    Intact cipher key { s with
      channels := write s.channels id (sealSecrets cipher key iv secrets)
      saved := update s.saved id (.ok (kept secrets)) } where
  channels := by
    intro row hrow
    rcases mem_write hrow with ⟨hold, hne⟩ | ⟨rfl, hsecrets, -⟩
    · exact (h.channels row hold).trans (update_of_ne hne _ _).symm
    · simp only [update_self]
      rw [hsecrets]
      exact open_sealSecrets key iv hsound hkeys
  pending := by
    intro pass rows hrows row hrow
    obtain ⟨hopen, hused⟩ := h.pending pass rows hrows row hrow
    exact ⟨hopen.trans (update_of_ne (hapart pass rows hrows row hrow) _ _).symm, hused⟩
  used := by
    intro row hrow
    rcases mem_write hrow with ⟨hold, -⟩ | ⟨hid, -, old, hold, hsame⟩
    · exact h.used row hold
    · exact (hsame.trans hid.symm) ▸ h.used old hold
  left := by
    intro pass rows hrows row hrow hplain
    rcases mem_write hrow with ⟨hold, -⟩ | ⟨-, hsecrets, -⟩
    · exact h.left pass rows hrows row hold hplain
    · rw [hsecrets, isPlainEnvelope_sealSecrets] at hplain
      cases hplain

omit [DecidableEq Pass] in
theorem deleteChannel (h : Intact cipher key s) (id : Id) :
    Intact cipher key { s with channels := s.channels.filter fun row => row.id ≠ id } where
  channels row hrow := h.channels row (List.mem_of_mem_filter hrow)
  pending := h.pending
  used row hrow := h.used row (List.mem_of_mem_filter hrow)
  left pass rows hrows row hrow := h.left pass rows hrows row (List.mem_of_mem_filter hrow)

end Intact

omit [DecidableEq Pass] in
theorem intact_booted (hids : (channels.map (·.id)).Nodup) :
    Intact cipher key (booted cipher key channels : State Id Pass) where
  channels := by
    intro row hrow
    have hfind : channels.find? (fun other => other.id = row.id) = some row := by
      cases hfound : channels.find? fun other => other.id = row.id with
      | none => exact absurd (decide_eq_true rfl) (List.find?_eq_none.mp hfound row hrow)
      | some other =>
        have hid : other.id = row.id := by simpa using List.find?_some hfound
        have hother := List.mem_of_find?_eq_some hfound
        rw [List.inj_on_of_nodup_map hids hother hrow hid]
    simp only [booted, hfind]
  pending := by
    intro pass rows hrows
    cases hrows
  used row hrow := List.mem_map_of_mem hrow
  left := by
    intro pass rows hrows
    cases hrows

/-- A step keeps what is saved, where a save does not come between a pass's reading and writing. -/
theorem Intact.step (hsound : cipher.Sound) {s t : State Id Pass} {a : Action Id Pass}
    (h : Intact cipher key s) (hapart : Apart s a) (hstep : step cipher key s a = some t) :
    Intact cipher key t := by
  cases a with
  | read pass =>
    simp only [Reseal.step] at hstep
    split at hstep
    · cases hstep
    · exact Option.some.inj hstep ▸ h.read pass
  | turn pass iv =>
    simp only [Reseal.step] at hstep
    split at hstep
    · cases hstep
    · cases hstep
    · rename_i row rest hpending
      exact Option.some.inj hstep ▸ h.turn hsound hpending iv
  | createChannel id iv secrets =>
    simp only [Reseal.step] at hstep
    split at hstep
    · cases hstep
    · rename_i hcheck
      obtain ⟨hnew, hkeys⟩ := not_or.mp hcheck
      exact Option.some.inj hstep ▸ h.createChannel hsound hnew iv (not_not.mp hkeys)
  | duplicateChannel id newId =>
    simp only [Reseal.step] at hstep
    split at hstep
    · cases hstep
    · rename_i current hfound
      split at hstep
      · cases hstep
      · rename_i hnew
        have hid : current.id = id := by simpa using List.find?_some hfound
        obtain rfl := hid
        exact Option.some.inj hstep ▸ h.duplicateChannel (List.mem_of_find?_eq_some hfound) hnew
  | updateChannel id iv secrets =>
    simp only [Reseal.step] at hstep
    split at hstep
    · cases hstep
    · rename_i hcheck
      obtain ⟨-, hkeys⟩ := not_or.mp hcheck
      exact Option.some.inj hstep ▸
        h.updateChannel hsound iv (not_not.mp hkeys) (hapart id iv secrets rfl)
  | deleteChannel id => exact Option.some.inj hstep ▸ h.deleteChannel id

end

/-! ### A sample -/

omit [DecidableEq Id] [DecidableEq Pass] in
theorem apart_of_ne {s : State Id Pass} {a : Action Id Pass}
    (h : ∀ id iv secrets, a ≠ .updateChannel id iv secrets) : Apart s a :=
  fun id iv secrets ha => absurd ha (h id iv secrets)

/-- A channel that the migration left plain. -/
def migrated : List (ChannelRow ℕ) :=
  [{ id := 7, secrets := js "plain:\x7b\"token\":\"x\"\x7d" }]

/-- Two workers boot, and each comes to the channel after both have read it; then it is saved. -/
def bothBoot : List (Action ℕ Bool) :=
  [.read true, .read false, .turn true sampleIv, .turn false sampleIv,
    .updateChannel 7 sampleIv [(js "token", js "y")]]

theorem apart_bothBoot : (boot sampleCipher () migrated).EachStep bothBoot Apart := by
  refine .cons fun s₁ h₁ => ⟨apart_of_ne (by simp), ?_⟩
  obtain rfl := Option.some.inj h₁
  refine .cons fun s₂ h₂ => ⟨apart_of_ne (by simp), ?_⟩
  obtain rfl := Option.some.inj h₂
  refine .cons fun s₃ h₃ => ⟨apart_of_ne (by simp), ?_⟩
  obtain rfl := Option.some.inj h₃
  refine .cons fun s₄ h₄ => ⟨apart_of_ne (by simp), ?_⟩
  obtain rfl := Option.some.inj h₄
  refine .cons fun s₅ h₅ => ⟨?_, .nil⟩
  intro id iv secrets _ pass rows hrows row hrow
  cases pass
  · obtain rfl : [] = rows := Option.some.inj hrows
    cases hrow
  · obtain rfl : [] = rows := Option.some.inj hrows
    cases hrow

end Vigil.Notifications.Reseal
