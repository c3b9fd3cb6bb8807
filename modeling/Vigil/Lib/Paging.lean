import Mathlib.Data.List.Basic

/-! A list that is read page by page.  Each page is asked for by a key and may lead to the key of
another one; asking has a cost, and no page is answered beyond a limit.  What a reader makes of a
page is its turn: it throws, stops, or goes on. -/

namespace Vigil.Lib.Paging

variable {κ α β ε : Type}

/-- `ask` gives the cost so far and the page; `turn` is what the reader does with the page. -/
structure Source (κ α ε : Type) where
  ask : κ → ℕ → ℕ × Except ε α
  turn : κ → α → Except ε (Option κ)

/-- Every page that is answered costs something, and the cost stays within the limit. -/
def Source.Within (source : Source κ α ε) (limit : ℕ) : Prop :=
  ∀ key cost cost' page, source.ask key cost = (cost', .ok page) → cost < cost' ∧ cost' ≤ limit

/-- The loop over the pages, with what it has gathered; nothing when the fuel runs out. -/
def Source.read (source : Source κ α ε) (push : β → α → β) :
    ℕ → κ → ℕ → β → Option (ℕ × Except ε (β × κ))
  | 0, _, _, _ => none
  | fuel + 1, key, cost, done =>
    match source.ask key cost with
    | (cost, .error error) => some (cost, .error error)
    | (cost, .ok page) =>
      let done := push done page
      match source.turn key page with
      | .error error => some (cost, .error error)
      | .ok none => some (cost, .ok (done, key))
      | .ok (some next) => source.read push fuel next cost done

/-- The pages of a loop that stops: `last` is the page where it stops, and `key'` its key. -/
inductive Walk (source : Source κ α ε) : κ → ℕ → List α → κ → α → ℕ → Prop where
  | stop {key : κ} {cost cost' : ℕ} {page : α} :
    source.ask key cost = (cost', .ok page) → source.turn key page = .ok none →
    Walk source key cost [page] key page cost'
  | next {key key' next : κ} {cost between cost' : ℕ} {page last : α} {pages : List α} :
    source.ask key cost = (between, .ok page) → source.turn key page = .ok (some next) →
    Walk source next between pages key' last cost' →
    Walk source key cost (page :: pages) key' last cost'

/-- What a page says of the page after it.  A reader that goes on goes where the page leads, and one
that is led on goes there or stops. -/
structure Links (source : Source κ α ε) where
  linked : α → Prop
  leads : κ → α → κ → Prop
  linked_of_leads : ∀ {key page next}, leads key page next → linked page
  unique : ∀ {key page next next'}, leads key page next → leads key page next' → next = next'
  leads_of_turn : ∀ {key page next}, source.turn key page = .ok (some next) → leads key page next
  turn_of_leads : ∀ {key page next}, leads key page next →
    source.turn key page = .ok (some next) ∨ source.turn key page = .ok none

/-- The pages up to one that has no link. -/
inductive Chain {source : Source κ α ε} (links : Links source) : κ → ℕ → List α → ℕ → Prop where
  | last {key : κ} {cost cost' : ℕ} {page : α} :
    source.ask key cost = (cost', .ok page) → ¬links.linked page → Chain links key cost [page] cost'
  | link {key next : κ} {cost between cost' : ℕ} {page : α} {pages : List α} :
    source.ask key cost = (between, .ok page) → links.leads key page next →
    Chain links next between pages cost' → Chain links key cost (page :: pages) cost'

/-- The links lead from one key to another. -/
inductive Reached {source : Source κ α ε} (links : Links source) (key : κ) (cost : ℕ) :
    κ → ℕ → Prop where
  | start : Reached links key cost key cost
  | step {key' next : κ} {cost' between : ℕ} {page : α} :
    Reached links key cost key' cost' → source.ask key' cost' = (between, .ok page) →
    links.leads key' page next → Reached links key cost next between

/-! ### The loop ends -/

section

variable {source : Source κ α ε} {push : β → α → β}

variable {fuel : ℕ}

variable (push) in
theorem read_terminates {limit : ℕ} (hwithin : source.Within limit) (key : κ) {cost : ℕ} (done : β)
    (hfuel : limit < fuel + cost) (hpos : 0 < fuel) :
    (source.read push fuel key cost done).isSome = true := by
  induction fuel generalizing key cost done with
  | zero => omega
  | succ fuel ih =>
    rw [Source.read]
    cases hask : source.ask key cost with
    | mk cost' answer =>
      cases answer with
      | error error => rfl
      | ok page =>
        obtain ⟨hlt, hle⟩ := hwithin key cost cost' page hask
        dsimp only
        cases source.turn key page with
        | error error => rfl
        | ok next =>
          cases next with
          | none => rfl
          | some next => exact ih _ _ (by omega) (by omega)

theorem read_mono {key : κ} {cost : ℕ} {done : β} {result : ℕ × Except ε (β × κ)}
    (h : source.read push fuel key cost done = some result) {fuel' : ℕ} (hle : fuel ≤ fuel') :
    source.read push fuel' key cost done = some result := by
  induction fuel generalizing key cost done fuel' with
  | zero => contradiction
  | succ fuel ih =>
    obtain ⟨fuel', rfl⟩ : ∃ more, fuel' = more + 1 := ⟨fuel' - 1, by omega⟩
    rw [Source.read] at h ⊢
    generalize source.ask key cost = asked at h ⊢
    obtain ⟨cost', answer⟩ := asked
    cases answer with
    | error error => exact h
    | ok page =>
      dsimp only at h ⊢
      generalize source.turn key page = turned at h ⊢
      cases turned with
      | error error => exact h
      | ok next =>
        cases next with
        | none => exact h
        | some next => exact ih h (by omega)

/-- A loop comes to the same end with any fuel beyond the limit. -/
theorem read_settles {limit : ℕ} (hwithin : source.Within limit) (push : β → α → β) (key : κ)
    (cost : ℕ) (done : β) :
    ∃ result, ∀ fuel, limit < fuel → source.read push fuel key cost done = some result := by
  obtain ⟨result, hresult⟩ := Option.isSome_iff_exists.mp <|
    read_terminates push hwithin key done
      (show limit < limit + 1 + cost by omega) (by omega)
  exact ⟨result, fun fuel hfuel => read_mono hresult hfuel⟩

/-! ### What it returns -/

/-- A loop that returns has walked, and it has gathered the pages of the walk. -/
theorem walk_of_read {key key' : κ} {cost cost' : ℕ} {done done' : β}
    (h : source.read push fuel key cost done = some (cost', .ok (done', key'))) :
    ∃ pages last, Walk source key cost pages key' last cost' ∧ done' = pages.foldl push done := by
  induction fuel generalizing key cost done with
  | zero => contradiction
  | succ fuel ih =>
    rw [Source.read] at h
    cases hask : source.ask key cost with
    | mk between answer =>
      rw [hask] at h
      cases answer with
      | error error => cases h
      | ok page =>
        dsimp only at h
        cases hturn : source.turn key page with
        | error error =>
          rw [hturn] at h
          cases h
        | ok next =>
          rw [hturn] at h
          cases next with
          | none =>
            cases h
            exact ⟨[page], page, .stop hask hturn, rfl⟩
          | some next =>
            obtain ⟨pages, last, hwalk, rfl⟩ := ih h
            exact ⟨page :: pages, last, .next hask hturn hwalk, rfl⟩

theorem Walk.read {key key' : κ} {cost cost' : ℕ} {pages : List α} {last : α}
    (h : Walk source key cost pages key' last cost') (done : β) {result : ℕ × Except ε (β × κ)}
    (hread : source.read push fuel key cost done = some result) :
    result = (cost', .ok (pages.foldl push done, key')) := by
  induction h generalizing fuel done with
  | stop hask hturn =>
    cases fuel with
    | zero => contradiction
    | succ fuel =>
      rw [Source.read, hask] at hread
      dsimp only at hread
      rw [hturn] at hread
      exact (Option.some.inj hread).symm
  | next hask hturn _ ih =>
    cases fuel with
    | zero => contradiction
    | succ fuel =>
      rw [Source.read, hask] at hread
      dsimp only at hread
      rw [hturn] at hread
      exact ih _ hread

theorem Walk.unique {key key₁ key₂ : κ} {cost cost₁ cost₂ : ℕ} {pages₁ pages₂ : List α}
    {last₁ last₂ : α} (h₁ : Walk source key cost pages₁ key₁ last₁ cost₁)
    (h₂ : Walk source key cost pages₂ key₂ last₂ cost₂) :
    pages₁ = pages₂ ∧ key₁ = key₂ ∧ last₁ = last₂ ∧ cost₁ = cost₂ := by
  induction h₁ generalizing pages₂ with
  | stop hask hturn =>
    cases h₂ with
    | stop hask' hturn' =>
      rw [hask] at hask'
      cases hask'
      exact ⟨rfl, rfl, rfl, rfl⟩
    | next hask' hturn' _ =>
      rw [hask] at hask'
      cases hask'
      rw [hturn] at hturn'
      cases hturn'
  | next hask hturn _ ih =>
    cases h₂ with
    | stop hask' hturn' =>
      rw [hask] at hask'
      cases hask'
      rw [hturn] at hturn'
      cases hturn'
    | next hask' hturn' hrest =>
      rw [hask] at hask'
      cases hask'
      rw [hturn] at hturn'
      cases hturn'
      obtain ⟨rfl, hsame⟩ := ih hrest
      exact ⟨rfl, hsame⟩

/-! ### Walks and links -/

variable {links : Links source} {key key' : κ} {cost cost' : ℕ} {pages : List α} {last : α}

/-- A walk that stops at a page without a link has read the whole list. -/
theorem Walk.chain (h : Walk source key cost pages key' last cost') (hlast : ¬links.linked last) :
    Chain links key cost pages cost' := by
  induction h with
  | stop hask _ => exact .last hask hlast
  | next hask hturn _ ih => exact .link hask (links.leads_of_turn hturn) (ih hlast)

/-- The whole list has no more pages than the walk only if the walk stops at its end. -/
theorem Walk.not_linked (h : Walk source key cost pages key' last cost') {pages' : List α}
    {cost'' : ℕ} (hchain : Chain links key cost pages' cost'')
    (hlength : pages'.length = pages.length) :
    ¬links.linked last ∧ pages' = pages ∧ cost'' = cost' := by
  induction h generalizing pages' cost'' with
  | stop hask _ =>
    cases hchain with
    | last hask' hlast =>
      rw [hask] at hask'
      cases hask'
      exact ⟨hlast, rfl, rfl⟩
    | link _ _ hrest =>
      cases hrest with
      | last => simp at hlength
      | link => simp at hlength
  | next hask hturn hrest ih =>
    cases hchain with
    | last hask' hlast =>
      rw [hask] at hask'
      cases hask'
      exact absurd (links.linked_of_leads (links.leads_of_turn hturn)) hlast
    | link hask' hleads hrest' =>
      rw [hask] at hask'
      cases hask'
      obtain rfl := links.unique hleads (links.leads_of_turn hturn)
      obtain ⟨hlast, rfl, rfl⟩ := ih hrest' (by simpa using hlength)
      exact ⟨hlast, rfl, rfl⟩

theorem Reached.head {next : κ} {between : ℕ} {page : α}
    (hask : source.ask key cost = (between, .ok page)) (hleads : links.leads key page next) (h : Reached links next between key' cost') :
    Reached links key cost key' cost' := by
  induction h with
  | start => exact .step .start hask hleads
  | step _ hask' hleads' ih => exact .step ih hask' hleads'

theorem Walk.reached (h : Walk source key cost pages key' last cost') : ∃ before,
    Reached links key cost key' before ∧ source.ask key' before = (cost', .ok last) ∧
      source.turn key' last = .ok none := by
  induction h with
  | stop hask hturn => exact ⟨_, .start, hask, hturn⟩
  | next hask hturn _ ih =>
    obtain ⟨before, hreached, hlast⟩ := ih
    exact ⟨before, hreached.head hask (links.leads_of_turn hturn), hlast⟩

/-- A walk from a page that the links reach is the end of one from the first page, unless that one
stops before, at a page that leads on. -/
theorem Reached.walk (h : Reached links key cost key' cost') :
    (∀ pages key'' last cost'', Walk source key' cost' pages key'' last cost'' →
      ∃ pages', Walk source key cost pages' key'' last cost'') ∨
    ∃ pages key'' last cost'' next, Walk source key cost pages key'' last cost'' ∧
      links.leads key'' last next := by
  induction h with
  | start => exact .inl fun pages _ _ _ hwalk => ⟨pages, hwalk⟩
  | step _ hask hleads ih =>
    rcases ih with ih | ih
    · rcases links.turn_of_leads hleads with hturn | hturn
      · left
        intro pages key'' last cost'' hwalk
        exact ih _ _ _ _ (.next hask hturn hwalk)
      · right
        obtain ⟨pages', hwalk⟩ := ih _ _ _ _ (.stop hask hturn)
        exact ⟨pages', _, _, _, _, hwalk, hleads⟩
    · exact .inr ih

/-- Where no page that leads on stops the reader, the walks are what the links reach. -/
theorem walk_iff_reached
    (hgoes : ∀ key page next, links.leads key page next → source.turn key page ≠ .ok none) :
    (∃ pages, Walk source key cost pages key' last cost') ↔ ∃ before,
      Reached links key cost key' before ∧ source.ask key' before = (cost', .ok last) ∧
        source.turn key' last = .ok none := by
  constructor
  · rintro ⟨pages, hwalk⟩
    exact hwalk.reached
  · rintro ⟨before, hreached, hask, hturn⟩
    rcases hreached.walk with hwalk | ⟨_, key'', last', _, next, hwalk, hleads⟩
    · exact hwalk _ _ _ _ (.stop hask hturn)
    · obtain ⟨_, -, -, hstop⟩ := @Walk.reached _ _ _ source links _ _ _ _ _ _ hwalk
      exact absurd hstop (hgoes key'' last' next hleads)

/-- No walk stops at a page with a link exactly when the reader stops at no such page that the links
reach. -/
theorem not_linked_iff :
    (∀ pages key' last cost', Walk source key cost pages key' last cost' → ¬links.linked last) ↔
      ∀ key' cost' cost'' page, Reached links key cost key' cost' →
        source.ask key' cost' = (cost'', .ok page) → links.linked page →
          source.turn key' page ≠ .ok none := by
  constructor
  · intro h key' cost' cost'' page hreached hask hlinked hturn
    rcases hreached.walk with hwalk | ⟨pages, key'', last, cost₁, next, hwalk, hleads⟩
    · obtain ⟨pages, hpages⟩ := hwalk _ _ _ _ (.stop hask hturn)
      exact h _ _ _ _ hpages hlinked
    · exact h _ _ _ _ hwalk (links.linked_of_leads hleads)
  · intro h pages key' last cost' hwalk hlinked
    obtain ⟨before, hreached, hask, hturn⟩ := @Walk.reached _ _ _ source links _ _ _ _ _ _ hwalk
    exact h _ _ _ _ hreached hask hlinked hturn

end

end Vigil.Lib.Paging
