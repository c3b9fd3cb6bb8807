import Vigil.Monitors.Conditions

/-! The state of a group, `types/specs/group.ts`: what `derive` counts over the members, judged by
the assertions of the group, and groups of groups to any depth.  The verdict of a group, taken for
its status, is the worst status that the monitors below it establish. -/

namespace Vigil.Monitors.GroupVerdict

open Js.Text Js.Object Ledger.Canonical StatusController Conditions

/-- What a group reads of a member. -/
structure ChildState where
  name : JsString
  status : MonitorStatus
  paused : Bool
  intervalSeconds : ℕ
  deriving DecidableEq, Repr

/-- The place of a status in `SEVERITY_ORDER`. -/
def severityIndex : MonitorStatus → ℕ
  | .down => 0
  | .degraded => 1
  | .unknown => 2
  | .up => 3

def countedMembers (children : List ChildState) : List ChildState :=
  children.filter fun child => !child.paused

/-- An assertion that a count is zero. -/
def noMembers (id fact : JsString) (severity : Severity) (one many : JsString) :
    Assertion Unit where
  id
  fact
  severity
  applies := none
  evaluate value _ :=
    match value with
    | .number x =>
      if x = .integer 0 then none
      else some (if x = .integer 1 then one else encodeUtf16 x.chars ++ many)
    | _ => none

/-- No member may be down. -/
def anyMemberDown : Assertion Unit :=
  noMembers (js "member-down") (js "downMembers") .down (js "One member is down")
    (js " members are down")

/-- No member may be degraded. -/
def anyMemberDegraded : Assertion Unit :=
  noMembers (js "member-degraded") (js "degradedMembers") .degraded (js "One member is degraded")
    (js " members are degraded")

def assertions : List (Assertion Unit) := [anyMemberDown, anyMemberDegraded]

def countOf (status : MonitorStatus) (counted : List ChildState) : ℕ :=
  counted.countP fun child => child.status = status

def numberFact (n : ℕ) : JsValue := .number (.integer n)

/-- The first of the members that no other is worse than. -/
def worstMember (counted : List ChildState) : Option ChildState :=
  (counted.insertionSort fun a b => severityIndex a.status ≤ severityIndex b.status).head?

/-- The facts of a group. -/
def memberFacts (memberCount downMembers degradedMembers unmeasuredMembers : ℕ)
    (worst memberIntervalSeconds : JsValue) : Entries :=
  [(js "memberCount", numberFact memberCount),
    (js "downMembers", numberFact downMembers),
    (js "degradedMembers", numberFact degradedMembers),
    (js "unmeasuredMembers", numberFact unmeasuredMembers),
    (js "worstMember", worst),
    (js "memberIntervalSeconds", memberIntervalSeconds)]

/-- What a group finds out about its members. -/
def derive (children : List ChildState) : ProbeResult :=
  let counted := countedMembers children
  if counted = [] then
    { facts := memberFacts 0 0 0 0 .null .null
      error := none
      unavailable := some
        (if children = [] then js "This group has no members yet."
        else js "Every member of this group is paused.") }
  else
    let unmeasuredMembers := countOf .unknown counted
    { facts := memberFacts counted.length (countOf .down counted) (countOf .degraded counted)
        unmeasuredMembers (((worstMember counted).map fun worst => .string worst.name).getD .null)
        (numberFact ((counted.map (·.intervalSeconds)).foldr max 0))
      error := none
      unavailable :=
        if unmeasuredMembers = counted.length then
          some (js "No member of this group has been measured yet.")
        else none }

/-- The verdict of `evaluateMonitor` on a group with these members. -/
def groupVerdict (children : List ChildState) : Verdict :=
  (judge assertions () (derive children)).verdict

/-- The status that a verdict would establish. -/
def statusOf : Verdict → MonitorStatus
  | .up => .up
  | .degraded => .degraded
  | .down => .down
  | .indeterminate => .unknown

/-! ### The verdict of one group -/

/-- The statuses that the members establish. -/
def established (children : List ChildState) : List MonitorStatus :=
  ((countedMembers children).map (·.status)).filter (· ≠ .unknown)

variable {children : List ChildState}

theorem mem_established {status : MonitorStatus} : status ∈ established children ↔
      status ≠ .unknown ∧ ∃ child ∈ children, child.paused = false ∧ child.status = status := by
  simp only [established, countedMembers, List.mem_filter, List.mem_map, decide_eq_true_eq,
    Bool.not_eq_true']
  constructor
  · rintro ⟨⟨child, ⟨hmem, hpaused⟩, hstatus⟩, hne⟩
    exact ⟨hne, child, hmem, hpaused, hstatus⟩
  · rintro ⟨hne, child, hmem, hpaused, hstatus⟩
    exact ⟨⟨child, ⟨hmem, hpaused⟩, hstatus⟩, hne⟩

theorem established_eq_nil :
    established children = [] ↔ ∀ child ∈ countedMembers children, child.status = .unknown := by
  rw [established, List.filter_eq_nil_iff]
  simp only [List.mem_map, decide_eq_true_eq, not_not, forall_exists_index, and_imp,
    forall_apply_eq_imp_iff₂]

/-- A group is unavailable exactly if its members establish nothing. -/
theorem derive_unavailable (children : List ChildState) :
    (stated (derive children).unavailable).isSome = true ↔ established children = [] := by
  rw [established_eq_nil, derive]
  by_cases hnone : countedMembers children = []
  · rw [if_pos hnone, hnone]
    refine iff_of_true ?_ nofun
    split
    · decide +kernel
    · decide +kernel
  · rw [if_neg hnone]
    dsimp only
    have hcount : countOf .unknown (countedMembers children) = (countedMembers children).length ↔
        ∀ child ∈ countedMembers children, child.status = .unknown := by
      rw [countOf, List.countP_eq_length]
      simp only [decide_eq_true_eq]
    rw [← hcount]
    split
    · rename_i hall
      exact iff_of_true (by decide +kernel) hall
    · rename_i hsome
      exact iff_of_false Bool.false_ne_true hsome

theorem derive_error (children : List ChildState) : (derive children).error = none := by
  rw [derive]
  split
  · rfl
  · rfl

/-- A count fails its assertion exactly if it counts something. -/
theorem noMembers_fails {id fact : JsString} {severity : Severity} {one many : JsString}
    {facts : Entries} {n : ℕ} (h : facts.lookup fact = some (numberFact n)) :
    ((noMembers id fact severity one many).failure? () facts).isSome = true ↔ 0 < n := by
  have hget : (JsObject.of facts).get fact = .number (.integer n) := by
    rw [JsObject.get, JsObject.of, h]
    rfl
  have hfailure : (noMembers id fact severity one many).failure? () facts =
      (noMembers id fact severity one many).evaluate ((JsObject.of facts).get fact) () := if_neg (by simp [noMembers])
  rw [hfailure, hget, noMembers]
  dsimp only
  by_cases hzero : n = 0
  · rw [if_pos (by rw [hzero]; rfl)]
    exact iff_of_false Bool.false_ne_true (by omega)
  · rw [if_neg fun h => hzero (by injection h with h; omega)]
    exact iff_of_true rfl (by omega)

theorem lookup_downMembers (memberCount down degraded unmeasured : ℕ) (worst interval : JsValue) :
    (memberFacts memberCount down degraded unmeasured worst interval).lookup (js "downMembers") =
      some (numberFact down) := by
  rw [memberFacts, lookup_cons_of_ne (by decide +kernel), List.lookup_cons_self]

theorem lookup_degradedMembers (memberCount down degraded unmeasured : ℕ)
    (worst interval : JsValue) :
    (memberFacts memberCount down degraded unmeasured worst interval).lookup
      (js "degradedMembers") = some (numberFact degraded) := by
  rw [memberFacts, lookup_cons_of_ne (by decide +kernel), lookup_cons_of_ne (by decide +kernel),
    List.lookup_cons_self]

/-- What `derive` reports of a status is how many members have it. -/
theorem derive_counts (children : List ChildState) :
    (derive children).facts.lookup (js "downMembers") =
        some (numberFact (countOf .down (countedMembers children))) ∧
      (derive children).facts.lookup (js "degradedMembers") =
        some (numberFact (countOf .degraded (countedMembers children))) := by
  rw [derive]
  by_cases hnone : countedMembers children = []
  · rw [if_pos hnone, hnone]
    exact ⟨lookup_downMembers _ _ _ _ _ _, lookup_degradedMembers _ _ _ _ _ _⟩
  · rw [if_neg hnone]
    exact ⟨lookup_downMembers _ _ _ _ _ _, lookup_degradedMembers _ _ _ _ _ _⟩

theorem countOf_pos {status : MonitorStatus} (hstatus : status ≠ .unknown) :
    0 < countOf status (countedMembers children) ↔ status ∈ established children := by
  rw [countOf, List.countP_pos_iff, mem_established]
  simp only [countedMembers, List.mem_filter, Bool.not_eq_true', decide_eq_true_eq]
  constructor
  · rintro ⟨child, ⟨hmem, hpaused⟩, heq⟩
    exact ⟨hstatus, child, hmem, hpaused, heq⟩
  · rintro ⟨-, child, hmem, hpaused, heq⟩
    exact ⟨child, ⟨hmem, hpaused⟩, heq⟩

theorem fails_down (children : List ChildState) :
    Fails .down assertions () (derive children).facts ↔ .down ∈ established children := by
  rw [← countOf_pos (by decide), ← noMembers_fails (derive_counts children).1]
  constructor
  · rintro ⟨a, ha, hseverity, hfails⟩
    rcases List.mem_pair.mp ha with rfl | rfl
    · exact hfails
    · cases hseverity
  · exact fun hfails => ⟨anyMemberDown, List.mem_cons_self, rfl, hfails⟩

theorem fails_degraded (children : List ChildState) :
    Fails .degraded assertions () (derive children).facts ↔ .degraded ∈ established children := by
  rw [← countOf_pos (by decide), ← noMembers_fails (derive_counts children).2]
  constructor
  · rintro ⟨a, ha, hseverity, hfails⟩
    rcases List.mem_pair.mp ha with rfl | rfl
    · cases hseverity
    · exact hfails
  · exact fun hfails => ⟨anyMemberDegraded, List.mem_cons_of_mem _ List.mem_cons_self, rfl, hfails⟩

/-- The verdict of a group, by what its members establish. -/
theorem groupVerdict_eq (children : List ChildState) :
    groupVerdict children =
      if established children = [] then .indeterminate
      else if .down ∈ established children then .down
      else if .degraded ∈ established children then .degraded
      else .up := by
  have herror : ¬(stated (derive children).error).isSome = true := by
    rw [derive_error]
    exact Bool.false_ne_true
  rw [groupVerdict, judge_verdict, verdictOf]
  simp only [derive_unavailable, fails_down, fails_degraded, herror, Bool.false_eq_true, false_or]

/-! ### Groups of groups -/

/-- A monitor with what it was last known to be, or a group with its members in the order of their
creation.  A group has no status of its own. -/
inductive Tree where
  | leaf (shadowBridgeId : Option ℕ) (state : ChildState)
  | group (shadowBridgeId : Option ℕ) (name : JsString) (paused : Bool) (intervalSeconds : ℕ)
      (members : List Tree)

def Tree.shadowBridgeId : Tree → Option ℕ
  | .leaf shadow _ => shadow
  | .group shadow _ _ _ _ => shadow

/-- The monitor is paused. -/
def Tree.paused : Tree → Bool
  | .leaf _ state => state.paused
  | .group _ _ paused _ _ => paused

mutual

/-- A row that `memberStates` reads; the status of a group is that of its verdict. -/
def Tree.childState : Tree → ChildState
  | .leaf _ state => state
  | .group shadow name paused intervalSeconds members =>
    { name, paused, intervalSeconds
      status := statusOf (groupVerdict (memberStates shadow members)) }

/-- A member is one of the group's shadow setting. -/
def memberStates (shadow : Option ℕ) : List Tree → List ChildState
  | [] => []
  | member :: rest =>
    if member.shadowBridgeId = shadow then member.childState :: memberStates shadow rest
    else memberStates shadow rest

end

/-- The verdict of a group with these members. -/
def evaluate (shadow : Option ℕ) (members : List Tree) : Verdict :=
  groupVerdict (memberStates shadow members)

mutual

/-- The statuses of the monitors below that are neither paused nor unknown, nor below a group that
is paused. -/
def Tree.known : Tree → List MonitorStatus
  | .leaf _ state => if state.paused || state.status = .unknown then [] else [state.status]
  | .group _ _ paused _ members => if paused then [] else knownIn members

def knownIn : List Tree → List MonitorStatus
  | [] => []
  | member :: rest => member.known ++ knownIn rest

end

mutual

/-- Every monitor and every group has this shadow setting. -/
def Tree.OfSetting (shadow : Option ℕ) : Tree → Prop
  | .leaf own _ => own = shadow
  | .group own _ _ _ members => own = shadow ∧ AllOfSetting shadow members

def AllOfSetting (shadow : Option ℕ) : List Tree → Prop
  | [] => True
  | member :: rest => member.OfSetting shadow ∧ AllOfSetting shadow rest

end

/-- How bad a status is. -/
def severityRank : MonitorStatus → ℕ
  | .unknown => 0
  | .up => 1
  | .degraded => 2
  | .down => 3

/-- The status is the worst of these, and unknown when there is none. -/
structure Worst (statuses : List MonitorStatus) (status : MonitorStatus) : Prop where
  upper : ∀ s ∈ statuses, severityRank s ≤ severityRank status
  attained : statuses = [] ∧ status = .unknown ∨ status ∈ statuses

theorem severityRank_inj {s s' : MonitorStatus} (h : severityRank s = severityRank s') :
    s = s' := by
  cases s <;> cases s' <;> simp_all [severityRank]

theorem statusOf_inj {verdict verdict' : Verdict} (h : statusOf verdict = statusOf verdict') :
    verdict = verdict' := by
  cases verdict <;> cases verdict' <;> simp_all [statusOf]

theorem Worst.unique {statuses statuses' : List MonitorStatus} {s s' : MonitorStatus}
    (h : Worst statuses s) (h' : Worst statuses' s')
    (hsame : ∀ x, x ∈ statuses ↔ x ∈ statuses') : s = s' := by
  rcases h.attained with ⟨rfl, rfl⟩ | hmem
  · rcases h'.attained with ⟨-, rfl⟩ | hmem'
    · rfl
    · exact absurd ((hsame s').mpr hmem') List.not_mem_nil
  · rcases h'.attained with ⟨rfl, -⟩ | hmem'
    · exact absurd ((hsame s).mp hmem) List.not_mem_nil
    · exact severityRank_inj (le_antisymm (h'.upper s ((hsame s).mp hmem))
        (h.upper s' ((hsame s').mpr hmem')))

/-- The verdict of a group is the worst that its members establish. -/
theorem worst_groupVerdict (children : List ChildState) :
    Worst (established children) (statusOf (groupVerdict children)) := by
  have hknown : ∀ s ∈ established children, s ≠ .unknown := fun s hs => (mem_established.mp hs).1
  rw [groupVerdict_eq]
  split_ifs with hnone hdown hdegraded
  · rw [hnone]
    exact ⟨nofun, .inl ⟨rfl, rfl⟩⟩
  · refine ⟨fun s _ => ?_, .inr hdown⟩
    cases s <;> simp [severityRank, statusOf]
  · refine ⟨fun s hs => ?_, .inr hdegraded⟩
    cases s with
    | down => exact absurd hs hdown
    | _ => simp [severityRank, statusOf]
  · have hup : ∀ s ∈ established children, s = .up := by
      intro s hs
      cases s with
      | up => rfl
      | down => exact absurd hs hdown
      | degraded => exact absurd hs hdegraded
      | unknown => exact absurd rfl (hknown _ hs)
    obtain ⟨s, hs⟩ := List.exists_mem_of_ne_nil _ hnone
    refine ⟨fun s hs => by rw [hup s hs]; exact le_rfl, .inr ?_⟩
    rwa [hup s hs] at hs

variable {members : List Tree}

theorem mem_knownIn {s : MonitorStatus} :
    s ∈ knownIn members ↔ ∃ member ∈ members, s ∈ member.known := by
  induction members with
  | nil => simp [knownIn]
  | cons member rest ih =>
    rw [knownIn, List.mem_append, ih]
    simp

theorem memberStates_eq {shadow : Option ℕ} (h : AllOfSetting shadow members) :
    memberStates shadow members = members.map Tree.childState := by
  induction members with
  | nil => rfl
  | cons member rest ih =>
    obtain ⟨hmember, hrest⟩ := h
    have hshadow : member.shadowBridgeId = shadow := by
      cases member with
      | leaf own state => exact hmember
      | group own name paused intervalSeconds members => exact hmember.1
    rw [memberStates, if_pos hshadow, ih hrest, List.map_cons]

theorem childState_paused (member : Tree) : member.childState.paused = member.paused := by
  cases member with
  | leaf own state => rfl
  | group own name paused intervalSeconds members => rfl

theorem known_of_paused {member : Tree} (h : member.paused = true) : member.known = [] := by
  cases member with
  | leaf own state =>
    have hpaused : state.paused = true := h
    rw [Tree.known, hpaused]
    rfl
  | group own name paused intervalSeconds members => exact if_pos h

mutual

theorem Tree.known_ne_unknown : ∀ (member : Tree), ∀ s ∈ member.known, s ≠ .unknown
  | .leaf _ state, s, hs => by
    rw [Tree.known] at hs
    split at hs
    · cases hs
    · rename_i hcounts
      rw [List.mem_singleton.mp hs]
      exact fun hunknown => hcounts (by simp [hunknown])
  | .group _ _ paused _ members, s, hs => by
    rw [Tree.known] at hs
    split at hs
    · cases hs
    · exact knownIn_ne_unknown members s hs

theorem knownIn_ne_unknown : ∀ (members : List Tree), ∀ s ∈ knownIn members, s ≠ .unknown
  | [], s, hs => absurd hs List.not_mem_nil
  | member :: rest, s, hs => by
    rw [knownIn, List.mem_append] at hs
    rcases hs with hmember | hrest
    · exact Tree.known_ne_unknown member s hmember
    · exact knownIn_ne_unknown rest s hrest

end

/-- The worst of what the members establish is the worst of the monitors below them. -/
theorem worst_of_members {shadow : Option ℕ} (hshadow : AllOfSetting shadow members)
    (hmembers : ∀ member ∈ members, member.paused = false → Worst member.known
      member.childState.status) : Worst (knownIn members) (statusOf (evaluate shadow members)) := by
  have hworst := worst_groupVerdict (memberStates shadow members)
  have hestablished : ∀ s, s ∈ established (memberStates shadow members) ↔ s ≠ .unknown ∧
      ∃ member ∈ members, member.paused = false ∧ member.childState.status = s := by
    intro s
    rw [mem_established, memberStates_eq hshadow]
    simp only [List.mem_map, exists_exists_and_eq_and, childState_paused]
  -- A monitor that counts is below a member that is not paused.
  have hcounted : ∀ s ∈ knownIn members, ∃ member ∈ members, member.paused = false ∧
      s ∈ member.known ∧ severityRank s ≤ severityRank member.childState.status ∧
      member.childState.status ≠ .unknown := by
    intro s hs
    obtain ⟨member, hmem, hknown⟩ := mem_knownIn.mp hs
    have hpaused : member.paused = false := by
      by_contra hpaused
      rw [known_of_paused (Bool.not_eq_false _ ▸ hpaused)] at hknown
      cases hknown
    have hmember := hmembers member hmem hpaused
    refine ⟨member, hmem, hpaused, hknown, hmember.upper s hknown, fun hunknown => ?_⟩
    have hrank := hmember.upper s hknown
    rw [hunknown] at hrank
    cases s with
    | unknown => exact member.known_ne_unknown _ hknown rfl
    | _ => simp [severityRank] at hrank
  constructor
  · intro s hs
    obtain ⟨member, hmem, hpaused, -, hle, hne⟩ := hcounted s hs
    exact hle.trans (hworst.upper _ ((hestablished _).mpr ⟨hne, member, hmem, hpaused, rfl⟩))
  · rcases hworst.attained with ⟨hnone, hunknown⟩ | hattained
    · refine .inl ⟨List.eq_nil_iff_forall_not_mem.mpr fun s hs => ?_, hunknown⟩
      obtain ⟨member, hmem, hpaused, -, -, hne⟩ := hcounted s hs
      have hin := (hestablished _).mpr ⟨hne, member, hmem, hpaused, rfl⟩
      rw [hnone] at hin
      cases hin
    · obtain ⟨hne, member, hmem, hpaused, hstatus⟩ := (hestablished _).mp hattained
      rcases (hmembers member hmem hpaused).attained with ⟨-, hunknown⟩ | hknown
      · exact absurd (hstatus.symm.trans hunknown) hne
      · exact .inr (mem_knownIn.mpr ⟨member, hmem, hstatus ▸ hknown⟩)

mutual

theorem Tree.worst {shadow : Option ℕ} : ∀ member : Tree, member.OfSetting shadow →
    member.paused = false → Worst member.known member.childState.status
  | .leaf own state, _, hpaused => by
    have hrunning : state.paused = false := hpaused
    rw [Tree.known, Tree.childState, hrunning]
    by_cases hunknown : state.status = .unknown
    · rw [if_pos (by simp [hunknown]), hunknown]
      exact ⟨nofun, .inl ⟨rfl, rfl⟩⟩
    · rw [if_neg (by simp [hunknown])]
      exact ⟨fun s hs => by rw [List.mem_singleton.mp hs], .inr (List.mem_singleton_self _)⟩
  | .group own name paused intervalSeconds members, h, hpaused => by
    obtain ⟨hown, hall⟩ := h
    have hrunning : paused = false := hpaused
    subst hown
    rw [Tree.known, hrunning, if_neg Bool.false_ne_true, Tree.childState]
    exact worst_of_members hall (Tree.allWorst members hall)

theorem Tree.allWorst {shadow : Option ℕ} : ∀ members : List Tree, AllOfSetting shadow members →
    ∀ member ∈ members, member.paused = false → Worst member.known member.childState.status
  | [], _, member, hmem => absurd hmem List.not_mem_nil
  | first :: rest, h, member, hmem => by
    rcases List.mem_cons.mp hmem with heq | hrest
    · rw [heq]
      exact Tree.worst first h.1
    · exact Tree.allWorst rest h.2 member hrest

end

/-- The verdict of a group is the worst status of the monitors below it that count, and inconclusive
exactly when none does.  It depends on nothing but which statuses these have. -/
theorem nested_verdict (shadow : Option ℕ) (members : List Tree)
    (h : AllOfSetting shadow members) :
    (evaluate shadow members = .indeterminate ↔ knownIn members = []) ∧
    (knownIn members ≠ [] → statusOf (evaluate shadow members) ∈ knownIn members ∧
      ∀ s ∈ knownIn members, severityRank s ≤ severityRank (statusOf (evaluate shadow members))) ∧
    (∀ members', AllOfSetting shadow members' →
      (∀ s, s ∈ knownIn members ↔ s ∈ knownIn members') →
      evaluate shadow members' = evaluate shadow members) := by
  have hworst : ∀ members, AllOfSetting shadow members →
      Worst (knownIn members) (statusOf (evaluate shadow members)) := fun members hall =>
    worst_of_members hall (Tree.allWorst members hall)
  have hunknown : ∀ verdict, statusOf verdict = .unknown ↔ verdict = .indeterminate := by
    intro verdict
    cases verdict <;> simp [statusOf]
  refine ⟨⟨fun hverdict => ?_, fun hnone => ?_⟩, fun hsome => ⟨?_, (hworst members h).upper⟩,
    fun members' h' hsame => ?_⟩
  · rcases (hworst members h).attained with ⟨hnone, -⟩ | hmem
    · exact hnone
    · exact absurd ((hunknown _).mpr hverdict) (knownIn_ne_unknown members _ hmem)
  · rcases (hworst members h).attained with ⟨-, hstatus⟩ | hmem
    · exact (hunknown _).mp hstatus
    · rw [hnone] at hmem
      cases hmem
  · exact (hworst members h).attained.resolve_left fun hnone => hsome hnone.1
  · exact statusOf_inj ((hworst members' h').unique (hworst members h) fun s => (hsame s).symm)

/-- A group of a paused group that is down, a group with nothing in it, and a slow monitor. -/
def mixedMembers : List Tree :=
  [.group none (js "paused") true 60 [.leaf none ⟨js "a", .down, false, 60⟩],
    .group none (js "empty") false 60 [],
    .group none (js "live") false 60
      [.leaf none ⟨js "b", .degraded, false, 60⟩, .leaf none ⟨js "c", .down, true, 60⟩],
    .leaf none ⟨js "d", .up, false, 60⟩]

theorem nested_verdict_mixed : evaluate none mixedMembers ≠ .indeterminate := by
  have hshadow : AllOfSetting none mixedMembers := by
    simp [mixedMembers, AllOfSetting, Tree.OfSetting]
  have hknown : knownIn mixedMembers = [.degraded, .up] := by decide
  intro hverdict
  rw [(nested_verdict none mixedMembers hshadow).1.mp hverdict] at hknown
  cases hknown

end Vigil.Monitors.GroupVerdict
