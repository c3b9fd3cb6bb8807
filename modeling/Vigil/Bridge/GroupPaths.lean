import Vigil.Bridge.GroupTree
import Vigil.Bridge.Reimport

/-! The groups that an import leaves.  Another import finds a group by its parent and its folded
name.  Where the paths of a snapshot differ in their folded names, and none of them is refused, every
path that a run has resolved is found again after it. -/

namespace Vigil.Bridge.GroupPaths

open Import Reimport
open GroupTree (Beginning)
open Lib.Entries (mem_of_lookup notMem_of_lookup lookup_isSome_of_mem)

section

variable {σ ρ : Type} (engine : Engine σ ρ)

/-! ### Paths -/

def fold (name : String) : String := engine.toLowerCase (engine.trim name)

/-- How a key tells the parent. -/
def parentText (parentId : Option ℕ) : String := (parentId.map toString).getD "-"

/-- The group that a path leads to when every name on it is found under its parent. -/
def follow (existing : List (List String × ℕ)) : List String → Option ℕ → Option (Option ℕ)
  | [], parentId => some parentId
  | segment :: rest, parentId =>
    if engine.groupName segment = "" then follow existing rest parentId
    else
      match existing.lookup (groupKey engine parentId (engine.groupName segment)) with
      | some id => follow existing rest (some id)
      | none => none

/-- The path ends in a name. -/
def Named (path : List String) : Prop :=
  ∃ before segment, path = before ++ [segment] ∧ engine.groupName segment ≠ ""

/-- The names of a path as they are matched. -/
def normal (path : List String) : List String :=
  ((path.map engine.groupName).filter (· ≠ "")).map (fold engine)

/-- No two beginnings that end in a name read the same when they are joined. -/
def ReadApart (paths : List (List String)) : Prop :=
  ∀ path path', Beginning paths path → Beginning paths path' → Named engine path →
    Named engine path' → "/".intercalate path = "/".intercalate path' → path = path'

/-- No two of them have the same names as they are matched. -/
def FoldApart (paths : List (List String)) : Prop :=
  ∀ path path', Beginning paths path → Beginning paths path' → Named engine path →
    Named engine path' → normal engine path = normal engine path' → path = path'

/-- What is kept under a path is what the names on it lead to. -/
def Followed (existing : List (List String × ℕ)) (paths : List (List String))
    (byPath : List (String × ℕ)) : Prop :=
  ∀ key id, (key, id) ∈ byPath → ∃ path, Beginning paths path ∧ Named engine path ∧
    "/".intercalate path = key ∧ follow engine existing path none = some (some id)

variable {engine}

theorem follow_append (existing : List (List String × ℕ)) (path rest : List String)
    (parentId : Option ℕ) :
    follow engine existing (path ++ rest) parentId =
      (follow engine existing path parentId).bind (follow engine existing rest) := by
  induction path generalizing parentId with
  | nil => rfl
  | cons segment path ih =>
    rw [List.cons_append, follow, follow]
    split
    · exact ih parentId
    · split
      · exact ih _
      · rfl

variable {existing : List (List String × ℕ)} {path : List String} {id : ℕ}

theorem follow_blank {segment : String} (hblank : engine.groupName segment = "")
    (parentId : Option ℕ) :
    follow engine existing (path ++ [segment]) parentId = follow engine existing path parentId := by
  rw [follow_append]
  cases follow engine existing path parentId with
  | none => rfl
  | some reached => rw [Option.bind_some, follow, if_pos hblank, follow]

theorem follow_concat {segment : String} {parentId reached : Option ℕ}
    (hname : engine.groupName segment ≠ "")
    (hpath : follow engine existing path parentId = some reached)
    (hfound : existing.lookup (groupKey engine reached (engine.groupName segment)) = some id) :
    follow engine existing (path ++ [segment]) parentId = some (some id) := by
  rw [follow_append, hpath, Option.bind_some, follow, if_neg hname, hfound]
  rfl

theorem follow_concat_iff {segment : String} {parentId found : Option ℕ}
    (hname : engine.groupName segment ≠ "") :
    follow engine existing (path ++ [segment]) parentId = some found ↔ ∃ reached id,
      follow engine existing path parentId = some reached ∧
      existing.lookup (groupKey engine reached (engine.groupName segment)) = some id ∧
      found = some id := by
  constructor
  · intro h
    rw [follow_append] at h
    obtain ⟨reached, hreached, h⟩ := Option.bind_eq_some_iff.mp h
    rw [follow, if_neg hname] at h
    cases hlookup : existing.lookup (groupKey engine reached (engine.groupName segment)) with
    | none =>
      rw [hlookup] at h
      contradiction
    | some id =>
      rw [hlookup] at h
      exact ⟨reached, id, hreached, hlookup, (Option.some.inj h).symm⟩
  · rintro ⟨reached, id, hreached, hlookup, rfl⟩
    exact follow_concat hname hreached hlookup

theorem normal_blank {segment : String} (hblank : engine.groupName segment = "") :
    normal engine (path ++ [segment]) = normal engine path := by
  simp [normal, hblank]

theorem normal_concat {segment : String} (hname : engine.groupName segment ≠ "") :
    normal engine (path ++ [segment]) =
      normal engine path ++ [fold engine (engine.groupName segment)] := by
  simp [normal, hname]

theorem parentText_injective {a b : Option ℕ} (h : parentText a = parentText b) : a = b := by
  have hdigits : ∀ n : ℕ, (toString n).toList = Nat.toDigits 10 n := fun n => Nat.toList_repr
  have hdash : ∀ n : ℕ, toString n ≠ "-" := by
    intro n hn
    have hmem : '-' ∈ Nat.toDigits 10 n := by
      rw [← hdigits, hn]
      decide
    exact absurd (Js.Text.isDigit_of_mem_toDigits hmem) (by decide)
  cases a with
  | none =>
    cases b with
    | none => rfl
    | some n => exact absurd h.symm (hdash n)
  | some n =>
    cases b with
    | none => exact absurd h (hdash n)
    | some m =>
      have hsame : Nat.toDigits 10 n = Nat.toDigits 10 m := by
        rw [← hdigits, ← hdigits]
        exact congrArg String.toList h
      rw [← @Nat.ofDigitChars_ten_toDigits n, hsame, Nat.ofDigitChars_ten_toDigits]

/-! ### Rows -/

variable (engine) in
/-- The row does not have the key of a group in another place. -/
def Plain (row : Monitor) : Prop :=
  row.checkType = "group" →
    ∀ parentId, fold engine row.url = parentText parentId → parentId = row.parentId

/-- What is found under the key of a group is a group of that parent and that folded name. -/
theorem lookup_group {monitors : List Monitor} (hplain : ∀ row ∈ monitors, Plain engine row)
    {parentId : Option ℕ} {name : String}
    (h : (loadExisting engine monitors).lookup (groupKey engine parentId name) = some id) :
    ∃ row ∈ monitors, row.id = id ∧ row.checkType = "group" ∧ row.parentId = parentId ∧
      fold engine row.name = fold engine name := by
  obtain ⟨row, hrow, hkey⟩ := List.mem_flatMap.mp (mem_of_lookup h)
  rcases List.mem_append.mp hkey with hkey | hkey
  · split at hkey
    · rename_i htype
      have hkey := List.mem_singleton.mp hkey
      have hparts := (List.cons.inj (congrArg Prod.fst hkey)).2
      have hname := (List.cons.inj (List.cons.inj hparts).2).1
      exact ⟨row, hrow, (congrArg Prod.snd hkey).symm, htype,
        (parentText_injective (List.cons.inj hparts).1).symm, hname.symm⟩
    · cases hkey
  · have hkey := List.mem_singleton.mp hkey
    have hparts := congrArg Prod.fst hkey
    have htype : row.checkType = "group" := (List.cons.inj hparts).1.symm
    have hplace := (List.cons.inj (List.cons.inj hparts).2).1
    have hname := (List.cons.inj (List.cons.inj (List.cons.inj hparts).2).2).1
    exact ⟨row, hrow, (congrArg Prod.snd hkey).symm, htype,
      (hplain row hrow htype parentId hplace.symm).symm, hname.symm⟩

/-- Two paths that lead to one group have the same names as they are matched. -/
theorem normal_eq_of_follow {monitors : List Monitor} (hids : (monitors.map (·.id)).Nodup)
    (hplain : ∀ row ∈ monitors, Plain engine row) {path path' : List String} {id : Option ℕ}
    (h : follow engine (loadExisting engine monitors) path none = some id)
    (h' : follow engine (loadExisting engine monitors) path' none = some id) :
    normal engine path = normal engine path' := by
  induction path using List.reverseRecOn generalizing path' id with
  | nil =>
    cases h
    induction path' using List.reverseRecOn with
    | nil => rfl
    | append_singleton path' segment' ih' =>
      by_cases hblank' : engine.groupName segment' = ""
      · rw [normal_blank hblank']
        exact ih' ((follow_blank hblank' none).symm.trans h')
      · obtain ⟨_, _, -, -, hid⟩ := (follow_concat_iff hblank').mp h'
        contradiction
  | append_singleton path segment ih =>
    by_cases hblank : engine.groupName segment = ""
    · rw [normal_blank hblank]
      exact ih ((follow_blank hblank none).symm.trans h) h'
    · obtain ⟨parent, found, hparent, hfound, rfl⟩ := (follow_concat_iff hblank).mp h
      obtain ⟨row, hrow, hid, -, hplace, hname⟩ := lookup_group hplain hfound
      induction path' using List.reverseRecOn with
      | nil => cases Option.some.inj h'
      | append_singleton path' segment' ih' =>
        by_cases hblank' : engine.groupName segment' = ""
        · rw [normal_blank hblank']
          exact ih' ((follow_blank hblank' none).symm.trans h')
        · obtain ⟨parent', found', hparent', hfound', hsame⟩ := (follow_concat_iff hblank').mp h'
          obtain rfl : found = found' := Option.some.inj hsame
          obtain ⟨row', hrow', hid', -, hplace', hname'⟩ := lookup_group hplain hfound'
          obtain rfl : row = row' :=
            List.inj_on_of_nodup_map hids hrow hrow' (hid.trans hid'.symm)
          rw [normal_concat hblank, normal_concat hblank', ← hname, ← hname',
            ih hparent (hplace ▸ hplace'.symm ▸ hparent')]

/-! ### What stays found -/

variable (engine) in
/-- What is found under the key of a group stays found. -/
def Keeps (existing existing' : List (List String × ℕ)) : Prop :=
  ∀ parentId name id, existing.lookup (groupKey engine parentId name) = some id →
    existing'.lookup (groupKey engine parentId name) = some id

theorem Keeps.refl (existing : List (List String × ℕ)) : Keeps engine existing existing :=
  fun _ _ _ h => h

theorem Keeps.trans {e₁ e₂ e₃ : List (List String × ℕ)} (h : Keeps engine e₁ e₂)
    (h' : Keeps engine e₂ e₃) : Keeps engine e₁ e₃ :=
  fun parentId name id hfound => h' parentId name id (h parentId name id hfound)

theorem Keeps.follow {existing existing' : List (List String × ℕ)}
    (h : Keeps engine existing existing') {parentId found : Option ℕ}
    (hpath : follow engine existing path parentId = some found) :
    GroupPaths.follow engine existing' path parentId = some found := by
  induction path using List.reverseRecOn generalizing found with
  | nil => exact hpath
  | append_singleton path segment ih =>
    by_cases hblank : engine.groupName segment = ""
    · rw [follow_blank hblank] at hpath ⊢
      exact ih hpath
    · obtain ⟨reached, id, hreached, hfound, rfl⟩ := (follow_concat_iff hblank).mp hpath
      exact follow_concat hblank (ih hreached) (h _ _ _ hfound)

theorem Keeps.followed {existing existing' : List (List String × ℕ)}
    (h : Keeps engine existing existing') {paths : List (List String)}
    {byPath : List (String × ℕ)} (hfollowed : Followed engine existing paths byPath) :
    Followed engine existing' paths byPath := by
  intro key id hmem
  obtain ⟨path, hpath, hnamed, hkey, hfollow⟩ := hfollowed key id hmem
  exact ⟨path, hpath, hnamed, hkey, h.follow hfollow⟩

/-! ### Rows that are added -/

theorem lookup_rowKeys_other {row : Monitor} (htype : row.checkType ≠ "group")
    (parentId : Option ℕ) (name : String) :
    (rowKeys engine row).lookup (groupKey engine parentId name) = none := by
  rw [List.lookup_eq_none_iff]
  intro entry hentry
  rw [rowKeys, if_neg htype, List.nil_append, List.mem_singleton] at hentry
  rw [hentry, bne_iff_ne]
  exact fun hkey => htype (List.cons.inj hkey).1.symm

variable (engine) in
/-- No key of a group tells this target as its place. -/
def Elsewhere (url : String) : Prop :=
  ∀ parentId, fold engine url ≠ parentText parentId

theorem groupKey_congr {parentId : Option ℕ} {name name' : String}
    (h : fold engine name = fold engine name') :
    groupKey engine parentId name = groupKey engine parentId name' :=
  congrArg (fun folded => ["group", parentText parentId, folded]) h

theorem lookup_rowKeys_group {row : Monitor} (htype : row.checkType = "group") {name : String}
    (hname : fold engine row.name = fold engine name) :
    (rowKeys engine row).lookup (groupKey engine row.parentId name) = some row.id := by
  rw [rowKeys, if_pos htype, List.singleton_append, groupKey_congr hname, List.lookup_cons_self]

theorem lookup_rowKeys_apart {row : Monitor} (hurl : Elsewhere engine row.url)
    {parentId : Option ℕ} {name : String}
    (hother : ¬(parentId = row.parentId ∧ fold engine name = fold engine row.name)) :
    (rowKeys engine row).lookup (groupKey engine parentId name) = none := by
  rw [List.lookup_eq_none_iff]
  intro entry hentry
  rw [bne_iff_ne]
  intro hkey
  rcases List.mem_append.mp hentry with hentry | hentry
  · split at hentry
    · rw [List.mem_singleton.mp hentry] at hkey
      have hparts := (List.cons.inj hkey).2
      have hname := (List.cons.inj (List.cons.inj hparts).2).1
      exact hother ⟨parentText_injective (List.cons.inj hparts).1, hname⟩
    · cases hentry
  · rw [List.mem_singleton.mp hentry] at hkey
    exact hurl parentId (List.cons.inj (List.cons.inj hkey).2).1.symm

theorem Keeps.cons {monitors : List Monitor} {row : Monitor}
    (hother : ∀ parentId name id,
      (loadExisting engine monitors).lookup (groupKey engine parentId name) = some id →
        (rowKeys engine row).lookup (groupKey engine parentId name) = none) :
    Keeps engine (loadExisting engine monitors) (loadExisting engine (row :: monitors)) := by
  intro parentId name id hfound
  show (rowKeys engine row ++ loadExisting engine monitors).lookup _ = _
  rw [List.lookup_append, hother parentId name id hfound, Option.none_or, hfound]

/-! ### A run -/

/-- What a run has made of its paths so far. -/
structure Grown (engine : Engine σ ρ) (start : List Monitor) (paths : List (List String))
    (running : Running) : Prop where
  ids : (running.monitors.map (·.id)).Nodup
  fresh : ∀ row ∈ running.monitors, row.id < running.nextId
  plain : ∀ row ∈ running.monitors, Plain engine row
  known : ∀ parentId name, running.existing.lookup (groupKey engine parentId name) =
    (loadExisting engine start).lookup (groupKey engine parentId name)
  kept : Keeps engine (loadExisting engine start) (loadExisting engine running.monitors)
  followed : Followed engine (loadExisting engine running.monitors) paths running.byPath
  /-- A group is an old one, or it is kept under a path. -/
  created : ∀ row ∈ running.monitors, row.checkType = "group" →
    row ∈ start ∨ ∃ key, (key, row.id) ∈ running.byPath

variable (engine) in
/-- No group on the paths is refused, and none of them has the key of another place. -/
def Accepted (paths : List (List String)) : Prop :=
  ∀ path ∈ paths, ∀ segment ∈ path, engine.groupName segment ≠ "" →
    ∃ input, engine.parseGroup (engine.groupName segment) = .ok input ∧
      input.checkType = "group" ∧ Elsewhere engine input.url ∧
      fold engine input.name = fold engine (engine.groupName segment)

variable {start : List Monitor} {paths : List (List String)} {running : Running}
  {seen : List String} {segment : String} {parentId : Option ℕ}

/-- The group that a path needs and that the run does not know is nowhere. -/
theorem Grown.lookup_new (h : Grown engine start paths running) (hfold : FoldApart engine paths)
    (hpath : Beginning paths (seen ++ [segment])) (hname : engine.groupName segment ≠ "")
    (hseen : follow engine (loadExisting engine running.monitors) seen none = some parentId)
    (hnew : running.byPath.lookup ("/".intercalate (seen ++ [segment])) = none)
    (hunknown : running.existing.lookup (groupKey engine parentId (engine.groupName segment)) = none) :
    (loadExisting engine running.monitors).lookup
      (groupKey engine parentId (engine.groupName segment)) = none := by
  by_contra hthere
  obtain ⟨id, hid⟩ := Option.ne_none_iff_exists'.mp hthere
  obtain ⟨row, hrow, rfl, htype, rfl, hsame⟩ := lookup_group h.plain hid
  rcases h.created row hrow htype with hold | ⟨key, hkey⟩
  · have hmem : (groupKey engine row.parentId row.name, row.id) ∈ loadExisting engine start := by
      refine List.mem_flatMap.mpr ⟨row, hold, List.mem_append_left _ ?_⟩
      rw [if_pos htype, List.mem_singleton]
    have hfound := lookup_isSome_of_mem hmem
    rw [groupKey_congr hsame, ← h.known, hunknown] at hfound
    contradiction
  · obtain ⟨path, hbegins, hnamed, rfl, hfollow⟩ := h.followed _ _ hkey
    have hnormal := normal_eq_of_follow h.ids h.plain hfollow (follow_concat hname hseen hid)
    rw [hfold path _ hbegins hpath hnamed ⟨seen, segment, rfl, hname⟩ hnormal] at hkey
    exact notMem_of_lookup hnew (List.mem_map_of_mem hkey)

theorem Grown.reuse (h : Grown engine start paths running)
    (hpath : Beginning paths (seen ++ [segment])) (hname : engine.groupName segment ≠ "")
    (hfollow : follow engine (loadExisting engine running.monitors) (seen ++ [segment]) none = some
      (some id)) (entries : List ReportEntry) : Grown engine start paths { running with
      byPath := ("/".intercalate (seen ++ [segment]), id) :: running.byPath
      groupEntries := entries } where
  ids := h.ids
  fresh := h.fresh
  plain := h.plain
  known := h.known
  kept := h.kept
  followed := by
    intro key kept hmem
    rcases List.mem_cons.mp hmem with heq | hmem
    · cases heq
      exact ⟨_, hpath, ⟨seen, segment, rfl, hname⟩, rfl, hfollow⟩
    · exact h.followed key kept hmem
  created := fun row hrow htype => (h.created row hrow htype).imp_right fun ⟨key, hkey⟩ =>
    ⟨key, List.mem_cons_of_mem _ hkey⟩

/-- A row is added that takes no key that was found before. -/
theorem Grown.cons (h : Grown engine start paths running) (row : Monitor)
    (hid : row.id = running.nextId) (hplain : Plain engine row)
    (hkeeps : Keeps engine (loadExisting engine running.monitors)
      (loadExisting engine (row :: running.monitors)))
    {existing : List (List String × ℕ)}
    (hexisting : ∀ parentId name, existing.lookup (groupKey engine parentId name) =
      running.existing.lookup (groupKey engine parentId name))
    {byPath : List (String × ℕ)}
    (hfollowed : Followed engine (loadExisting engine (row :: running.monitors)) paths byPath)
    (hpaths : running.byPath ⊆ byPath)
    (hkept : row.checkType = "group" → ∃ key, (key, row.id) ∈ byPath) (entries : List ReportEntry) :
    Grown engine start paths
      { monitors := row :: running.monitors, nextId := running.nextId + 1, existing, byPath
        groupEntries := entries } where
  ids := by
    refine List.nodup_cons.mpr ⟨fun hmem => ?_, h.ids⟩
    obtain ⟨other, hother, hsame⟩ := List.mem_map.mp hmem
    have hlt := h.fresh other hother
    dsimp only at hsame
    omega
  fresh := by
    intro other hother
    rcases List.mem_cons.mp hother with rfl | hother
    · show other.id < running.nextId + 1
      omega
    · exact Nat.lt_succ_of_lt (h.fresh other hother)
  plain := List.forall_mem_cons.mpr ⟨hplain, h.plain⟩
  known := fun parentId name => (hexisting parentId name).trans (h.known parentId name)
  kept := h.kept.trans hkeeps
  followed := hfollowed
  created := by
    intro other hother htype
    rcases List.mem_cons.mp hother with rfl | hother
    · exact .inr (hkept htype)
    · exact (h.created other hother htype).imp_right fun ⟨key, hkey⟩ => ⟨key, hpaths hkey⟩

/-- The group that a path needs is made, under the group before. -/
theorem Grown.create (h : Grown engine start paths running) (hfold : FoldApart engine paths)
    (hpath : Beginning paths (seen ++ [segment])) (hname : engine.groupName segment ≠ "")
    (hseen : follow engine (loadExisting engine running.monitors) seen none = some parentId)
    (hnew : running.byPath.lookup ("/".intercalate (seen ++ [segment])) = none)
    (hunknown : running.existing.lookup (groupKey engine parentId (engine.groupName segment)) = none)
    {input : MonitorInput} (htype : input.checkType = "group") (hurl : Elsewhere engine input.url)
    (hsame : fold engine input.name = fold engine (engine.groupName segment))
    (entries : List ReportEntry) :
    let monitors := newGroup running input parentId :: running.monitors
    Keeps engine (loadExisting engine running.monitors) (loadExisting engine monitors) ∧
    follow engine (loadExisting engine monitors) (seen ++ [segment]) none =
      some (some running.nextId) ∧
    Grown engine start paths { running with
      monitors
      nextId := running.nextId + 1
      byPath := ("/".intercalate (seen ++ [segment]), running.nextId) :: running.byPath
      groupEntries := entries } := by
  intro monitors
  have hnowhere := h.lookup_new hfold hpath hname hseen hnew hunknown
  have hkeeps : Keeps engine (loadExisting engine running.monitors)
      (loadExisting engine monitors) := by
    refine .cons fun place name id hid => lookup_rowKeys_apart hurl ?_
    rintro ⟨hplace, hfolded⟩
    have hkey : groupKey engine place name = groupKey engine parentId (engine.groupName segment) := by
      rw [show place = parentId from hplace, groupKey_congr (hfolded.trans hsame)]
    rw [hkey, hnowhere] at hid
    contradiction
  have hfound : (loadExisting engine monitors).lookup
      (groupKey engine parentId (engine.groupName segment)) = some running.nextId := by
    show (rowKeys engine (newGroup running input parentId) ++ _).lookup _ = _
    have hrow : (rowKeys engine (newGroup running input parentId)).lookup
        (groupKey engine parentId (engine.groupName segment)) = some running.nextId :=
      @lookup_rowKeys_group σ ρ engine (newGroup running input parentId) htype _ hsame
    rw [List.lookup_append, hrow, Option.some_or]
  have hfollow := follow_concat hname (hkeeps.follow hseen) hfound
  refine ⟨hkeeps, hfollow, ?_⟩
  refine h.cons (newGroup running input parentId) rfl
    (fun _ place hplace => absurd hplace (hurl place)) hkeeps (fun _ _ => rfl) ?_
    (List.subset_cons_self _ _) (fun _ => ⟨_, List.mem_cons_self⟩) entries
  intro key id hmem
  rcases List.mem_cons.mp hmem with heq | hmem
  · cases heq
    exact ⟨_, hpath, ⟨seen, segment, rfl, hname⟩, rfl, hfollow⟩
  · exact hkeeps.followed h.followed key id hmem

/-- A path is resolved, by induction on what is left of it: afterwards it is found. -/
theorem Grown.resolve (hapart : ReadApart engine paths) (hfold : FoldApart engine paths)
    (rest : List String) :
    ∀ (seen : List String) (parentId : Option ℕ) (running : Running),
      Beginning paths (seen ++ rest) →
      (∀ segment ∈ rest, engine.groupName segment ≠ "" →
        ∃ input, engine.parseGroup (engine.groupName segment) = .ok input ∧
          input.checkType = "group" ∧ Elsewhere engine input.url ∧
          fold engine input.name = fold engine (engine.groupName segment)) →
      Grown engine start paths running →
      follow engine (loadExisting engine running.monitors) seen none = some parentId →
      ∃ running' id, Import.resolve engine running seen rest parentId = .ok (running', id) ∧
        Grown engine start paths running' ∧
        Keeps engine (loadExisting engine running.monitors)
          (loadExisting engine running'.monitors) ∧
        follow engine (loadExisting engine running'.monitors) (seen ++ rest) none = some id := by
  induction rest with
  | nil =>
    intro seen parentId running _ _ hgrown hseen
    exact ⟨running, parentId, rfl, hgrown, .refl _, by rw [List.append_nil]; exact hseen⟩
  | cons segment rest ih =>
    intro seen parentId running hpath haccepted hgrown hseen
    rw [List.append_cons] at hpath ⊢
    have hbegins := hpath.of_prefix (List.prefix_append _ _)
    have hrest := fun other hother => haccepted other (List.mem_cons_of_mem _ hother)
    rw [Import.resolve]
    dsimp only
    by_cases hblank : engine.groupName segment = ""
    · rw [if_pos hblank]
      exact ih _ _ _ hpath hrest hgrown ((follow_blank hblank none).trans hseen)
    · rw [if_neg hblank]
      have hnamed : Named engine (seen ++ [segment]) := ⟨seen, segment, rfl, hblank⟩
      cases hknown : running.byPath.lookup ("/".intercalate (seen ++ [segment])) with
      | some known =>
        obtain ⟨path, hpath', hnamed', hkey, hfollow⟩ := hgrown.followed _ _ (mem_of_lookup hknown)
        rw [hapart path _ hpath' hbegins hnamed' hnamed hkey] at hfollow
        exact ih _ _ _ hpath hrest hgrown hfollow
      | none =>
        cases hfound : running.existing.lookup
            (groupKey engine parentId (engine.groupName segment)) with
        | some id =>
          have hfollow := follow_concat hblank hseen
            (hgrown.kept _ _ _ ((hgrown.known _ _).symm.trans hfound))
          exact ih _ _ { running with byPath := _, groupEntries := _ } hpath hrest
            (hgrown.reuse hbegins hblank hfollow _) hfollow
        | none =>
          obtain ⟨input, hparse, htype, hurl, hname⟩ :=
            haccepted segment List.mem_cons_self hblank
          rw [hparse]
          obtain ⟨hkeeps, hfollow, hgrown'⟩ :=
            hgrown.create hfold hbegins hblank hseen hknown hfound htype hurl hname _
          obtain ⟨running', id, hresolve, hfinal, hkept, hreached⟩ :=
            ih _ _ _ hpath hrest hgrown' hfollow
          exact ⟨running', id, hresolve, hfinal, hkeeps.trans hkept, hreached⟩

/-- What a step of a run leaves of the paths. -/
structure Grows (engine : Engine σ ρ) (start : List Monitor) (paths : List (List String))
    (running running' : Running) : Prop where
  grown : Grown engine start paths running'
  keeps : Keeps engine (loadExisting engine running.monitors) (loadExisting engine running'.monitors)

theorem Grown.grows (h : Grown engine start paths running) :
    Grows engine start paths running running :=
  ⟨h, .refl _⟩

theorem Grown.inGroup (h : Grown engine start paths running) (hapart : ReadApart engine paths)
    (hfold : FoldApart engine paths) (haccepted : Accepted engine paths) (hpath : path ∈ paths) :
    Grows engine start paths running (inGroup engine running path).1 ∧
      (follow engine (loadExisting engine (Import.inGroup engine running path).1.monitors) path
        none).isSome = true := by
  obtain ⟨running', id, hresolve, hgrown, hkeeps, hfollow⟩ :=
    Grown.resolve hapart hfold path [] none running ⟨path, hpath, List.prefix_rfl⟩
      (haccepted path hpath) h rfl
  unfold Import.inGroup
  dsimp only
  by_cases hempty : path = []
  · rw [if_pos hempty, hempty]
    exact ⟨h.grows, rfl⟩
  · rw [if_neg hempty, hresolve]
    have hfound : (follow engine (loadExisting engine running'.monitors) path none).isSome = true := by
      rw [← List.nil_append path, hfollow]
      rfl
    cases id with
    | none => exact ⟨⟨hgrown, hkeeps⟩, hfound⟩
    | some id => exact ⟨⟨hgrown, hkeeps⟩, hfound⟩

theorem Grown.storeCheck (h : Grown engine start paths running) {input : MonitorInput}
    (htype : input.checkType ≠ "group") (check : SourceCheck σ) (parentId : Option ℕ)
    (notes : List String) :
    Grows engine start paths running (storeCheck engine running check input parentId notes).1 := by
  unfold Import.storeCheck
  dsimp only
  split
  · exact h.grows
  · cases insertFailure engine running.monitors check input with
    | some failure => exact h.grows
    | none =>
      have hkeeps : Keeps engine (loadExisting engine running.monitors)
          (loadExisting engine (newMonitor engine running check input parentId :: running.monitors)) :=
        .cons fun place name _ _ => lookup_rowKeys_other htype place name
      refine ⟨h.cons _ rfl (fun hgroup => absurd hgroup htype) hkeeps (fun place name => ?_)
        (hkeeps.followed h.followed) (List.Subset.refl _) (fun hgroup => absurd hgroup htype) _, hkeeps⟩
      have hne : groupKey engine place name ≠
          identityKey engine input.checkType input.url input.name :=
        fun hkey => htype (List.cons.inj hkey).1.symm
      rw [List.lookup_cons, beq_false_of_ne hne]

variable (engine) in
/-- The check becomes a monitor. -/
def translates (check : SourceCheck σ) : Bool :=
  match engine.translateCheck check with
  | .unsupported _ => false
  | .build _ _ _ => true

variable (engine) in
/-- No monitor that the check becomes is a group. -/
def Leaf (check : SourceCheck σ) : Prop :=
  ∀ raw notes refusals input, engine.translateCheck check = .build raw notes refusals →
    engine.safeParse raw = .ok input → input.checkType ≠ "group"

theorem Grown.importNew (h : Grown engine start paths running) (hapart : ReadApart engine paths)
    (hfold : FoldApart engine paths) (haccepted : Accepted engine paths) {check : SourceCheck σ}
    (hleaf : Leaf engine check) (hpath : translates engine check = true → check.groupPath ∈ paths) :
    Grows engine start paths running (importNew engine running check).1 ∧
      (translates engine check = true →
        (follow engine (loadExisting engine (Import.importNew engine running check).1.monitors)
          check.groupPath none).isSome = true) := by
  unfold Import.importNew translates at *
  cases htranslate : engine.translateCheck check with
  | unsupported detail =>
    refine ⟨h.grows, fun htrue => ?_⟩
    contradiction
  | build raw notes refusals =>
    rw [htranslate] at hpath
    obtain ⟨hgrows, hfound⟩ := h.inGroup hapart hfold haccepted (hpath rfl)
    dsimp only
    cases hparse : engine.safeParse raw with
    | error issues => exact ⟨hgrows, fun _ => hfound⟩
    | ok input =>
      dsimp only
      split
      · exact ⟨hgrows, fun _ => hfound⟩
      · have hstored := hgrows.grown.storeCheck (hleaf _ _ _ _ htranslate hparse) check
          (Import.inGroup engine running check.groupPath).2.1
          (notes ++ (Import.inGroup engine running check.groupPath).2.2)
        refine ⟨⟨hstored.grown, hgrows.keeps.trans hstored.keeps⟩, fun _ => ?_⟩
        obtain ⟨id, hid⟩ := Option.isSome_iff_exists.mp hfound
        rw [hstored.keeps.follow hid]
        rfl

/-- A snapshot of which no two group paths coincide and no group is refused, for rows whose ids are
distinct. -/
structure Ordinary (engine : Engine σ ρ) (store : Store) (checks : List (SourceCheck σ))
    (paths : List (List String)) : Prop where
  ids : (store.monitors.map (·.id)).Nodup
  fresh : ∀ row ∈ store.monitors, row.id < store.nextId
  plain : ∀ row ∈ store.monitors, Plain engine row
  among : ∀ check ∈ checks, translates engine check = true → check.groupPath ∈ paths
  leaves : ∀ check ∈ checks, Leaf engine check
  apart : ReadApart engine paths
  folded : FoldApart engine paths
  accepted : Accepted engine paths

theorem Ordinary.grown {store : Store} {checks : List (SourceCheck σ)}
    (h : Ordinary engine store checks paths) :
    Grown engine store.monitors paths (store.running engine) where
  ids := h.ids
  fresh := h.fresh
  plain := h.plain
  known := fun _ _ => rfl
  kept := .refl _
  followed := nofun
  created := fun _ hrow _ => .inl hrow

/-- After a run every path of a check that it has not passed over is found. -/
theorem Ordinary.importChecks {store : Store} {checks done : List (SourceCheck σ)}
    (h : Ordinary engine store checks paths) (hdone : done ⊆ checks)
    (imported : String → Option Monitor) :
    let running := (importChecks engine imported (store.running engine) done).1
    Grown engine store.monitors paths running ∧
      ∀ check ∈ done, imported check.sourceId = none → translates engine check = true →
        (follow engine (loadExisting engine running.monitors) check.groupPath none).isSome = true := by
  induction done using List.reverseRecOn with
  | nil => exact ⟨h.grown, nofun⟩
  | append_singleton done check ih =>
    obtain ⟨hgrown, hfound⟩ := ih fun other hother => hdone (List.mem_append_left _ hother)
    have hcheck : check ∈ checks := hdone (by simp)
    rw [importChecks_concat]
    generalize (Import.importChecks engine imported (store.running engine) done).1 = between
      at hgrown hfound
    unfold importCheck
    cases himported : imported check.sourceId with
    | some already =>
      refine ⟨hgrown, fun other hother hnone => ?_⟩
      rcases List.mem_append.mp hother with hother | hother
      · exact hfound other hother hnone
      · rw [List.mem_singleton.mp hother, himported] at hnone
        contradiction
    | none =>
      obtain ⟨hgrows, hnew⟩ := hgrown.importNew h.apart h.folded h.accepted (h.leaves check hcheck)
        (h.among check hcheck)
      refine ⟨hgrows.grown, fun other hother hnone htranslates => ?_⟩
      rcases List.mem_append.mp hother with hother | hother
      · obtain ⟨id, hid⟩ := Option.isSome_iff_exists.mp (hfound other hother hnone htranslates)
        show (follow engine (loadExisting engine (Import.importNew engine between check).1.monitors)
          other.groupPath none).isSome = true
        rw [hgrows.keeps.follow hid]
        rfl
      · rw [List.mem_singleton.mp hother] at htranslates ⊢
        exact hnew htranslates

end

end Vigil.Bridge.GroupPaths
