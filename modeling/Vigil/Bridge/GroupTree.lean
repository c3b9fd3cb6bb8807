import Vigil.Lib.Entries
import Vigil.Monitors.Push
import Mathlib.Data.List.Infix

/-! The groups of an import: the class `GroupTree` of `importers/engine.ts`.  A path of names becomes
a chain of group monitors; what it became is kept under the path joined by "/", and groups that were
there before are found by their parent and their folded name.  Every call runs in a savepoint of its
own, and one that throws undoes what it kept. -/

namespace Vigil.Bridge.GroupTree

open Js.Text Monitors.Push
open Lib.Entries (mem_of_lookup notMem_of_lookup)

/-! ### Data -/

/-- An identifier of 36 characters. -/
structure Uuid where
  text : JsString
  length : text.length = 36
  deriving DecidableEq

/-- The columns that a group is found and made by. -/
structure Monitor where
  id : Uuid
  name : JsString
  url : JsString
  checkType : JsString
  parentId : Option Uuid
  deriving DecidableEq

def groupType : JsString := js "group"

/-- The line of the report about a group. -/
structure ReportEntry where
  sourceId : JsString
  label : JsString
  detail : JsString
  monitorId : Option Uuid
  deriving DecidableEq

/-- `#byPath` and `#entries`. -/
structure Tree where
  byPath : List (JsString × Uuid)
  entries : List ReportEntry
  deriving DecidableEq

structure State where
  monitors : List Monitor
  tree : Tree
  deriving DecidableEq

/-- The path of one call, the ids that are drawn at its depths, and where the database refuses a
group. -/
structure Call where
  path : List JsString
  drawn : ℕ → Uuid
  refusal : ℕ → Option JsString

/-! ### Keys -/

section

variable (toLowerCase : JsString → JsString)

def fold (name : JsString) : JsString := toLowerCase (trim name)

/-- The parts of a key, which are joined by NUL: no column holds one. -/
def identityKey (checkType url name : JsString) : List JsString :=
  [checkType, fold toLowerCase url, fold toLowerCase name]

def parentText (parentId : Option Uuid) : JsString := (parentId.map Uuid.text).getD (js "-")

def groupKey (parentId : Option Uuid) (name : JsString) : List JsString :=
  [groupType, parentText parentId, fold toLowerCase name]

/-- The keys of a row, in the order in which they are set. -/
def rowKeys (row : Monitor) : List (List JsString × Uuid) :=
  (identityKey toLowerCase row.checkType row.url row.name, row.id) ::
    if row.checkType = groupType then [(groupKey toLowerCase row.parentId row.name, row.id)] else []

/-- A key that is set again has the row that came last. -/
def loadExisting (monitors : List Monitor) : List (List JsString × Uuid) :=
  (monitors.flatMap (rowKeys toLowerCase)).reverse

end

/-! ### One call -/

/-- `(path[depth] ?? "").trim().slice(0, 100)` -/
def segmentName (segment : JsString) : JsString := (trim segment).take 100

/-- `join("/")` -/
def joined (path : List JsString) : JsString := (js "/").intercalate path

/-- The schema trims the name; the parent must be a group, and the id a new one. -/
def createMonitor (monitors : List Monitor) (id : Uuid) (refusal : Option JsString)
    (name : JsString) (parentId : Option Uuid) : Except JsString Monitor :=
  let parents := monitors.filter fun row => row.checkType = groupType
  if !(parentId.all fun parentId => parents.any fun row => row.id = parentId) then
    .error (js "That group does not exist.")
  else if monitors.any fun row => row.id = id then .error (js "duplicate key value")
  else
    match refusal with
    | some message => .error message
    | none => .ok { id, name := trim name, url := trim name, checkType := groupType, parentId }

def reusedDetail : JsString :=
  js "A group of this name already existed in this organisation and was reused rather than duplicated, so importing the same source twice does not produce two of everything."

def createdDetail (parentId : Option Uuid) (outer : JsString) : JsString :=
  js "Created as a Vigil group monitor" ++
    (if parentId.isNone then [] else js " inside \"" ++ outer ++ js "\"") ++
    js ". A group's state is derived from its members rather than measured."

/-- What a call has done so far, and the keys that it has added. -/
structure Work where
  monitors : List Monitor
  tree : Tree
  added : List JsString
  deriving DecidableEq

def Work.keep (work : Work) (key : JsString) (id : Uuid) (entry : ReportEntry) : Work :=
  { work with
    tree := ⟨(key, id) :: work.tree.byPath, work.tree.entries ++ [entry]⟩
    added := work.added ++ [key] }

def Work.insert (work : Work) (row : Monitor) : Work :=
  { work with monitors := row :: work.monitors }

section

variable (toLowerCase : JsString → JsString) (existing : List (List JsString × Uuid))

/-- The loop of `resolve`, where `seen` is the path before. -/
def walk (call : Call) (seen : List JsString) (parentId : Option Uuid) (work : Work) :
    List JsString → Work × Except JsString (Option Uuid)
  | [] => (work, .ok parentId)
  | segment :: rest =>
    let path := seen ++ [segment]
    let name := segmentName segment
    if name = [] then walk call path parentId work rest
    else
      let key := joined path
      match work.tree.byPath.lookup key with
      | some known => walk call path (some known) work rest
      | none =>
        match existing.lookup (groupKey toLowerCase parentId name) with
        | some reused =>
          walk call path (some reused) (work.keep key reused ⟨key, name, reusedDetail, none⟩) rest
        | none =>
          match createMonitor work.monitors (call.drawn seen.length) (call.refusal seen.length) name
            parentId with
          | .error error => (work, .error error)
          | .ok created =>
            walk call path (some created.id)
              ((work.insert created).keep key created.id
                ⟨key, name, createdDetail parentId (seen.getLastD []), some created.id⟩)
              rest

/-- The savepoint takes back the rows, and the handler what was kept. -/
def resolve (s : State) (call : Call) : State × Except JsString (Option Uuid) :=
  match walk toLowerCase existing call [] none ⟨s.monitors, s.tree, []⟩ call.path with
  | (work, .ok id) => (⟨work.monitors, work.tree⟩, .ok id)
  | (work, .error error) =>
    (⟨s.monitors,
      { byPath := work.added.foldl (fun byPath key => byPath.filter (·.1 ≠ key)) work.tree.byPath
        entries := work.tree.entries.take s.tree.entries.length }⟩,
      .error error)

end

/-- The calls of one tree, on an organization with these monitors, and what they returned. -/
def resolveAll (toLowerCase : JsString → JsString) (monitors : List Monitor) (calls : List Call) :
    State × List (List JsString × Except JsString (Option Uuid)) :=
  calls.foldl (fun s call =>
    let (state, result) := resolve toLowerCase (loadExisting toLowerCase monitors) s.1 call
    (state, s.2 ++ [(call.path, result)])) (⟨monitors, ⟨[], []⟩⟩, [])

/-! ### Names and keys -/

section

variable {toLowerCase : JsString → JsString}

theorem fold_trim (s : JsString) : fold toLowerCase (trim s) = fold toLowerCase s := by
  rw [fold, trim_trim, fold]

theorem parentText_injective {a b : Option Uuid} (h : parentText a = parentText b) : a = b := by
  have hdash : ∀ id : Uuid, id.text ≠ js "-" := by
    intro id hid
    have hlength := id.length
    rw [hid] at hlength
    exact absurd hlength (by decide)
  cases a with
  | none =>
    cases b with
    | none => rfl
    | some id => exact absurd h.symm (hdash id)
  | some id =>
    cases b with
    | none => exact absurd h (hdash id)
    | some id' =>
      obtain ⟨text, _⟩ := id
      obtain ⟨text', _⟩ := id'
      obtain rfl : text = text' := h
      rfl

/-- No group has a target that reads as the place of another group. -/
def Plain (toLowerCase : JsString → JsString) (monitors : List Monitor) : Prop :=
  ∀ row ∈ monitors, row.checkType = groupType →
    ∀ parentId, fold toLowerCase row.url = parentText parentId → parentId = row.parentId

/-- What is found under the key of a group is a group of that parent and that folded name. -/
theorem existing_group {start : List Monitor} (hplain : Plain toLowerCase start)
    {parentId : Option Uuid} {name : JsString} {id : Uuid}
    (h : (loadExisting toLowerCase start).lookup (groupKey toLowerCase parentId name) = some id) :
    ∃ row ∈ start, row.id = id ∧ row.checkType = groupType ∧ row.parentId = parentId ∧
      fold toLowerCase row.name = fold toLowerCase name := by
  obtain ⟨l₁, l₂, hsplit, -⟩ := List.lookup_eq_some_iff.mp h
  have hmem : (groupKey toLowerCase parentId name, id) ∈ loadExisting toLowerCase start := by
    rw [hsplit]
    exact List.mem_append_right _ List.mem_cons_self
  obtain ⟨row, hrow, hkey⟩ := List.mem_flatMap.mp (List.mem_reverse.mp hmem)
  rcases List.mem_cons.mp hkey with hkey | hkey
  · have hparts := congrArg Prod.fst hkey
    have htype : row.checkType = groupType := (List.cons.inj hparts).1.symm
    have hplace := (List.cons.inj (List.cons.inj hparts).2).1
    have hname := (List.cons.inj (List.cons.inj (List.cons.inj hparts).2).2).1
    exact ⟨row, hrow, (congrArg Prod.snd hkey).symm, htype,
      (hplain row hrow htype parentId hplace.symm).symm, hname.symm⟩
  · split at hkey
    · rename_i htype
      have hkey := List.mem_singleton.mp hkey
      have hparts := (List.cons.inj (congrArg Prod.fst hkey)).2
      have hname := (List.cons.inj (List.cons.inj hparts).2).1
      exact ⟨row, hrow, (congrArg Prod.snd hkey).symm, htype,
        (parentText_injective (List.cons.inj hparts).1).symm, hname.symm⟩
    · cases hkey

end

/-! ### What a call that throws leaves -/

/-- What a call has done goes on top of what was there, and what it kept has new keys. -/
structure Extends (work work' : Work) : Prop where
  monitors : work.monitors <:+ work'.monitors
  kept : ∃ new, work'.tree.byPath = new ++ work.tree.byPath ∧
    work'.added = work.added ++ new.reverse.map (·.1) ∧
    ∀ pair ∈ new, pair.1 ∉ work.tree.byPath.map (·.1)
  entries : work.tree.entries <+: work'.tree.entries

theorem Extends.refl (work : Work) : Extends work work where
  monitors := List.suffix_rfl
  kept := ⟨[], rfl, (List.append_nil _).symm, nofun⟩
  entries := List.prefix_rfl

theorem Extends.trans {w₁ w₂ w₃ : Work} (h : Extends w₁ w₂) (h' : Extends w₂ w₃) :
    Extends w₁ w₃ where
  monitors := h.monitors.trans h'.monitors
  kept := by
    obtain ⟨new, hkept, hadded, hnew⟩ := h.kept
    obtain ⟨new', hkept', hadded', hnew'⟩ := h'.kept
    refine ⟨new' ++ new, ?_, ?_, fun pair hpair => ?_⟩
    · rw [hkept', hkept, List.append_assoc]
    · rw [hadded', hadded, List.reverse_append, List.map_append, List.append_assoc]
    · rcases List.mem_append.mp hpair with hpair | hpair
      · intro hold
        refine hnew' pair hpair ?_
        rw [hkept, List.map_append]
        exact List.mem_append_right _ hold
      · exact hnew pair hpair
  entries := h.entries.trans h'.entries

theorem Extends.insert (work : Work) (row : Monitor) : Extends work (work.insert row) where
  monitors := List.suffix_cons _ _
  kept := (Extends.refl work).kept
  entries := List.prefix_rfl

theorem Extends.keep {work : Work} {key : JsString} (id : Uuid) (entry : ReportEntry)
    (hnew : work.tree.byPath.lookup key = none) : Extends work (work.keep key id entry) where
  monitors := List.suffix_rfl
  kept := by
    refine ⟨[(key, id)], rfl, rfl, fun pair hpair hold => ?_⟩
    obtain rfl := List.mem_singleton.mp hpair
    obtain ⟨other, hother, hkey⟩ := List.mem_map.mp hold
    have hne := List.lookup_eq_none_iff.mp hnew other hother
    simp [hkey] at hne
  entries := List.prefix_append _ _

section

variable {toLowerCase : JsString → JsString} {existing : List (List JsString × Uuid)}

variable (toLowerCase existing) in
theorem walk_extends (call : Call) (seen rest : List JsString) (parentId : Option Uuid)
    (work : Work) :
    Extends work (walk toLowerCase existing call seen parentId work rest).1 := by
  induction rest generalizing seen parentId work with
  | nil => exact .refl work
  | cons segment rest ih =>
    rw [walk]
    dsimp only
    split
    · exact ih _ _ _
    · split
      · exact ih _ _ _
      · rename_i hnew
        split
        · exact (Extends.keep _ _ hnew).trans (ih _ _ _)
        · split
          · exact .refl work
          · rename_i created _
            have hkept := @Extends.keep (work.insert created) _ created.id
              ⟨joined (seen ++ [segment]), segmentName segment,
                createdDetail parentId (seen.getLastD []), some created.id⟩ hnew
            exact ((Extends.insert work created).trans hkept).trans (ih _ _ _)

theorem foldl_delete (keys : List JsString) (byPath : List (JsString × Uuid)) :
    keys.foldl (fun byPath key => byPath.filter (·.1 ≠ key)) byPath =
      byPath.filter fun pair => !keys.contains pair.1 := by
  induction keys generalizing byPath with
  | nil => simp
  | cons key keys ih =>
    rw [List.foldl_cons, ih, List.filter_filter]
    apply List.filter_congr
    intro pair _
    simp [Bool.and_comm]

/-- A call that throws leaves rows, map and lines as they were. -/
theorem resolve_error {s s' : State} {call : Call} {error : JsString}
    (h : resolve toLowerCase existing s call = (s', .error error)) : s' = s := by
  have hextends := walk_extends toLowerCase existing call [] call.path none
    ⟨s.monitors, s.tree, []⟩
  unfold resolve at h
  generalize walk toLowerCase existing call [] none ⟨s.monitors, s.tree, []⟩ call.path = result
    at h hextends
  obtain ⟨work, result⟩ := result
  cases result with
  | ok id => cases (Prod.mk.inj h).2
  | error message =>
    obtain ⟨new, hkept, hadded, hnew⟩ := hextends.kept
    have hentries := List.prefix_iff_eq_take.mp hextends.entries
    rw [← (Prod.mk.inj h).1]
    have hbyPath : work.added.foldl (fun byPath key => byPath.filter (·.1 ≠ key))
        work.tree.byPath = s.tree.byPath := by
      rw [foldl_delete, hkept, hadded, List.filter_append, List.filter_eq_nil_iff.mpr,
        List.filter_eq_self.mpr, List.nil_append]
      · intro pair hpair
        have hother : pair.1 ∉ new.reverse.map (·.1) := by
          intro hmem
          obtain ⟨added, hmem, hkey⟩ := List.mem_map.mp hmem
          exact hnew added (List.mem_reverse.mp hmem) (hkey ▸ List.mem_map_of_mem hpair)
        simpa using hother
      · intro pair hpair
        have hmem : pair.1 ∈ new.reverse.map (·.1) :=
          List.mem_map_of_mem (List.mem_reverse.mpr hpair)
        simpa using hmem
    show (⟨s.monitors, ⟨_, _⟩⟩ : State) = s
    rw [hbyPath, ← hentries]

end

/-! ### What a path stands for -/

/-- The path up to its last name: the segments after it are blank. -/
def named (path : List JsString) : List JsString :=
  path.rdropWhile fun segment => segmentName segment = []

section

variable (toLowerCase : JsString → JsString) (start : List Monitor)

/-- The names of a path as they are matched. -/
def normal (path : List JsString) : List JsString :=
  ((path.map segmentName).filter (· ≠ [])).map (fold toLowerCase)

/-- A row has the name of a segment, or was there before and has its folded name. -/
def Matches (row : Monitor) (segment : JsString) : Prop :=
  row.name = trim (segmentName segment) ∨
    row ∈ start ∧ fold toLowerCase row.name = fold toLowerCase (segmentName segment)

/-- The chain of ancestors of a stored group has the names of the path, blank ones left out. -/
inductive Denotes (monitors : List Monitor) : List JsString → Option Uuid → Prop where
  | root : Denotes monitors [] none
  | blank {path : List JsString} {parentId : Option Uuid} {segment : JsString} :
    segmentName segment = [] → Denotes monitors path parentId →
    Denotes monitors (path ++ [segment]) parentId
  | group {path : List JsString} {row : Monitor} {segment : JsString} :
    segmentName segment ≠ [] → row ∈ monitors → row.checkType = groupType →
    Matches toLowerCase start row segment → Denotes monitors path row.parentId →
    Denotes monitors (path ++ [segment]) (some row.id)

end

section

variable {toLowerCase : JsString → JsString} {start monitors : List Monitor}
  {path : List JsString} {segment : JsString} {id : Option Uuid}

theorem named_blank (hblank : segmentName segment = []) : named (path ++ [segment]) = named path :=
  List.rdropWhile_concat_pos _ _ _ (by simpa using hblank)

theorem named_concat (hname : segmentName segment ≠ []) :
    named (path ++ [segment]) = path ++ [segment] :=
  List.rdropWhile_concat_neg _ _ _ (by simpa using hname)

theorem named_named (path : List JsString) : named (named path) = named path :=
  List.rdropWhile_idempotent _ _

theorem named_begins (path : List JsString) : named path <+: path :=
  List.rdropWhile_prefix _ _

theorem normal_blank (hblank : segmentName segment = []) :
    normal toLowerCase (path ++ [segment]) = normal toLowerCase path := by
  simp [normal, hblank]

theorem normal_concat (hname : segmentName segment ≠ []) :
    normal toLowerCase (path ++ [segment]) =
      normal toLowerCase path ++ [fold toLowerCase (segmentName segment)] := by
  simp [normal, hname]

theorem Matches.fold {row : Monitor} (h : Matches toLowerCase start row segment) :
    fold toLowerCase row.name = fold toLowerCase (segmentName segment) := by
  rcases h with hname | ⟨-, hname⟩
  · rw [hname, fold_trim]
  · exact hname

theorem Denotes.mono {monitors' : List Monitor} (h : Denotes toLowerCase start monitors path id)
    (hsub : monitors ⊆ monitors') : Denotes toLowerCase start monitors' path id := by
  induction h with
  | root => exact .root
  | blank hblank _ ih => exact .blank hblank ih
  | group hname hrow htype hmatches _ ih => exact .group hname (hsub hrow) htype hmatches ih

theorem Denotes.stored {id : Uuid} (h : Denotes toLowerCase start monitors path (some id)) :
    ∃ row ∈ monitors, row.id = id ∧ row.checkType = groupType := by
  generalize hid : some id = result at h
  induction h with
  | root => contradiction
  | blank _ _ ih => exact ih hid
  | group _ hrow htype _ _ _ => exact ⟨_, hrow, (Option.some.inj hid).symm, htype⟩

/-- Two paths that stand for one group have the same names as they are matched. -/
theorem Denotes.normal_eq {path' : List JsString} (hids : (monitors.map (·.id)).Nodup)
    (h : Denotes toLowerCase start monitors path id)
    (h' : Denotes toLowerCase start monitors path' id) :
    normal toLowerCase path = normal toLowerCase path' := by
  induction h generalizing path' with
  | root =>
    generalize hid : (none : Option Uuid) = result at h'
    induction h' with
    | root => rfl
    | blank hblank _ ih => exact (ih hid).trans (normal_blank hblank).symm
    | group => contradiction
  | blank hblank _ ih => exact (normal_blank hblank).trans (ih h')
  | @group path row segment hname hrow _ hmatches _ ih =>
    generalize hid : some row.id = result at h'
    induction h' with
    | root => contradiction
    | blank hblank _ ih' => exact (ih' hid).trans (normal_blank hblank).symm
    | @group path' row' segment' hname' hrow' _ hmatches' hpath' _ =>
      obtain rfl : row = row' :=
        List.inj_on_of_nodup_map hids hrow hrow' (Option.some.inj hid)
      rw [normal_concat hname, normal_concat hname', ih hpath', ← hmatches.fold,
        ← hmatches'.fold]

/-! ### Whole runs -/

/-- A beginning of one of the paths. -/
def Beginning {α : Type} (paths : List (List α)) (path : List α) : Prop :=
  ∃ whole ∈ paths, path <+: whole

/-- No two beginnings that end in a name read the same when they are joined. -/
def ReadApart (paths : List (List JsString)) : Prop :=
  ∀ path path', Beginning paths path → Beginning paths path' → named path = path →
    named path' = path' → joined path = joined path' → path = path'

/-- What a path resolves to is kept under its beginning up to the last name. -/
def Kept (byPath : List (JsString × Uuid)) (path : List JsString) (id : Option Uuid) : Prop :=
  (named path = [] ∧ id = none) ∨
    (named path ≠ [] ∧ ∃ kept, id = some kept ∧ (joined (named path), kept) ∈ byPath)

structure Inv (toLowerCase : JsString → JsString) (start : List Monitor)
    (paths : List (List JsString)) (monitors : List Monitor) (byPath : List (JsString × Uuid)) :
    Prop where
  ids : (monitors.map (·.id)).Nodup
  rows : start <:+ monitors
  keys : (byPath.map (·.1)).Nodup
  /-- What is kept is stored, and has the names of a path. -/
  denotes : ∀ key id, (key, id) ∈ byPath → ∃ path, Beginning paths path ∧ named path = path ∧
    joined path = key ∧ Denotes toLowerCase start monitors path (some id)
  /-- A group that was created is kept under one key. -/
  created : ∀ key key' id, (key, id) ∈ byPath → (key', id) ∈ byPath →
    (∀ row ∈ start, row.id ≠ id) → key = key'

theorem beginning_iff {paths : List (List JsString)} :
    Beginning paths path ↔ path ∈ paths.flatMap List.inits := by
  simp [Beginning, List.mem_flatMap, List.mem_inits]

instance (paths : List (List JsString)) : Decidable (ReadApart paths) :=
  decidable_of_iff
    (∀ path ∈ paths.flatMap List.inits, ∀ path' ∈ paths.flatMap List.inits, named path = path →
      named path' = path' → joined path = joined path' → path = path') <| by
    simp only [ReadApart, beginning_iff]
    constructor
    · exact fun h path path' hpath hpath' => h path hpath path' hpath'
    · exact fun h path hpath path' hpath' => h path path' hpath hpath'

theorem Kept.mono {byPath byPath' : List (JsString × Uuid)} (h : Kept byPath path id)
    (hsub : byPath ⊆ byPath') : Kept byPath' path id :=
  h.imp_right fun ⟨hname, kept, hid, hmem⟩ => ⟨hname, kept, hid, hsub hmem⟩

theorem Kept.blank {byPath : List (JsString × Uuid)} (h : Kept byPath path id)
    (hblank : segmentName segment = []) : Kept byPath (path ++ [segment]) id := by
  unfold Kept
  rw [named_blank hblank]
  exact h

theorem Kept.concat {byPath : List (JsString × Uuid)} {kept : Uuid}
    (hname : segmentName segment ≠ []) (hmem : (joined (path ++ [segment]), kept) ∈ byPath) :
    Kept byPath (path ++ [segment]) (some kept) := by
  unfold Kept
  rw [named_concat hname]
  exact .inr ⟨by simp, kept, rfl, hmem⟩

theorem Kept.mem {byPath : List (JsString × Uuid)} {kept : Uuid}
    (h : Kept byPath path (some kept)) : (joined (named path), kept) ∈ byPath := by
  rcases h with ⟨-, hid⟩ | ⟨-, _, hid, hmem⟩
  · contradiction
  · exact Option.some.inj hid ▸ hmem

theorem Kept.eq_none_iff {byPath : List (JsString × Uuid)} (h : Kept byPath path id) :
    id = none ↔ ∀ segment ∈ path, segmentName segment = [] := by
  have hblank : named path = [] ↔ ∀ segment ∈ path, segmentName segment = [] := by
    simp [named, List.rdropWhile_eq_nil_iff]
  rw [← hblank]
  rcases h with ⟨hname, hid⟩ | ⟨hname, kept, hid, -⟩
  · simp [hname, hid]
  · simp [hname, hid]

theorem Kept.unique {byPath : List (JsString × Uuid)} {id' : Option Uuid} (h : Kept byPath path id)
    (hkeys : (byPath.map (·.1)).Nodup) (h' : Kept byPath path id') : id = id' := by
  rcases h with ⟨hname, rfl⟩ | ⟨hname, kept, rfl, hmem⟩
  · rcases h' with ⟨-, rfl⟩ | ⟨hname', -⟩
    · rfl
    · exact absurd hname hname'
  · rcases h' with ⟨hname', -⟩ | ⟨-, kept', rfl, hmem'⟩
    · exact absurd hname' hname
    · have hpair := List.inj_on_of_nodup_map hkeys hmem hmem' rfl
      exact congrArg some (Prod.mk.inj hpair).2

theorem Beginning.of_prefix {α : Type} {paths : List (List α)} {path whole : List α}
    (h : Beginning paths whole) (hbegin : path <+: whole) : Beginning paths path := by
  obtain ⟨other, hmem, hother⟩ := h
  exact ⟨other, hmem, hbegin.trans hother⟩

section Steps

variable {paths : List (List JsString)} {byPath : List (JsString × Uuid)} {key : JsString}

theorem Inv.reuse (h : Inv toLowerCase start paths monitors byPath) {row : Monitor}
    (hrow : row ∈ start) (hnew : byPath.lookup (joined (path ++ [segment])) = none)
    (hpath : Beginning paths (path ++ [segment])) (hname : segmentName segment ≠ [])
    (hdenotes : Denotes toLowerCase start monitors (path ++ [segment]) (some row.id)) :
    Inv toLowerCase start paths monitors ((joined (path ++ [segment]), row.id) :: byPath) where
  ids := h.ids
  rows := h.rows
  keys := List.nodup_cons.mpr ⟨notMem_of_lookup hnew, h.keys⟩
  denotes := by
    intro key id hmem
    rcases List.mem_cons.mp hmem with heq | hmem
    · cases heq
      exact ⟨_, hpath, named_concat hname, rfl, hdenotes⟩
    · exact h.denotes key id hmem
  created := by
    intro key key' id hmem hmem' hcreated
    rcases List.mem_cons.mp hmem with heq | hmem
    · exact absurd (Prod.mk.inj heq).2.symm (hcreated row hrow)
    · rcases List.mem_cons.mp hmem' with heq | hmem'
      · exact absurd (Prod.mk.inj heq).2.symm (hcreated row hrow)
      · exact h.created key key' id hmem hmem' hcreated

theorem Inv.create (h : Inv toLowerCase start paths monitors byPath) {row : Monitor}
    (hid : ∀ other ∈ monitors, other.id ≠ row.id)
    (hnew : byPath.lookup (joined (path ++ [segment])) = none)
    (hpath : Beginning paths (path ++ [segment])) (hname : segmentName segment ≠ [])
    (hdenotes : Denotes toLowerCase start (row :: monitors) (path ++ [segment]) (some row.id)) :
    Inv toLowerCase start paths (row :: monitors)
      ((joined (path ++ [segment]), row.id) :: byPath) where
  ids := by
    refine List.nodup_cons.mpr ⟨fun hmem => ?_, h.ids⟩
    obtain ⟨other, hother, hsame⟩ := List.mem_map.mp hmem
    exact hid other hother hsame
  rows := h.rows.trans (List.suffix_cons _ _)
  keys := List.nodup_cons.mpr ⟨notMem_of_lookup hnew, h.keys⟩
  denotes := by
    intro key id hmem
    rcases List.mem_cons.mp hmem with heq | hmem
    · cases heq
      exact ⟨_, hpath, named_concat hname, rfl, hdenotes⟩
    · obtain ⟨path, hpath, hnamed, hkey, hold⟩ := h.denotes key id hmem
      exact ⟨path, hpath, hnamed, hkey, hold.mono (List.subset_cons_self _ _)⟩
  created := by
    have hfresh : ∀ key, (key, row.id) ∉ byPath := by
      intro key hmem
      obtain ⟨_, -, -, -, hold⟩ := h.denotes key row.id hmem
      obtain ⟨other, hother, hsame, -⟩ := hold.stored
      exact hid other hother hsame
    intro key key' id hmem hmem' hcreated
    rcases List.mem_cons.mp hmem with heq | hmem
    · rcases List.mem_cons.mp hmem' with heq' | hmem'
      · rw [(Prod.mk.inj heq).1, (Prod.mk.inj heq').1]
      · exact absurd ((Prod.mk.inj heq).2 ▸ hmem') (hfresh key')
    · rcases List.mem_cons.mp hmem' with heq' | hmem'
      · exact absurd ((Prod.mk.inj heq').2 ▸ hmem) (hfresh key)
      · exact h.created key key' id hmem hmem' hcreated

end Steps

theorem createMonitor_ok {uuid : Uuid} {refusal : Option JsString} {name : JsString}
    {parentId : Option Uuid} {row : Monitor}
    (h : createMonitor monitors uuid refusal name parentId = .ok row) :
    (∀ other ∈ monitors, other.id ≠ row.id) ∧ row.name = trim name ∧ row.checkType = groupType ∧
      row.parentId = parentId := by
  unfold createMonitor at h
  dsimp only at h
  split at h
  · contradiction
  · split at h
    · contradiction
    · rename_i hnew
      split at h
      · contradiction
      · cases h
        refine ⟨fun other hother hsame => hnew ?_, rfl, rfl, rfl⟩
        exact List.any_eq_true.mpr ⟨other, hother, decide_eq_true hsame⟩

/-- What the loop makes of a path, by induction on what is left of it: the id in hand stands for the
path before, and is kept for it. -/
theorem walk_ok (hplain : Plain toLowerCase start) {paths : List (List JsString)}
    (hapart : ReadApart paths) (call : Call) (rest : List JsString) :
    ∀ (seen : List JsString) (parentId : Option Uuid) (work : Work),
      Beginning paths (seen ++ rest) →
      Inv toLowerCase start paths work.monitors work.tree.byPath →
      Denotes toLowerCase start work.monitors seen parentId →
      Kept work.tree.byPath seen parentId →
      ∀ id work', walk toLowerCase (loadExisting toLowerCase start) call seen parentId work rest =
          (work', .ok id) →
        Inv toLowerCase start paths work'.monitors work'.tree.byPath ∧
        Denotes toLowerCase start work'.monitors (seen ++ rest) id ∧
        Kept work'.tree.byPath (seen ++ rest) id := by
  induction rest with
  | nil =>
    intro seen parentId work _ hinv hdenotes hkept id work' hwalk
    obtain ⟨rfl, hid⟩ := Prod.mk.inj hwalk
    cases hid
    rw [List.append_nil]
    exact ⟨hinv, hdenotes, hkept⟩
  | cons segment rest ih =>
    intro seen parentId work hpath hinv hdenotes hkept id work' hwalk
    rw [List.append_cons] at hpath ⊢
    have hstep := hpath.of_prefix (List.prefix_append _ _)
    rw [walk] at hwalk
    dsimp only at hwalk
    split at hwalk
    · rename_i hblank
      exact ih _ _ _ hpath hinv (.blank hblank hdenotes) (hkept.blank hblank) _ _ hwalk
    · rename_i hname
      split at hwalk
      · rename_i known hknown
        have hmem := mem_of_lookup hknown
        obtain ⟨path, hbegins, hnamed, hkey, hold⟩ := hinv.denotes _ _ hmem
        have hsame : path = seen ++ [segment] :=
          hapart _ _ hbegins hstep hnamed (named_concat hname) hkey
        exact ih _ _ _ hpath hinv (hsame ▸ hold) (.concat hname hmem) _ _ hwalk
      · rename_i hnew
        split at hwalk
        · rename_i reused hreused
          obtain ⟨row, hrow, rfl, htype, rfl, hsame⟩ := existing_group hplain hreused
          have hstored := hinv.rows.subset hrow
          have hgroup := Denotes.group hname hstored htype (.inr ⟨hrow, hsame⟩) hdenotes
          exact ih _ _ (work.keep _ row.id _) hpath (hinv.reuse hrow hnew hstep hname hgroup) hgroup
            (.concat hname List.mem_cons_self) _ _ hwalk
        · split at hwalk
          · cases (Prod.mk.inj hwalk).2
          · rename_i created hcreated
            obtain ⟨hfresh, hcreatedName, htype, rfl⟩ := createMonitor_ok hcreated
            have hgroup := Denotes.group hname List.mem_cons_self htype (.inl hcreatedName)
              (hdenotes.mono (List.subset_cons_self created work.monitors))
            exact ih _ _ ((work.insert created).keep _ created.id _) hpath
              (hinv.create hfresh hnew hstep hname hgroup) hgroup (.concat hname List.mem_cons_self) _ _ hwalk

theorem resolve_ok {existing : List (List JsString × Uuid)} {s s' : State} {call : Call}
    (h : resolve toLowerCase existing s call = (s', .ok id)) : ∃ added,
      walk toLowerCase existing call [] none ⟨s.monitors, s.tree, []⟩ call.path =
        (⟨s'.monitors, s'.tree, added⟩, .ok id) := by
  unfold resolve at h
  generalize walk toLowerCase existing call [] none ⟨s.monitors, s.tree, []⟩ call.path = result
    at h ⊢
  obtain ⟨work, result⟩ := result
  cases result with
  | error message => cases (Prod.mk.inj h).2
  | ok found =>
    obtain ⟨rfl, hid⟩ := Prod.mk.inj h
    exact ⟨work.added, Prod.ext rfl hid⟩

/-- What holds of the calls so far and of what they returned. -/
structure Ran (toLowerCase : JsString → JsString) (start : List Monitor)
    (paths : List (List JsString))
    (run : State × List (List JsString × Except JsString (Option Uuid))) : Prop where
  inv : Inv toLowerCase start paths run.1.monitors run.1.tree.byPath
  answers : ∀ path id, (path, .ok id) ∈ run.2 → Beginning paths path ∧
    Denotes toLowerCase start run.1.monitors path id ∧ Kept run.1.tree.byPath path id

theorem Ran.init (hids : (start.map (·.id)).Nodup) (paths : List (List JsString)) :
    Ran toLowerCase start paths (resolveAll toLowerCase start []) where
  inv :=
    { ids := hids
      rows := List.suffix_rfl
      keys := List.nodup_nil
      denotes := nofun
      created := nofun }
  answers := nofun

theorem resolveAll_concat (start : List Monitor) (calls : List Call) (call : Call) :
    resolveAll toLowerCase start (calls ++ [call]) =
      ((resolve toLowerCase (loadExisting toLowerCase start)
          (resolveAll toLowerCase start calls).1 call).1,
        (resolveAll toLowerCase start calls).2 ++
          [(call.path, (resolve toLowerCase (loadExisting toLowerCase start)
            (resolveAll toLowerCase start calls).1 call).2)]) := by
  rw [resolveAll, List.foldl_append]
  rfl

/-- One more call: it throws and leaves everything, or it adds to what was there. -/
theorem Ran.concat (hplain : Plain toLowerCase start) {paths : List (List JsString)}
    (hapart : ReadApart paths) {calls : List Call} {call : Call} (hpath : call.path ∈ paths)
    (h : Ran toLowerCase start paths (resolveAll toLowerCase start calls)) :
    Ran toLowerCase start paths (resolveAll toLowerCase start (calls ++ [call])) := by
  rw [resolveAll_concat]
  generalize resolveAll toLowerCase start calls = run at h
  cases hcall : resolve toLowerCase (loadExisting toLowerCase start) run.1 call with
  | mk s' result =>
    have hwhole : Beginning paths ([] ++ call.path) := ⟨call.path, hpath, List.prefix_rfl⟩
    cases result with
    | error message =>
      obtain rfl := resolve_error hcall
      refine ⟨h.inv, fun path id hmem => ?_⟩
      rcases List.mem_append.mp hmem with hmem | hmem
      · exact h.answers path id hmem
      · cases (Prod.mk.inj (List.mem_singleton.mp hmem)).2
    | ok found =>
      obtain ⟨added, hwalk⟩ := resolve_ok hcall
      have hextends := walk_extends toLowerCase (loadExisting toLowerCase start) call [] call.path
        none ⟨run.1.monitors, run.1.tree, []⟩
      rw [hwalk] at hextends
      obtain ⟨new, hkept, -⟩ := hextends.kept
      obtain ⟨hinv, hdenotes, hfound⟩ := walk_ok hplain hapart call call.path [] none _ hwhole h.inv
        .root (.inl ⟨rfl, rfl⟩) _ _ hwalk
      refine ⟨hinv, fun path id hmem => ?_⟩
      rcases List.mem_append.mp hmem with hmem | hmem
      · obtain ⟨hbegins, hold, holdKept⟩ := h.answers path id hmem
        exact ⟨hbegins, hold.mono hextends.monitors.subset,
          holdKept.mono (hkept ▸ List.subset_append_right _ _)⟩
      · obtain ⟨rfl, hid⟩ := Prod.mk.inj (List.mem_singleton.mp hmem)
        cases hid
        exact ⟨hwhole, hdenotes, hfound⟩

theorem ran (hids : (start.map (·.id)).Nodup) (hplain : Plain toLowerCase start)
    {paths : List (List JsString)} (hapart : ReadApart paths) {calls : List Call}
    (hpaths : ∀ call ∈ calls, call.path ∈ paths) :
    Ran toLowerCase start paths (resolveAll toLowerCase start calls) := by
  induction calls using List.reverseRecOn with
  | nil => exact .init hids paths
  | append_singleton calls call ih =>
    have hcalls := ih fun call hmem => hpaths call (List.mem_append_left _ hmem)
    exact hcalls.concat hplain hapart (hpaths call (by simp))

end

/-- Paths whose beginnings read apart when they are joined: a path resolves to a stored group whose
ancestors have its names, or to none where it has no name; the same path resolves to the same group
again; two paths that resolve to one group are the same up to blank ends, or the group was there
before and they match it by their folded names; nothing that is kept refers to a row that is not
stored; and a call that throws leaves rows, map and lines as they were. -/
theorem groups_follow_paths (toLowerCase : JsString → JsString) (start : List Monitor)
    (calls : List Call) (hids : (start.map (·.id)).Nodup) (hplain : Plain toLowerCase start)
    (hapart : ReadApart (calls.map (·.path))) :
    let run := resolveAll toLowerCase start calls
    (∀ path id, (path, .ok id) ∈ run.2 →
      Denotes toLowerCase start run.1.monitors path id ∧
        (id = none ↔ ∀ segment ∈ path, segmentName segment = [])) ∧
    (∀ path id id', (path, .ok id) ∈ run.2 → (path, .ok id') ∈ run.2 → id = id') ∧
    (∀ path path' id, (path, .ok (some id)) ∈ run.2 → (path', .ok (some id)) ∈ run.2 →
      named path = named path' ∨
        (∃ row ∈ start, row.id = id) ∧ normal toLowerCase path = normal toLowerCase path') ∧
    (∀ key id, (key, id) ∈ run.1.tree.byPath →
      ∃ row ∈ run.1.monitors, row.id = id ∧ row.checkType = groupType) ∧
    ∀ existing s s' call error,
      resolve toLowerCase existing s call = (s', .error error) → s' = s := by
  intro run
  have hran : Ran toLowerCase start (calls.map (·.path)) run :=
    ran hids hplain hapart fun call hmem => List.mem_map_of_mem hmem
  refine ⟨fun path id hmem => ?_, fun path id id' hmem hmem' => ?_,
    fun path path' id hmem hmem' => ?_, fun key id hmem => ?_, fun _ _ _ _ _ => resolve_error⟩
  · obtain ⟨-, hdenotes, hkept⟩ := hran.answers path id hmem
    exact ⟨hdenotes, hkept.eq_none_iff⟩
  · obtain ⟨-, -, hkept⟩ := hran.answers path id hmem
    obtain ⟨-, -, hkept'⟩ := hran.answers path id' hmem'
    exact hkept.unique hran.inv.keys hkept'
  · obtain ⟨hbegins, hdenotes, hkept⟩ := hran.answers path _ hmem
    obtain ⟨hbegins', hdenotes', hkept'⟩ := hran.answers path' _ hmem'
    by_cases hthere : ∃ row ∈ start, row.id = id
    · exact .inr ⟨hthere, hdenotes.normal_eq hran.inv.ids hdenotes'⟩
    · left
      have hkey := hran.inv.created _ _ id hkept.mem hkept'.mem
        fun row hrow hsame => hthere ⟨row, hrow, hsame⟩
      exact hapart _ _ (hbegins.of_prefix (named_begins path)) (hbegins'.of_prefix (named_begins path'))
        (named_named path) (named_named path') hkey
  · obtain ⟨path, -, -, -, hdenotes⟩ := hran.inv.denotes key id hmem
    exact hdenotes.stored

/-! ### Folded names -/

def lower (s : JsString) : JsString := s.map fun c => if 0x41 ≤ c && c ≤ 0x5A then c + 0x20 else c

/-- Ten identifiers to choose from. -/
def uuid (n : Fin 10) : Uuid where
  text := js "01900000-0000-7000-8000-00000000000" ++ [0x30 + n.val.toUInt16]
  length := by
    rw [List.length_append]
    rfl

def europe : Monitor where
  id := uuid 0
  name := js "EU"
  url := js "EU"
  checkType := groupType
  parentId := none

def asked (path : List String) (n : Fin 10) : Call where
  path := path.map js
  drawn depth := uuid (n + Fin.ofNat 10 depth)
  refusal _ := none

theorem groups_follow_paths_nested :
    Denotes lower [europe] (resolveAll lower [europe] [asked ["eu", "web"] 1]).1.monitors
      [js "eu", js "web"] (some (uuid 2)) := by
  have hplain : Plain lower [europe] := by
    intro row hrow _ parentId htext
    obtain rfl := List.mem_singleton.mp hrow
    cases parentId with
    | none => rfl
    | some id =>
      have hlength := congrArg List.length htext
      rw [show (parentText (some id)).length = 36 from id.length] at hlength
      exact absurd hlength (by decide +kernel)
  exact ((groups_follow_paths lower [europe] [asked ["eu", "web"] 1] (by decide) hplain
    (by decide +kernel)).1 _ _ (by decide +kernel)).1

/-- A group that was there before is found by its folded name, and so by two paths that differ. -/
theorem folded_name_reused :
    (resolveAll lower [europe] [asked ["eu"] 1, asked ["EU"] 2]).2.map
        (fun answer => (answer.1, answer.2.toOption)) =
      [([js "eu"], some (some europe.id)), ([js "EU"], some (some europe.id))] ∧
    europe.name ≠ js "eu" := by
  decide +kernel

/-- A name that holds "/" reads like a nested path that was resolved before. -/
example :
    (resolveAll lower [] [asked ["a", "b"] 1, asked ["a/b"] 3]).2.map (·.2.toOption) =
      [some (some (uuid 2)), some (some (uuid 2))] := by
  decide +kernel

end Vigil.Bridge.GroupTree
