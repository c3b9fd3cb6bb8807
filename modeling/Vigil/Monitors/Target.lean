import Vigil.Lib.Cut
import Vigil.Monitors.Config

/-! The password inside a monitor's target, of `monitors/spec.ts`: how an edit form is given the
target with the mask in its place, and how the stored password is put back. -/

namespace Vigil.Monitors.Target

open Js.Text Lib.Cut Config

/-- A target, cut around its userinfo. -/
structure SplitTarget where
  scheme : JsString
  userinfo : JsString
  rest : JsString
  deriving DecidableEq

def colon : UInt16 := 0x3A

def atSign : UInt16 := 0x40

/-- `/[/?#]/` -/
def endsAuthority (c : UInt16) : Bool := c = 0x2F || c = 0x3F || c = 0x23

/-- The parts of a target with a scheme; the userinfo ends at the last at sign of the authority. -/
def splitTarget (target : JsString) : Option SplitTarget := do
  let scheme ← indexOf target (js "://")
  let start := scheme + 3
  let authorityEnd := (target.drop start).findIdx? endsAuthority
  let end_ := match authorityEnd with
    | none => target.length
    | some authorityEnd => start + authorityEnd
  let withoutUserinfo := { scheme := target.take start, userinfo := [], rest := target.drop start }
  match lastIndexOf target atSign (end_ - 1) with
  | none => some withoutUserinfo
  | some at_ =>
    if at_ < start then some withoutUserinfo
    else some { scheme := target.take start
                userinfo := (target.take at_).drop start
                rest := target.drop (at_ + 1) }

def targetPassword (target : JsString) : Option JsString := do
  let parts ← splitTarget target
  if parts.userinfo = [] then none
  else
    let colon ← parts.userinfo.idxOf? colon
    let password := parts.userinfo.drop (colon + 1)
    if password = [] then none else some password

def maskTargetSecret (target : JsString) : JsString :=
  match splitTarget target with
  | none => target
  | some parts =>
    if parts.userinfo = [] then target
    else match parts.userinfo.idxOf? colon with
      | none => target
      | some index =>
        let user := parts.userinfo.take index
        parts.scheme ++ user ++ [colon] ++ secretMask ++ [atSign] ++ parts.rest

/-- The password of the stored target, empty where there is none. -/
def storedSecret (stored : Option JsString) : JsString :=
  match stored.bind splitTarget with
  | none => []
  | some storedParts =>
    match storedParts.userinfo.idxOf? colon with
    | none => []
    | some storedColon => storedParts.userinfo.drop (storedColon + 1)

/-- The target with the stored password in the place of the mask, or without one where none is
stored. -/
def restoreTargetSecret (next : JsString) (stored : Option JsString) : JsString :=
  match splitTarget next with
  | none => next
  | some parts =>
    if parts.userinfo = [] then next
    else match parts.userinfo.idxOf? colon with
      | none => next
      | some index =>
        if parts.userinfo.drop (index + 1) ≠ secretMask then next
        else
          let user := parts.userinfo.take index
          let secret := storedSecret stored
          if secret = [] then parts.scheme ++ user ++ [atSign] ++ parts.rest
          else parts.scheme ++ user ++ [colon] ++ secret ++ [atSign] ++ parts.rest

/-! ### Where the credential is -/

/-- The authority that the text after a scheme begins with. -/
def authority (s : JsString) : JsString := s.takeWhile fun c => !endsAuthority c

/-- Three pieces that a target is put together from by an `@`, and that it is split into again. -/
structure Pieces (scheme userinfo rest : JsString) : Prop where
  scheme_ends : ∃ index, indexOf scheme (js "://") = some index ∧ index + 3 = scheme.length
  userinfo_plain : ∀ c ∈ userinfo, endsAuthority c = false
  last_at : atSign ∉ authority rest

def joined (scheme userinfo rest : JsString) : JsString := scheme ++ (userinfo ++ atSign :: rest)

theorem authority_append {s : JsString} (h : ∀ c ∈ s, endsAuthority c = false) (t : JsString) :
    authority (s ++ t) = s ++ authority t := by
  rw [authority, List.takeWhile_append_of_pos (by simpa using h)]
  rfl

theorem authority_append_drop (s : JsString) : authority s ++ s.drop (authority s).length = s :=
  List.prefix_iff_eq_append.mp (List.takeWhile_prefix _)

theorem endsAuthority_atSign : endsAuthority atSign = false := by decide

theorem authority_userinfo {userinfo : JsString} (h : ∀ c ∈ userinfo, endsAuthority c = false)
    (rest : JsString) :
    authority (userinfo ++ atSign :: rest) = userinfo ++ atSign :: authority rest := by
  rw [authority_append h, authority, List.takeWhile_cons_of_pos (by simp [endsAuthority_atSign])]
  rfl

theorem authorityEnd_eq (target : JsString) {start : ℕ} (h : start ≤ target.length) :
    (match (target.drop start).findIdx? endsAuthority with
      | none => target.length
      | some authorityEnd => start + authorityEnd) =
      start + (authority (target.drop start)).length := by
  rw [authority, ← findIdx?_getD, List.length_drop]
  cases (target.drop start).findIdx? endsAuthority with
  | none =>
    simp only [Option.getD_none]
    omega
  | some i => rfl

theorem splitTarget_joined {scheme userinfo rest : JsString}
    (h : Pieces scheme userinfo rest) :
    splitTarget (joined scheme userinfo rest) = some ⟨scheme, userinfo, rest⟩ := by
  obtain ⟨index, hindex, hlength⟩ := h.scheme_ends
  have hscheme : indexOf (joined scheme userinfo rest) (js "://") = some index :=
    indexOf_append hindex hlength _
  have hdrop : (joined scheme userinfo rest).drop (index + 3) = userinfo ++ atSign :: rest := by
    rw [hlength, joined, List.drop_left]
  have hstart : index + 3 ≤ (joined scheme userinfo rest).length := by
    rw [hlength, joined, List.length_append]
    omega
  have hend := authorityEnd_eq (joined scheme userinfo rest) hstart
  have hat : lastIndexOf (joined scheme userinfo rest) atSign
      (index + 3 + (authority (userinfo ++ atSign :: rest)).length - 1) =
      some (scheme.length + userinfo.length) := by
    have hcut : lastIndexOf (scheme ++ userinfo ++ atSign :: (authority rest ++
        rest.drop (authority rest).length)) atSign
        ((scheme ++ userinfo).length + (authority rest).length) =
        some (scheme ++ userinfo).length := lastIndexOf_append h.last_at
    rw [authority_append_drop, List.append_assoc, List.length_append, Nat.add_assoc] at hcut
    rw [authority_userinfo h.userinfo_plain, hlength, List.length_append, List.length_cons]
    exact hcut
  rw [hdrop] at hend
  simp only [splitTarget, hscheme, Option.bind_eq_bind, Option.bind_some, hdrop, hend, hat]
  rw [if_neg (by omega), hlength]
  have hrest : (joined scheme userinfo rest).drop (scheme.length + userinfo.length + 1) = rest := by
    rw [joined, ← List.append_assoc, ← List.length_append, ← List.drop_drop, List.drop_left]
    rfl
  have htake : (joined scheme userinfo rest).take (scheme.length + userinfo.length) =
      scheme ++ userinfo := by
    rw [joined, ← List.append_assoc, ← List.length_append, List.take_left]
  rw [hrest, htake, List.drop_left, joined, List.take_left]

theorem authority_plain (s : JsString) : ∀ c ∈ authority s, endsAuthority c = false := fun c hc => by
  simpa using List.mem_takeWhile_imp hc

/-- The last `@` of an authority cuts it into a userinfo and a host. -/
theorem cut_at {s : JsString} {k : ℕ} (hk : k < (authority s).length) (hget : s[k]? = some atSign)
    (hlast : ∀ j, k < j → j < (authority s).length → s[j]? ≠ some atSign) :
    s = s.take k ++ atSign :: s.drop (k + 1) ∧ (∀ c ∈ s.take k, endsAuthority c = false) ∧
      atSign ∉ authority (s.drop (k + 1)) := by
  obtain ⟨hlt, hat⟩ := List.getElem?_eq_some_iff.mp hget
  have hcut : s = s.take k ++ atSign :: s.drop (k + 1) := by
    rw [← hat, List.getElem_cons_drop, List.take_append_drop]
  have hplain : ∀ c ∈ s.take k, endsAuthority c = false := fun c hc => by
    have hpre : s.take k <+: authority s :=
      List.prefix_of_prefix_length_le (List.take_prefix _ _) (List.takeWhile_prefix _)
        ((List.length_take_le _ _).trans hk.le)
    exact authority_plain s c (hpre.subset hc)
  refine ⟨hcut, hplain, fun hmem => ?_⟩
  obtain ⟨i, hi, hat'⟩ := List.getElem_of_mem hmem
  have hauthority : (authority s).length = k + (authority (s.drop (k + 1))).length + 1 := by
    conv_lhs => rw [hcut, authority_userinfo hplain]
    rw [List.length_append, List.length_cons, List.length_take]
    omega
  have hsame : (s.drop (k + 1))[i]? = some atSign := by
    rw [← hat']
    exact List.prefix_iff_getElem?.mp (List.takeWhile_prefix _) i hi
  rw [List.getElem?_drop] at hsame
  exact hlast (k + 1 + i) (by omega) (by omega) hsame

/-- A target with a userinfo is put together from the pieces it is split into. -/
theorem pieces_of_splitTarget {target : JsString} {parts : SplitTarget}
    (h : splitTarget target = some parts) (huserinfo : parts.userinfo ≠ []) :
    target = joined parts.scheme parts.userinfo parts.rest ∧
      Pieces parts.scheme parts.userinfo parts.rest := by
  obtain ⟨index, hindex, h⟩ := Option.bind_eq_some_iff.mp h
  obtain ⟨htaken, hlength⟩ := indexOf_take hindex
  have hstart : index + 3 ≤ target.length := by
    have := List.length_take_le (index + 3) target
    simp only [show (js "://").length = 3 from rfl, List.length_take] at hlength
    omega
  dsimp only at h
  rw [authorityEnd_eq target hstart] at h
  split at h
  · cases h
    exact absurd rfl huserinfo
  · rename_i at_ hat
    split at h
    · cases h
      exact absurd rfl huserinfo
    · rename_i hge
      cases h
      obtain ⟨hle, hget, hlast⟩ := lastIndexOf_eq_some_iff.mp hat
      obtain ⟨k, rfl⟩ : ∃ k, at_ = index + 3 + k := ⟨at_ - (index + 3), by omega⟩
      obtain ⟨hcut, hplain, hno⟩ := @cut_at (target.drop (index + 3)) k (by omega)
        (by rw [List.getElem?_drop, hget])
        (fun j hkj hj => by
          rw [List.getElem?_drop]
          exact hlast _ (by omega) (by omega))
      rw [List.drop_drop, ← Nat.add_assoc] at hcut hno
      dsimp only
      rw [List.drop_take, Nat.add_sub_cancel_left]
      refine ⟨?_, ⟨index, htaken, hlength.symm⟩, hplain, hno⟩
      rw [joined, ← hcut, List.take_append_drop]

/-! ### Targets with a credential, and bare ones -/

/-- The pieces of a target whose userinfo has a colon, cut at the first one. -/
structure Credential (scheme user password rest : JsString) : Prop where
  pieces : Pieces scheme (user ++ colon :: password) rest
  first_colon : colon ∉ user

def withPassword (scheme user password rest : JsString) : JsString :=
  joined scheme (user ++ colon :: password) rest

/-- A target whose userinfo has no colon, or that has no userinfo. -/
def Bare (target : JsString) : Prop :=
  ∀ parts, splitTarget target = some parts → parts.userinfo.idxOf? colon = none

theorem bare_or_credential (target : JsString) :
    Bare target ∨ ∃ scheme user password rest, Credential scheme user password rest ∧
      target = withPassword scheme user password rest := by
  cases hsplit : splitTarget target with
  | none => exact .inl fun parts h => by rw [hsplit] at h; cases h
  | some parts =>
    cases hcolon : parts.userinfo.idxOf? colon with
    | none =>
      refine .inl fun parts' h => ?_
      rw [hsplit] at h
      exact Option.some.inj h ▸ hcolon
    | some index =>
      obtain ⟨hcut, hfirst⟩ := idxOf?_cut hcolon
      have huserinfo : parts.userinfo ≠ [] := fun h => by simp [h] at hcolon
      obtain ⟨htarget, hpieces⟩ := pieces_of_splitTarget hsplit huserinfo
      rw [hcut] at htarget hpieces
      exact .inr ⟨_, _, _, _, ⟨hpieces, hfirst⟩, htarget⟩

namespace Bare

variable {target : JsString}

theorem targetPassword_eq (h : Bare target) : targetPassword target = none := by
  unfold targetPassword
  cases hsplit : splitTarget target with
  | none => rfl
  | some parts =>
    rw [Option.bind_eq_bind, Option.bind_some, h parts hsplit]
    split <;> rfl

theorem maskTargetSecret_eq (h : Bare target) : maskTargetSecret target = target := by
  unfold maskTargetSecret
  cases hsplit : splitTarget target with
  | none => rfl
  | some parts => simp only [h parts hsplit, ite_self]

theorem restoreTargetSecret_eq (h : Bare target) (stored : Option JsString) :
    restoreTargetSecret target stored = target := by
  unfold restoreTargetSecret
  cases hsplit : splitTarget target with
  | none => rfl
  | some parts => simp only [h parts hsplit, ite_self]

theorem storedSecret_eq (h : Bare target) : storedSecret (some target) = [] := by
  unfold storedSecret
  rw [Option.bind_some]
  cases hsplit : splitTarget target with
  | none => rfl
  | some parts => simp only [h parts hsplit]

end Bare

namespace Credential

variable {scheme user password rest : JsString}

theorem splitTarget_eq (h : Credential scheme user password rest) :
    splitTarget (withPassword scheme user password rest) =
      some ⟨scheme, user ++ colon :: password, rest⟩ :=
  splitTarget_joined h.pieces

theorem idxOf?_eq (h : Credential scheme user password rest) :
    (user ++ colon :: password).idxOf? colon = some user.length :=
  idxOf?_append h.first_colon password

theorem targetPassword_eq (h : Credential scheme user password rest) :
    targetPassword (withPassword scheme user password rest) =
      if password = [] then none else some password := by
  simp [targetPassword, h.splitTarget_eq, h.idxOf?_eq]

theorem storedSecret_eq (h : Credential scheme user password rest) :
    storedSecret (some (withPassword scheme user password rest)) = password := by
  simp [storedSecret, h.splitTarget_eq, h.idxOf?_eq]

theorem maskTargetSecret_eq (h : Credential scheme user password rest) :
    maskTargetSecret (withPassword scheme user password rest) =
      withPassword scheme user secretMask rest := by
  simp only [maskTargetSecret, h.splitTarget_eq, h.idxOf?_eq]
  simp [withPassword, joined]

/-- The pieces with another password, where no character of it ends the authority. -/
theorem replace (h : Credential scheme user password rest) {password' : JsString}
    (hplain : ∀ c ∈ password', endsAuthority c = false) :
    Credential scheme user password' rest := by
  refine ⟨⟨h.pieces.scheme_ends, fun c hc => ?_, h.pieces.last_at⟩, h.first_colon⟩
  rcases List.mem_append.mp hc with hc | hc
  · exact h.pieces.userinfo_plain c (List.mem_append_left _ hc)
  · rcases List.mem_cons.mp hc with rfl | hc
    · decide
    · exact hplain c hc

theorem password_plain (h : Credential scheme user password rest) :
    ∀ c ∈ password, endsAuthority c = false := fun c hc =>
  h.pieces.userinfo_plain c (List.mem_append_right _ (List.mem_cons_of_mem _ hc))

/-- Without its password and the colon the target is bare. -/
theorem bare_joined (h : Credential scheme user password rest) :
    Bare (joined scheme user rest) := by
  have hpieces : Pieces scheme user rest :=
    ⟨h.pieces.scheme_ends,
      fun c hc => h.pieces.userinfo_plain c (List.mem_append_left _ hc), h.pieces.last_at⟩
  intro parts hsplit
  rw [splitTarget_joined hpieces] at hsplit
  rw [← Option.some.inj hsplit, List.idxOf?_eq_none_iff]
  exact h.first_colon

theorem restoreTargetSecret_of_ne (h : Credential scheme user password rest)
    (hne : password ≠ secretMask) (stored : Option JsString) :
    restoreTargetSecret (withPassword scheme user password rest) stored =
      withPassword scheme user password rest := by
  simp [restoreTargetSecret, h.splitTarget_eq, h.idxOf?_eq, hne]

theorem restoreTargetSecret_mask (h : Credential scheme user secretMask rest)
    (stored : Option JsString) :
    restoreTargetSecret (withPassword scheme user secretMask rest) stored =
      if storedSecret stored = [] then joined scheme user rest
      else withPassword scheme user (storedSecret stored) rest := by
  simp only [restoreTargetSecret, h.splitTarget_eq, h.idxOf?_eq]
  simp [withPassword, joined]

end Credential

theorem secretMask_plain : ∀ c ∈ secretMask, endsAuthority c = false := by
  have hall : secretMask.all (fun c => !endsAuthority c) = true := by decide +kernel
  intro c hc
  simpa using List.all_eq_true.mp hall c hc

theorem storedSecret_eq_getD (stored : Option JsString) :
    storedSecret stored = (stored.bind targetPassword).getD [] := by
  cases stored with
  | none => rfl
  | some target =>
    rw [Option.bind_some]
    rcases bare_or_credential target with h | ⟨scheme, user, password, rest, h, rfl⟩
    · rw [h.storedSecret_eq, h.targetPassword_eq]
      rfl
    · rw [h.storedSecret_eq, h.targetPassword_eq]
      split
      · rename_i hempty
        rw [hempty]
        rfl
      · rfl

theorem storedSecret_plain (stored : Option JsString) :
    ∀ c ∈ storedSecret stored, endsAuthority c = false := by
  cases stored with
  | none => exact nofun
  | some target =>
    rcases bare_or_credential target with h | ⟨scheme, user, password, rest, h, rfl⟩
    · rw [h.storedSecret_eq]
      exact nofun
    · rw [h.storedSecret_eq]
      exact h.password_plain

/-! ### The round trip -/

/-- The userinfo of `target` ends at its first colon: it has a place for a password, and none
there. -/
def EmptyPassword (target : JsString) : Prop :=
  ∃ parts user, splitTarget target = some parts ∧ parts.userinfo = user ++ [colon] ∧ colon ∉ user

/-- Two targets that are split alike but for their passwords, which neither of them lacks. -/
def SameButPassword (target target' : JsString) : Prop :=
  ∃ parts parts' index, splitTarget target = some parts ∧ splitTarget target' = some parts' ∧
    parts.scheme = parts'.scheme ∧ parts.rest = parts'.rest ∧
    parts.userinfo.idxOf? colon = some index ∧ parts'.userinfo.idxOf? colon = some index ∧
    parts.userinfo.take index = parts'.userinfo.take index ∧
    targetPassword target ≠ none ∧ targetPassword target' ≠ none

theorem Bare.not_emptyPassword {target : JsString} (h : Bare target) : ¬EmptyPassword target := by
  rintro ⟨parts, user, hsplit, huserinfo, -⟩
  have hcolon := h parts hsplit
  rw [List.idxOf?_eq_none_iff, huserinfo] at hcolon
  exact hcolon (by simp)

theorem Credential.emptyPassword_iff {scheme user password rest : JsString}
    (h : Credential scheme user password rest) :
    EmptyPassword (withPassword scheme user password rest) ↔ password = [] := by
  constructor
  · rintro ⟨parts, user', hsplit, huserinfo, hfirst⟩
    obtain rfl := Option.some.inj (h.splitTarget_eq.symm.trans hsplit)
    have hindex := idxOf?_append hfirst []
    dsimp only at huserinfo
    rw [← huserinfo, h.idxOf?_eq] at hindex
    obtain ⟨-, heq⟩ := List.append_inj huserinfo (Option.some.inj hindex)
    exact (List.cons.inj heq).2
  · rintro rfl
    exact ⟨_, user, h.splitTarget_eq, rfl, h.first_colon⟩

/-- Masking a target and putting its password back gives the target, unless its password is
empty. -/
theorem restore_mask_iff (target : JsString) :
    restoreTargetSecret (maskTargetSecret target) (some target) = target ↔
      ¬EmptyPassword target := by
  rcases bare_or_credential target with h | ⟨scheme, user, password, rest, h, rfl⟩
  · rw [h.maskTargetSecret_eq, h.restoreTargetSecret_eq]
    exact iff_of_true rfl h.not_emptyPassword
  · rw [h.maskTargetSecret_eq, (h.replace secretMask_plain).restoreTargetSecret_mask,
      h.storedSecret_eq, h.emptyPassword_iff]
    split
    · rename_i hempty
      refine iff_of_false (fun heq => ?_) (not_not_intro hempty)
      -- The colon is lost: the text is one character shorter.
      have hlength := congrArg List.length heq
      simp only [joined, withPassword, List.length_append, List.length_cons] at hlength
      omega
    · rename_i hpassword
      exact iff_of_true rfl hpassword

/-- A target without the mask, or the stored one itself, is stored as it is. -/
theorem restoreTargetSecret_self (target : JsString) :
    restoreTargetSecret target (some target) = target := by
  rcases bare_or_credential target with h | ⟨scheme, user, password, rest, h, rfl⟩
  · exact h.restoreTargetSecret_eq _
  · by_cases hmask : password = secretMask
    · subst hmask
      rw [h.restoreTargetSecret_mask, h.storedSecret_eq, if_neg (by decide)]
    · exact h.restoreTargetSecret_of_ne hmask _

/-- What is turned back into the stored target: that target, the same with the mask for its password,
and one that has the mask where the stored one has no place for a password. -/
theorem restoreTargetSecret_eq_stored_iff {next stored : JsString} :
    restoreTargetSecret next (some stored) = stored ↔ next = stored ∨
      ∃ scheme user rest, Credential scheme user secretMask rest ∧
        next = withPassword scheme user secretMask rest ∧
        (stored = joined scheme user rest ∨ ∃ password, password ≠ [] ∧
          Credential scheme user password rest ∧ stored = withPassword scheme user password rest) := by
  constructor
  · intro hrestored
    rcases bare_or_credential next with hbare | ⟨scheme, user, password, rest, h, rfl⟩
    · exact .inl ((hbare.restoreTargetSecret_eq _).symm.trans hrestored)
    · by_cases hmask : password = secretMask
      · subst hmask
        rw [h.restoreTargetSecret_mask] at hrestored
        refine .inr ⟨scheme, user, rest, h, rfl, ?_⟩
        split at hrestored
        · exact .inl hrestored.symm
        · rename_i hsecret
          exact .inr ⟨_, hsecret, h.replace (storedSecret_plain _), hrestored.symm⟩
      · exact .inl ((h.restoreTargetSecret_of_ne hmask _).symm.trans hrestored)
  · rintro (rfl | ⟨scheme, user, rest, h, rfl, rfl | ⟨password, hpassword, hstored, rfl⟩⟩)
    · exact restoreTargetSecret_self next
    · rw [h.restoreTargetSecret_mask, h.bare_joined.storedSecret_eq, if_pos rfl]
    · rw [h.restoreTargetSecret_mask, hstored.storedSecret_eq, if_neg hpassword]

theorem maskTargetSecret_congr {target target' : JsString} (h : SameButPassword target target') :
    maskTargetSecret target = maskTargetSecret target' := by
  obtain ⟨parts, parts', index, hsplit, hsplit', hscheme, hrest, hcolon, hcolon', huser, -, -⟩ := h
  have huserinfo : parts.userinfo ≠ [] := fun h => by simp [h] at hcolon
  have huserinfo' : parts'.userinfo ≠ [] := fun h => by simp [h] at hcolon'
  simp only [maskTargetSecret, hsplit, hsplit', if_neg huserinfo, if_neg huserinfo', hcolon,
    hcolon', hscheme, hrest, huser]

/-- No target that is handed on has the mask for its password. -/
theorem targetPassword_restore (next : JsString) {stored : Option JsString}
    (h : stored.bind targetPassword ≠ some secretMask) :
    targetPassword (restoreTargetSecret next stored) ≠ some secretMask := by
  rcases bare_or_credential next with hbare | ⟨scheme, user, password, rest, hnext, rfl⟩
  · rw [hbare.restoreTargetSecret_eq, hbare.targetPassword_eq]
    exact (Option.some_ne_none _).symm
  · by_cases hmask : password = secretMask
    · subst hmask
      rw [hnext.restoreTargetSecret_mask]
      split
      · rw [hnext.bare_joined.targetPassword_eq]
        exact (Option.some_ne_none _).symm
      · rename_i hsecret
        rw [(hnext.replace (storedSecret_plain stored)).targetPassword_eq, if_neg hsecret]
        intro heq
        rw [storedSecret_eq_getD] at heq hsecret
        cases hstored : stored.bind targetPassword with
        | none => exact hsecret (by rw [hstored]; rfl)
        | some secret =>
          rw [hstored, Option.getD_some] at heq
          exact h (hstored.trans heq)
    · rw [hnext.restoreTargetSecret_of_ne hmask, hnext.targetPassword_eq]
      split
      · exact (Option.some_ne_none _).symm
      · exact fun heq => hmask (Option.some.inj heq)

theorem target_secret_kept (target : JsString) :
    (restoreTargetSecret (maskTargetSecret target) (some target) = target ↔
      ¬EmptyPassword target) ∧
    (∀ target', SameButPassword target target' →
      maskTargetSecret target = maskTargetSecret target') ∧
    (∀ stored : Option JsString, stored.bind targetPassword ≠ some secretMask →
      targetPassword (restoreTargetSecret target stored) ≠ some secretMask) :=
  ⟨restore_mask_iff target, fun _ => maskTargetSecret_congr, fun _ => targetPassword_restore target⟩

theorem colon_lost :
    targetPassword (js "redis://user:@host:6379") ≠ some secretMask ∧
    restoreTargetSecret (maskTargetSecret (js "redis://user:@host:6379"))
      (some (js "redis://user:@host:6379")) ≠ js "redis://user:@host:6379" := by
  decide

end Vigil.Monitors.Target
